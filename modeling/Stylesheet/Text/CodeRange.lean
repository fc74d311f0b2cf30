/-!
# Ranges of code points

Classes of characters are kept as lists of closed ranges of code points, the form in which the
Unicode character database states them.

## Main definitions

* `CodeRanges` — a class of characters, as a list of closed ranges.
* `CodeRanges.has` — membership of a character.
-/

namespace Stylesheet.Text

/-- A class of characters: the code points from the first to the second number of some pair. -/
abbrev CodeRanges := List (Nat × Nat)

/-- Whether some range of the class holds the character. -/
def CodeRanges.has (ranges : CodeRanges) (c : Char) : Bool :=
  ranges.any fun range => range.1 ≤ c.toNat && c.toNat ≤ range.2

theorem CodeRanges.has_eq_true_iff {ranges : CodeRanges} {c : Char} :
    ranges.has c = true ↔ ∃ range ∈ ranges, range.1 ≤ c.toNat ∧ c.toNat ≤ range.2 := by
  simp [CodeRanges.has]

end Stylesheet.Text
