import Stylesheet.Selector.Fragment

/-!
# Merging fragments

The fragments of a selector are written one after the other with spaces between them, except that a
fragment which starts with `&` or `:` is attached to the one before it.  The `&` is dropped, the `:`
stays, and the white space after either of them is dropped.

## Main definitions

* `Selector.attach` — closes the gap before every fragment with a given mark.
* `Selector.merge` — the selector that a list of fragments stands for.

## Main statements

* `Selector.attach_of_gap_notMem` — a text without gaps stays as it is.
-/

namespace Stylesheet.Selector

open Text (isBlank trim)

/-- The character that marks a gap between two fragments until it is known whether they are
attached. -/
def gap : Char := '\x01'

/-- Closes every gap before the mark: gap, mark and the white space after them give way to
`replacement`.

White space cannot hold a gap, so what is dropped after one mark never reaches into the next gap,
and the rest of the text can be treated first. -/
def attach (mark : Char) (replacement : List Char) : List Char → List Char
  | [] => []
  | [c] => [c]
  | c :: d :: rest =>
    if c = gap ∧ d = mark then replacement ++ (attach mark replacement rest).dropWhile isBlank
    else c :: attach mark replacement (d :: rest)

/-- A text without gaps stays as it is. -/
theorem attach_of_gap_notMem {mark : Char} {replacement cs : List Char} (h : gap ∉ cs) :
    attach mark replacement cs = cs := by
  induction cs with
  | nil => rfl
  | cons c rest ih =>
    obtain ⟨hc, hrest⟩ := not_or.1 (mt List.mem_cons.2 h)
    cases rest with
    | nil => rfl
    | cons d rest =>
      rw [attach, if_neg fun hmark => hc hmark.1.symm, ih hrest]

/-- The selector that a list of fragments stands for. -/
def mergeChars (fragments : List (List Char)) : List Char :=
  let joined := [gap].intercalate fragments
  let attached := attach ':' [':'] (attach '&' [] joined)
  trim (attached.map fun c => if c = gap then ' ' else c)

/-- The selector that a list of fragments stands for. -/
def merge (fragments : List String) : String :=
  String.ofList (mergeChars (fragments.map String.toList))

end Stylesheet.Selector
