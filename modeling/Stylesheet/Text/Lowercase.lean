import Stylesheet.Text.CaseTable

/-!
# Lower case

The full lower-case mapping of Unicode on a whole text.  Two letters need more than the simple
mapping of one character: `İ` becomes an `i` with a dot above it, and a `Σ` at the end of a word
becomes `ς`.

## Main definitions

* `lowerChar` — the lower-case form of a character that stands alone.
* `lower` — the lower-case form of a text.
-/

namespace Stylesheet.Text

/-- Whether a character carries case. -/
def isCased (c : Char) : Bool :=
  casedRanges.has c

/-- Whether a character is skipped when the neighbours of a letter are examined. -/
def isCaseIgnorable (c : Char) : Bool :=
  caseIgnorableRanges.has c

/-- The lower-case form of a character that stands alone. -/
def lowerChar (c : Char) : List Char :=
  if c = 'İ' then ['i', '\u0307']
  else match lowerShifts.find? (·.has c) with
    | some run => [Char.ofNat (c.toNat + run.shift).toNat]
    | none => [c]

/-- Whether the next character that is not transparent carries case. -/
def startsCased (cs : List Char) : Bool :=
  match cs.dropWhile isCaseIgnorable with
  | [] => false
  | c :: _ => isCased c

/-- The lower-case form of the rest of a text.  The flag tells whether the last character before it
that is not transparent carries case. -/
def lowerAfter (cased : Bool) : List Char → List Char
  | [] => []
  | c :: rest =>
    (if c = 'Σ' then [if cased && !startsCased rest then 'ς' else 'σ'] else lowerChar c) ++
      lowerAfter (if isCaseIgnorable c then cased else isCased c) rest

/-- The lower-case form of a text. -/
def lower (cs : List Char) : List Char :=
  lowerAfter false cs

end Stylesheet.Text
