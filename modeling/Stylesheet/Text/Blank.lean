import Stylesheet.Text.CodeRange

/-!
# White space

The white space that surrounds selectors, follows an attached selector mark and is trimmed from
the text of a list of values.  It is Unicode's bidirectional white space and separators, together
with the four information separators U+001C to U+001F.

## Main definitions

* `isBlank` — the class of white space characters.
* `trim` — a text without the white space at its two ends.
* `fields` — the parts of a text between the occurrences of a separator.

## Main statements

* `intercalate_fields`, `separator_notMem_of_mem_fields` — the parts of a text, with separators put
  between them, are the text, and no part holds a separator.
-/

namespace Stylesheet.Text

/-- The ranges of white space. -/
def blankRanges : CodeRanges :=
  [(0x09, 0x0d), (0x1c, 0x20), (0x85, 0x85), (0xa0, 0xa0), (0x1680, 0x1680), (0x2000, 0x200a),
   (0x2028, 0x2029), (0x202f, 0x202f), (0x205f, 0x205f), (0x3000, 0x3000)]

/-- Whether a character is white space. -/
def isBlank (c : Char) : Bool :=
  blankRanges.has c

/-- The text without the white space it starts with. -/
def trimLeft (cs : List Char) : List Char :=
  cs.dropWhile isBlank

/-- The text without the white space it ends with. -/
def trimRight (cs : List Char) : List Char :=
  (cs.reverse.dropWhile isBlank).reverse

/-- The text without the white space at its two ends. -/
def trim (cs : List Char) : List Char :=
  trimRight (trimLeft cs)

/-- The parts of a text between the occurrences of a separator: one more than there are separators,
so the empty text has one empty part. -/
def fields (separator : Char) : List Char → List (List Char)
  | [] => [[]]
  | c :: rest =>
    if c = separator then [] :: fields separator rest
    else (fields separator rest).modifyHead (c :: ·)

@[simp] theorem fields_nil (separator : Char) : fields separator [] = [[]] := rfl

@[simp] theorem fields_separator (separator : Char) (rest : List Char) :
    fields separator (separator :: rest) = [] :: fields separator rest := by
  simp [fields]

/-- A text has at least one part. -/
theorem fields_ne_nil (separator : Char) (cs : List Char) : fields separator cs ≠ [] := by
  induction cs with
  | nil => simp
  | cons c rest ih =>
    by_cases h : c = separator
    · simp [fields, h]
    · cases hf : fields separator rest with
      | nil => exact absurd hf ih
      | cons part parts => simp [fields, h, hf]

/-- No part of a text holds a separator. -/
theorem separator_notMem_of_mem_fields {separator : Char} {cs part : List Char}
    (h : part ∈ fields separator cs) : separator ∉ part := by
  induction cs generalizing part with
  | nil => simp_all
  | cons c rest ih =>
    by_cases hc : c = separator
    · rcases List.mem_cons.1 (by simpa [fields, hc] using h) with rfl | hpart
      · simp
      · exact ih hpart
    · cases hf : fields separator rest with
      | nil => exact absurd hf (fields_ne_nil separator rest)
      | cons first others =>
        rw [hf] at ih
        rcases List.mem_cons.1 (by simpa [fields, hc, hf] using h) with rfl | hpart
        · simpa [Ne.symm hc] using ih (List.mem_cons_self ..)
        · exact ih (List.mem_cons_of_mem _ hpart)

/-- The parts of a text, with separators put between them, are the text. -/
theorem intercalate_fields (separator : Char) (cs : List Char) :
    [separator].intercalate (fields separator cs) = cs := by
  induction cs with
  | nil => simp
  | cons c rest ih =>
    cases hf : fields separator rest with
    | nil => exact absurd hf (fields_ne_nil separator rest)
    | cons first others =>
      rw [hf] at ih
      by_cases hc : c = separator
      · simp [fields, hc, hf, List.intercalate_cons_cons, ih]
      · cases others <;> simp_all [fields, List.intercalate_cons_cons]

end Stylesheet.Text
