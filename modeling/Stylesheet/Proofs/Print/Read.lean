import Stylesheet.Proofs.Block.Leaves
import Stylesheet.Proofs.Print.TextLine

/-!
# Reading sheets

The text of a sheet tells which sheet it is, whatever braces, semicolons and spaces stand in its
keys and values, if no line break stands in them and the name of no declaration has the mark in it
that comes after a name.

Lines are read from the last one to the first.  The last character of a line tells what it is: a
closing brace is the end of a block, and its entries follow until the line with its key.  By then
the blocks that are open tell how many spaces are in front of a line.

## Main definitions

* `Sheet.IsLegible` — sheets that can be read.
* `Sheet.read` — the sheet that a text is.

## Main statements

* `Sheet.foldr_readLine_textLines` — what is read once the lines of a sheet have been.
* `Sheet.read_of_format_eq_ok` — a sheet is read from its text.
* `Sheet.eq_of_format_eq_ok` — sheets with the same text are the same.
-/

namespace Stylesheet.Sheet

/-! ## Reading -/

/-- The name and the text of a declaration, which are separated by the first mark of a colon and a
space. -/
def splitName : List Char → List Char × List Char
  | [] => ([], [])
  | ':' :: ' ' :: text => ([], text)
  | c :: rest => (c :: (splitName rest).1, (splitName rest).2)

/-- What is read with one line more.  The entries that have been read are those of the blocks that
are open, with the innermost block first. -/
def readLine (indent : Nat) (line : List Char) (blocks : List Sheet) : List Sheet :=
  match line.getLast?, blocks with
  | some ';', entries :: outer =>
    let declaration := splitName (line.drop (outer.length * indent)).dropLast
    .declare (.ofList declaration.1) (.ofList declaration.2) entries :: outer
  | some '\x7b', body :: entries :: outer =>
    let key := (line.drop (outer.length * indent)).dropLast.dropLast
    .nest (.ofList key) body entries :: outer
  | some '\x7d', _ => .empty :: blocks
  | _, _ => blocks

/-- The sheet that a text is. -/
def read (indent : Nat) (text : String) : Sheet :=
  ((text.toList.splitOn '\n').foldr (readLine indent) [.empty]).headD .empty

/-- A sheet in which no key and no text breaks a line, and no key of a declaration has a colon and a
space after it. -/
def IsLegible : Sheet → Prop
  | .empty => True
  | .declare key text rest =>
    ('\n' ∉ key.toList ∧ '\n' ∉ text.toList ∧ ¬ [':', ' '] <:+: key.toList) ∧ IsLegible rest
  | .nest key body rest => '\n' ∉ key.toList ∧ IsLegible body ∧ IsLegible rest

/-- Whether a sheet can be read is told from its keys and texts. -/
instance decidableIsLegible : (sheet : Sheet) → Decidable sheet.IsLegible
  | .empty => .isTrue trivial
  | .declare _ _ rest =>
    have := decidableIsLegible rest
    inferInstanceAs (Decidable (_ ∧ _))
  | .nest _ body rest =>
    have := decidableIsLegible body
    have := decidableIsLegible rest
    inferInstanceAs (Decidable (_ ∧ _))

/-- A name without the mark is split off before the first mark. -/
theorem splitName_append {name : List Char} (h : ¬ [':', ' '] <:+: name) (text : List Char) :
    splitName (name ++ ':' :: ' ' :: text) = (name, text) := by
  induction name with
  | nil => rfl
  | cons c rest ih =>
    have hrest : ¬ [':', ' '] <:+: rest :=
      fun hrest => h (hrest.trans (List.suffix_cons c rest).isInfix)
    rw [List.cons_append, splitName, ih hrest]
    -- The mark could only start here if a colon is followed by a space.
    rintro text' rfl heq
    cases rest with
    | nil => cases heq
    | cons d others =>
      obtain ⟨rfl, -⟩ := List.cons.inj heq
      exact h ⟨[], others, rfl⟩

/-! ## The lines of a sheet -/

variable {indent level : Nat}

/-- A line at a level that is not negative. -/
theorem toList_text (indent level : Nat) (parts : List String) :
    (TextLine.text indent ⟨level, parts⟩).toList =
      List.replicate (level * indent) ' ' ++ parts.flatMap String.toList := by
  have hwidth : (TextLine.width indent ⟨level, parts⟩).toNat = level * indent := by
    rw [TextLine.width, ← Int.natCast_mul, Int.toNat_natCast]
  rw [TextLine.text, hwidth, String.toList_append, String.toList_ofList, String.toList_join]

/-- What a line holds after the spaces in front of it, and the character that tells what it is. -/
theorem drop_and_getLast?_of_toList {line content : List Char} {c : Char}
    (h : line = List.replicate (level * indent) ' ' ++ (content ++ [c])) :
    (line.drop (level * indent)).dropLast = content ∧ line.getLast? = some c := by
  subst h
  constructor
  · rw [List.drop_left' List.length_replicate, List.dropLast_concat]
  · rw [← List.append_assoc, List.getLast?_concat]

variable {outer : List Sheet}

theorem readLine_declaration (hlevel : outer.length = level) {key : String}
    (hkey : ¬ [':', ' '] <:+: key.toList) (text : String) (entries : Sheet) :
    readLine indent ((TextLine.declaration level key text).text indent).toList (entries :: outer) =
      .declare key text entries :: outer := by
  have hline : ((TextLine.declaration level key text).text indent).toList =
      List.replicate (level * indent) ' ' ++
        ((key.toList ++ ':' :: ' ' :: text.toList) ++ [';']) := by
    rw [TextLine.declaration, toList_text]
    simp [List.flatMap_cons]
  obtain ⟨hcontent, hlast⟩ := drop_and_getLast?_of_toList hline
  simp only [readLine, hlast, hlevel, hcontent, splitName_append hkey, String.ofList_toList]

theorem readLine_blockStart (hlevel : outer.length = level) (key : String) (body entries : Sheet) :
    readLine indent (TextLine.text indent ⟨level, [key, " \x7b"]⟩).toList
      (body :: entries :: outer) = .nest key body entries :: outer := by
  have hline : (TextLine.text indent ⟨level, [key, " \x7b"]⟩).toList =
      List.replicate (level * indent) ' ' ++ ((key.toList ++ [' ']) ++ ['\x7b']) := by
    rw [toList_text]
    simp [List.flatMap_cons]
  obtain ⟨hcontent, hlast⟩ := drop_and_getLast?_of_toList hline
  simp only [readLine, hlast, hlevel, hcontent, List.dropLast_concat, String.ofList_toList]

theorem readLine_blockEnd (level : Nat) (blocks : List Sheet) :
    readLine indent (TextLine.text indent ⟨level, ["\x7d"]⟩).toList blocks = .empty :: blocks := by
  have hline : (TextLine.text indent ⟨level, ["\x7d"]⟩).toList =
      List.replicate (level * indent) ' ' ++ ([] ++ ['\x7d']) := toList_text indent level ["\x7d"]
  obtain ⟨-, hlast⟩ := drop_and_getLast?_of_toList hline
  simp only [readLine, hlast]

/-! ## Reading the lines of a sheet -/

/-- The lines of a sheet put its entries before those that have been read of the same block. -/
theorem foldr_readLine_textLines {sheet : Sheet} (h : sheet.IsLegible) {level : Nat}
    {outer : List Sheet} (hlevel : outer.length = level) (entries : Sheet) :
    ((sheet.textLines level).map fun line => (line.text indent).toList).foldr (readLine indent)
      (entries :: outer) = sheet.append entries :: outer := by
  induction sheet generalizing level outer entries with
  | empty => rfl
  | declare key text rest ih =>
    obtain ⟨⟨-, -, hkey⟩, hrest⟩ := h
    rw [textLines, List.map_cons, List.foldr_cons, ih hrest hlevel,
      readLine_declaration hlevel hkey]
    rfl
  | nest key body rest ihBody ihRest =>
    obtain ⟨-, hbody, hrest⟩ := h
    have hinner : (rest.append entries :: outer).length = level + 1 := by
      rw [List.length_cons, hlevel]
    have hlines := ihBody hbody hinner .empty
    rw [Block.append_empty, Int.natCast_succ] at hlines
    -- The lines after the block come first, then its end, its entries, and the line with its key.
    rw [textLines, TextLine.block, List.map_append, List.foldr_append, ihRest hrest hlevel,
      List.cons_append, List.map_cons, List.map_append, List.foldr_cons, List.foldr_append,
      List.map_singleton, List.foldr_cons, List.foldr_nil, readLine_blockEnd, hlines,
      readLine_blockStart hlevel]
    rfl

theorem newline_notMem_text {line : TextLine} (h : ∀ part ∈ line.parts, '\n' ∉ part.toList) :
    '\n' ∉ (line.text indent).toList := by
  rw [TextLine.text, String.toList_append, String.toList_ofList, String.toList_join]
  intro hmem
  rcases List.mem_append.1 hmem with hspaces | hparts
  · have hspace := List.eq_of_mem_replicate hspaces
    exact absurd hspace (by decide)
  · obtain ⟨part, hpart, hmem⟩ := List.mem_flatMap.1 hparts
    exact h part hpart hmem

/-- No line of a legible sheet is broken. -/
theorem newline_notMem_of_isLegible {sheet : Sheet} (h : sheet.IsLegible) (level : Int) :
    ∀ line ∈ sheet.textLines level, '\n' ∉ (line.text indent).toList := by
  induction sheet generalizing level with
  | empty => exact List.forall_mem_nil _
  | declare key text rest ih =>
    obtain ⟨⟨hkey, htext, -⟩, hrest⟩ := h
    refine List.forall_mem_cons.2 ⟨newline_notMem_text ?_, ih hrest level⟩
    simp [TextLine.declaration, hkey, htext]
  | nest key body rest ihBody ihRest =>
    obtain ⟨hkey, hbody, hrest⟩ := h
    refine List.forall_mem_append.2 ⟨?_, ihRest hrest level⟩
    refine List.forall_mem_cons.2 ⟨newline_notMem_text ?_, ?_⟩
    · simp [hkey]
    · refine List.forall_mem_append.2 ⟨ihBody hbody (level + 1), ?_⟩
      exact List.forall_mem_singleton.2 (newline_notMem_text (by simp))

/-! ## Reading the text of a sheet -/

variable {sheet sheet' : Sheet} {text : String}

/-- A legible sheet is read from its text. -/
theorem read_of_format_eq_ok (hlegible : sheet.IsLegible)
    (h : format indent sheet.toValue = .ok text) : read indent text = sheet := by
  have hlevel : ([] : List Sheet).length = 0 := rfl
  have hlines : ((sheet.textLines 0).map fun line => (line.text indent).toList).foldr
      (readLine indent) [.empty] = [sheet.append .empty] :=
    foldr_readLine_textLines hlegible hlevel .empty
  rw [Block.append_empty] at hlines
  have htext := eq_intercalate_of_format_eq_ok h
  by_cases hempty : sheet.textLines 0 = []
  · -- The empty text has one line, and nothing is read from that.
    rw [hempty] at hlines htext
    subst htext
    exact congrArg (List.headD · .empty) hlines
  · have hsplit : text.toList.splitOn '\n' =
        (sheet.textLines 0).map fun line => (line.text indent).toList := by
      rw [htext, String.toList_intercalate, List.map_map]
      refine List.splitOn_intercalate '\n' ?_ (by simpa using hempty)
      intro line hline
      obtain ⟨line, hmem, rfl⟩ := List.mem_map.1 hline
      exact newline_notMem_of_isLegible hlegible 0 line hmem
    rw [read, hsplit, hlines]
    rfl

/-- Legible sheets with the same text are the same, with their keys in the same order at every
level, and the text can be read. -/
theorem eq_of_format_eq_ok (indent : Nat) {sheet sheet' : Sheet} {text : String}
    (hlegible : sheet.IsLegible) (hlegible' : sheet'.IsLegible)
    (h : format indent sheet.toValue = .ok text) (h' : format indent sheet'.toValue = .ok text) :
    sheet = sheet' ∧ read indent text = sheet := by
  have hread := read_of_format_eq_ok hlegible h
  have hread' := read_of_format_eq_ok hlegible' h'
  exact ⟨hread.symm.trans hread', hread⟩

/-- A sheet with keys and texts full of marks, with an empty key and an empty block. -/
def markedSheet : Sheet :=
  .nest "a: \x7b" (.declare ":" " \x7d;" (.nest "" .empty .empty)) (.declare "" " : \x7b" .empty)

theorem eq_of_format_eq_ok_markedSheet :
    format 0 markedSheet.toValue = .ok "a: \x7b \x7b\n::  \x7d;;\n \x7b\n\x7d\n\x7d\n:  : \x7b;" ∧
      read 0 "a: \x7b \x7b\n::  \x7d;;\n \x7b\n\x7d\n\x7d\n:  : \x7b;" = markedSheet := by
  have hlegible : markedSheet.IsLegible := by decide +kernel
  have hformat : format 0 markedSheet.toValue =
      .ok "a: \x7b \x7b\n::  \x7d;;\n \x7b\n\x7d\n\x7d\n:  : \x7b;" := by decide +kernel
  exact ⟨hformat, (eq_of_format_eq_ok 0 hlegible hlegible hformat hformat).2⟩

end Stylesheet.Sheet
