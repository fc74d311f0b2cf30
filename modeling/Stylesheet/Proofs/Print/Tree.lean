import Stylesheet.Proofs.Declaration.Spelled
import Stylesheet.Proofs.Print.TextLine
import Stylesheet.Proofs.Value.Written

/-!
# Printing a tree of mappings

A tree of mappings is printed line by line, a line for each of its leaves and two around each block.
If the texts of its leaves are known then the tree is printed as the sheet of these.

If a leaf is not printed then there is a fault among the lines.  Nothing after it is written, and so
the tree has no text.  The fault that is reported may be another one: a line before it for whose
spaces there is no room.

## Main definitions

* `Property.writtenD` — the text of a scalar.
* `Value.HasRoom` — trees for whose lines there is room.

## Main statements

* `format_of_spells` — a tree is printed as the sheet of its texts.
* `exists_format_iff_hasRoom` — a tree whose leaves are printed has a text exactly if there is room
  for its lines.
* `exists_format_eq_error_of_long` — a tree with a long integer has no text.
-/

namespace Stylesheet

namespace Property

/-- The text of a scalar, and the empty text if it is not printed. -/
def writtenD (v : Value) : String :=
  (written v).toOption.getD ""

theorem writtenD_of_written {v : Value} {text : String} (h : written v = .ok text) :
    writtenD v = text := by
  rw [writtenD, h]
  rfl

end Property

namespace Value

variable {entries : List (Value × Value)} {b : Block String Value}

/-- The integers of a tree are those among its leaves. -/
theorem entriesHaveShortIntegers_iff (h : Spells entries b) :
    entriesHaveShortIntegers entries = true ↔
      ∀ w ∈ b.leaves, ∀ v, w.value? = some v → v.hasShortIntegers = true := by
  induction h with
  | empty => simp [entriesHaveShortIntegers]
  | declare _ _ ih => simp [entriesHaveShortIntegers, hasShortIntegers, Block.leaves, ih]
  | nest _ _ ihBody ihRest =>
    simp [entriesHaveShortIntegers, hasShortIntegers, Block.leaves, ihBody, ihRest, or_imp,
      forall_and]

/-! ## The lines of a tree -/

/-- A tree whose leaves are printed has the lines of the sheet of their texts. -/
theorem entryTextLines?_of_spells (h : Spells entries b)
    (hwritten : ∀ w ∈ b.leaves, ∀ v, w.value? = some v → ∃ text, Property.written v = .ok text)
    (level : Int) :
    entryTextLines? level entries =
      some (Sheet.textLines level (b.mapValues Property.writtenD)) := by
  induction h generalizing level with
  | empty => rfl
  | @declare key value entries rest hleaf _ ih =>
    obtain ⟨hvalue, hrest⟩ := List.forall_mem_cons.1 hwritten
    obtain ⟨text, htext⟩ := hvalue value rfl
    rw [entryTextLines?, ih hrest, Block.mapValues, Property.writtenD_of_written htext, htext]
    simp only [hleaf, Bool.false_eq_true, if_false]
    rfl
  | @nest key kind inner entries body rest _ _ ihBody ihRest =>
    obtain ⟨hbody, hrest⟩ := List.forall_mem_append.1 hwritten
    rw [List.forall_mem_map] at hbody
    rw [entryTextLines?, ihRest hrest, Block.mapValues]
    simp only [isMapping, if_true, textLines?, ihBody hbody]
    rfl

theorem textLines?_of_spells (h : Spells entries b)
    (hwritten : ∀ w ∈ b.leaves, ∀ v, w.value? = some v → ∃ text, Property.written v = .ok text)
    (kind : MappingKind) :
    (mapping kind entries).textLines? 0 =
      some (Sheet.textLines 0 (b.mapValues Property.writtenD)) :=
  entryTextLines?_of_spells h hwritten 0

/-- The lines of a tree are made of texts. -/
theorem exists_textLine_of_mem_entryLines (h : Spells entries b) {level : Int} {line : Line}
    (hline : .ok line ∈ entryLines level entries) : ∃ t : TextLine, t.toLine = line := by
  induction h generalizing level with
  | empty => simp [entryLines] at hline
  | @declare key value entries rest hleaf _ ih =>
    simp only [entryLines, hleaf, Bool.false_eq_true, if_false, List.singleton_append,
      List.mem_cons] at hline
    rcases hline with hline | hline
    · rw [Line.declaration_text] at hline
      cases hwritten : Property.written value with
      | error fault =>
        rw [hwritten] at hline
        cases hline
      | ok text =>
        rw [hwritten] at hline
        obtain rfl := Except.ok.inj hline
        exact ⟨.declaration level key text, rfl⟩
    · exact ih hline
  | @nest key kind inner entries body rest _ _ ihBody ihRest =>
    simp only [entryLines, isMapping, if_true, lines, Line.block, List.mem_append, List.mem_cons,
      Except.ok.injEq, List.not_mem_nil, or_false] at hline
    rcases hline with ((rfl | hline) | rfl) | hline
    · exact ⟨⟨level, [key, " \x7b"]⟩, rfl⟩
    · exact ihBody hline
    · exact ⟨⟨level, ["\x7d"]⟩, rfl⟩
    · exact ihRest hline

/-- The faults among the lines of a tree are those of the leaves that are not printed. -/
theorem error_mem_entryLines_iff (h : Spells entries b) {level : Int} {fault : Fault} :
    .error fault ∈ entryLines level entries ↔
      ∃ w ∈ b.leaves, ∃ v, w.value? = some v ∧ Property.written v = .error fault := by
  induction h generalizing level with
  | empty => simp [entryLines]
  | @declare key value entries rest hleaf _ ih =>
    have hline : .error fault = Line.declaration level (.text key) value ↔
        Property.written value = .error fault := by
      rw [Line.declaration_text]
      cases Property.written value <;> simp [Except.map, eq_comm]
    simp [entryLines, hleaf, hline, ih, Block.leaves]
  | @nest key kind inner entries body rest _ _ ihBody ihRest =>
    simp [entryLines, isMapping, lines, Line.block, ihBody, ihRest, Block.leaves, or_and_right,
      exists_or]

/-- Whether there is room for the spaces in front of the lines of a tree. -/
def HasRoom (indent : Nat) (node : Value) : Prop :=
  ∀ line, .ok line ∈ node.lines 0 → ∃ spaces, Writer.padding indent line.level = .ok spaces

theorem hasRoom_iff {node : Value} {indent : Nat} {lines : List TextLine}
    (hlines : node.textLines? 0 = some lines) :
    node.HasRoom indent ↔ ∀ line ∈ lines, line.Fits indent := by
  rw [HasRoom, lines_eq_of_textLines? hlines]
  constructor
  · intro hroom line hline
    obtain ⟨spaces, hspaces⟩ := hroom line.toLine (List.mem_map_of_mem hline)
    by_contra hfits
    obtain ⟨fault, hfault, -⟩ := TextLine.exists_padding_eq_error hfits
    cases hfault.symm.trans hspaces
  · intro hfits line hline
    obtain ⟨t, ht, heq⟩ := List.mem_map.1 hline
    obtain rfl := Except.ok.inj heq
    exact ⟨_, TextLine.padding_eq_ok (hfits t ht)⟩

end Value

/-! ## The text of a tree -/

/-- Lines of texts with a fault among them are not all written.  What keeps them from it is the
fault, or a line for whose spaces there is no room. -/
theorem Writer.exists_run_putLines_of_mem {lines : List (Except Fault Line)} {fault : Fault}
    {w : Writer String} (htexts : ∀ line, .ok line ∈ lines → ∃ t : TextLine, t.toLine = line)
    (hfaults : ∀ fault', .error fault' ∈ lines → fault' = fault) (hmem : .error fault ∈ lines) :
    ∃ fault' w', (putLines lines).run.run w = (.error fault', w') ∧
      (fault' = fault ∨
        ∃ line, .ok line ∈ lines ∧ padding w.indent line.level = .error fault') := by
  induction lines generalizing w with
  | nil => cases hmem
  | cons first rest ih =>
    cases first with
    | error fault' => exact ⟨fault', w, rfl, .inl (hfaults fault' List.mem_cons_self)⟩
    | ok line =>
      obtain ⟨t, rfl⟩ := htexts line List.mem_cons_self
      have hrest : .error fault ∈ rest := (List.mem_cons.1 hmem).resolve_left nofun
      rw [run_putLines_cons, run_putLine]
      cases hpadding : padding w.indent t.level with
      | error fault' => exact ⟨fault', _, rfl, .inr ⟨t.toLine, List.mem_cons_self, hpadding⟩⟩
      | ok spaces =>
        obtain ⟨fault', w', hrun, hfault'⟩ :=
          ih (fun line hline => htexts line (List.mem_cons_of_mem _ hline))
            (fun fault' hmem' => hfaults fault' (List.mem_cons_of_mem _ hmem')) hrest
        refine ⟨fault', w', hrun, hfault'.imp_right ?_⟩
        rintro ⟨line, hline, hline'⟩
        exact ⟨line, List.mem_cons_of_mem _ hline, hline'⟩

variable {entries : List (Value × Value)} {b : Block String Value}

/-- A tree whose leaves are printed is printed as the sheet of their texts. -/
theorem format_of_spells (hspells : Value.Spells entries b)
    (hwritten : ∀ w ∈ b.leaves, ∀ v, w.value? = some v → ∃ text, Property.written v = .ok text)
    (kind : MappingKind) (indent : Nat) :
    format indent (.mapping kind entries) =
      format indent (Sheet.toValue (b.mapValues Property.writtenD)) := by
  have hlines : (Value.mapping kind entries).lines 0 =
      (Sheet.toValue (b.mapValues Property.writtenD)).lines 0 := by
    rw [Value.lines_eq_of_textLines? (Value.textLines?_of_spells hspells hwritten kind),
      Value.lines_eq_of_textLines? (Sheet.textLines?_toValue 0 _)]
  rw [format, format, Writer.perform, Writer.perform, hlines]

/-- A tree whose leaves are printed has a text exactly if there is room for its lines. -/
theorem exists_format_iff_hasRoom (hspells : Value.Spells entries b)
    (hwritten : ∀ w ∈ b.leaves, ∀ v, w.value? = some v → ∃ text, Property.written v = .ok text)
    (kind : MappingKind) (indent : Nat) :
    (∃ text, format indent (.mapping kind entries) = .ok text) ↔
      (Value.mapping kind entries).HasRoom indent := by
  rw [format_of_spells hspells hwritten, Sheet.exists_format_iff,
    Value.hasRoom_iff (Value.textLines?_of_spells hspells hwritten kind)]

/-- A tree with a long integer has no text. -/
theorem exists_format_eq_error_of_long (hspells : Value.Spells entries b)
    (hscalar : ∀ w ∈ b.leaves, ∀ v, w.value? = some v → v.isScalar = true)
    (hlong : ∃ w ∈ b.leaves, ∃ v, w.value? = some v ∧ v.hasShortIntegers = false)
    (kind : MappingKind) (indent : Nat) :
    ∃ fault, format indent (.mapping kind entries) = .error fault ∧
      (fault = .tooManyDigits ∨ ∃ line, .ok line ∈ (Value.mapping kind entries).lines 0 ∧
        Writer.padding indent line.level = .error fault) := by
  have hfaults : ∀ fault, .error fault ∈ Value.entryLines 0 entries → fault = .tooManyDigits := by
    intro fault hfault
    obtain ⟨w, hw, v, hv, hwritten⟩ := (Value.error_mem_entryLines_iff hspells).1 hfault
    exact Property.eq_tooManyDigits_of_written (hscalar w hw v hv) hwritten
  have hmem : .error .tooManyDigits ∈ Value.entryLines 0 entries := by
    obtain ⟨w, hw, v, hv, hlong⟩ := hlong
    exact (Value.error_mem_entryLines_iff hspells).2
      ⟨w, hw, v, hv, Property.written_of_long (hscalar w hw v hv) hlong⟩
  obtain ⟨fault, w', hrun, hreason⟩ := Writer.exists_run_putLines_of_mem (w := .new indent)
    (fun line hline => Value.exists_textLine_of_mem_entryLines hspells hline) hfaults hmem
  have hperform : (Writer.perform (.sheet (.mapping kind entries))).run.run (.new indent) =
      (Writer.putLines (Value.entryLines 0 entries)).run.run (.new indent : Writer String) := rfl
  exact ⟨fault, by rw [format, hperform, hrun], hreason⟩

end Stylesheet
