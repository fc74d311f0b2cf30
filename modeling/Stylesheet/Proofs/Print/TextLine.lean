import Stylesheet.Proofs.Print.Appending
import Stylesheet.Sheet

/-!
# Lines of texts

The lines of a sheet whose keys are texts and whose values have a written form are made of texts.
Such a line is written whole, unless there is no room for the spaces in front of it.

A writer that has written some lines holds them with newlines between them, and knows whether there
are any.  One line more keeps it that way, and so do any number of lines.

## Main definitions

* `TextLine` — a line of texts, with the level at which it stands.
* `TextLine.Fits`, `TextLine.text` — lines that can be written, and what is written for them.
* `Value.textLines?`, `Sheet.textLines` — the lines of a sheet that is given as a value, and of one
  that is none.
* `Writer.Holds` — writers that have written some lines.
* `Writer.Adds` — runs that write some lines more.

## Main statements

* `Value.lines_eq_of_textLines?` — what is printed for a sheet is its lines of texts.
* `Writer.adds_putLine`, `Writer.adds_putLines` — one line more, and several.
* `format_eq_ok`, `exists_format_eq_error` — the text of a sheet that is given as a value.
* `Sheet.exists_format_iff` — which sheets have a text.
-/

namespace Stylesheet

/-- A line of texts: the level at which it stands, and the texts that are written one after the
other. -/
structure TextLine where
  level : Int
  parts : List String
  deriving DecidableEq, Repr

namespace TextLine

variable {indent : Nat} {line : TextLine}

/-- The line as a writer is asked for it. -/
def toLine (line : TextLine) : Line :=
  ⟨line.level, line.parts.map .text⟩

/-- The line of a declaration. -/
def declaration (level : Int) (key text : String) : TextLine :=
  ⟨level, [key, ": ", text, ";"]⟩

/-- The lines of a block, around those of its body. -/
def block (level : Int) (key : String) (body : List TextLine) : List TextLine :=
  ⟨level, [key, " \x7b"]⟩ :: body ++ [⟨level, ["\x7d"]⟩]

/-- The number of spaces in front of the line, if it is not negative. -/
def width (indent : Nat) (line : TextLine) : Int :=
  line.level * indent

/-- Whether there is room for the spaces in front of the line. -/
def Fits (indent : Nat) (line : TextLine) : Prop :=
  -Writer.lengthLimit ≤ line.width indent ∧ line.width indent < Writer.memoryLimit

instance : Decidable (line.Fits indent) :=
  inferInstanceAs (Decidable (_ ∧ _))

/-- The text of the line: spaces for its level, of which there are none at a negative one, and its
parts. -/
def text (indent : Nat) (line : TextLine) : String :=
  String.ofList (List.replicate (line.width indent).toNat ' ') ++ String.join line.parts

theorem padding_eq_ok (h : line.Fits indent) :
    Writer.padding indent line.level =
      .ok (String.ofList (List.replicate (line.width indent).toNat ' ')) := by
  obtain ⟨hlow, hhigh⟩ := h
  have hlimits : Writer.memoryLimit < Writer.lengthLimit := by decide
  unfold width at hlow hhigh
  unfold Writer.padding width
  rw [if_neg (by omega), if_neg (by omega)]

end TextLine

/-- Whether a text was too long to be held. -/
def Fault.isTooLong : Fault → Bool
  | tooLarge | outOfMemory => true
  | _ => false

theorem TextLine.exists_padding_eq_error {indent : Nat} {line : TextLine}
    (h : ¬ line.Fits indent) :
    ∃ fault, Writer.padding indent line.level = .error fault ∧ fault.isTooLong = true := by
  unfold Fits width at h
  unfold Writer.padding
  dsimp only
  split
  · exact ⟨.tooLarge, rfl, rfl⟩
  · split
    · exact ⟨.outOfMemory, rfl, rfl⟩
    · omega

/-! ## The lines of a sheet -/

namespace Value

mutual

/-- The lines of a sheet at a level, if all keys are texts and all values have a written form.  Only
a mapping has lines. -/
def textLines? (level : Int) : Value → Option (List TextLine)
  | mapping _ entries => entryTextLines? level entries
  | _ => Option.none

/-- The lines of the entries of a mapping: mappings among the values are blocks. -/
def entryTextLines? (level : Int) : List (Value × Value) → Option (List TextLine)
  | [] => some []
  | (.text key, value) :: rest =>
    (if value.isMapping then TextLine.block level key <$> textLines? (level + 1) value
     else (fun text => [TextLine.declaration level key text]) <$>
      (Property.written value).toOption).bind fun first =>
        (first ++ ·) <$> entryTextLines? level rest
  | _ => Option.none

end

end Value

namespace Line

/-- The line of a declaration under a text. -/
theorem declaration_text (level : Int) (key : String) (value : Value) :
    declaration level (.text key) value =
      (Property.written value).map fun text => (TextLine.declaration level key text).toLine := by
  rw [declaration]
  cases Property.written value <;> rfl

/-- The line of a declaration whose value has a written form. -/
theorem declaration_eq_ok {level : Int} {key text : String} {value : Value}
    (h : (Property.written value).toOption = some text) :
    declaration level (.text key) value = .ok (TextLine.declaration level key text).toLine := by
  rw [declaration_text]
  cases hwritten : Property.written value with
  | error fault =>
    rw [hwritten] at h
    cases h
  | ok text' =>
    rw [hwritten] at h
    obtain rfl := Option.some.inj h
    rfl

theorem block_map_toLine (level : Int) (key : String) (body : List TextLine) :
    block level (.text key) (body.map fun line => .ok line.toLine) =
      (TextLine.block level key body).map fun line => .ok line.toLine := by
  rw [block, TextLine.block, List.map_append, List.map_cons]
  rfl

end Line

namespace Value

mutual

/-- What is printed for a sheet is its lines of texts. -/
theorem lines_eq_of_textLines? {level : Int} {lines : List TextLine} {value : Value}
    (h : value.textLines? level = some lines) :
    value.lines level = lines.map fun line => .ok line.toLine := by
  cases value with
  | mapping kind entries => exact entryLines_eq_of_textLines? h
  | _ => cases h

theorem entryLines_eq_of_textLines? {level : Int} {lines : List TextLine} :
    ∀ {entries : List (Value × Value)}, entryTextLines? level entries = some lines →
      entryLines level entries = lines.map fun line => .ok line.toLine
  | [], h => by
    obtain rfl := Option.some.inj h
    rfl
  | (key, value) :: rest, h => by
    cases key with
    | text key =>
      obtain ⟨first, hfirst, h⟩ := Option.bind_eq_some_iff.1 h
      obtain ⟨others, hothers, rfl⟩ := Option.map_eq_some_iff.1 h
      rw [entryLines, entryLines_eq_of_textLines? hothers, List.map_append]
      congr 1
      split at hfirst
      · next hmapping =>
        obtain ⟨body, hbody, rfl⟩ := Option.map_eq_some_iff.1 hfirst
        rw [if_pos hmapping, lines_eq_of_textLines? hbody, Line.block_map_toLine]
      · next hmapping =>
        obtain ⟨text, htext, rfl⟩ := Option.map_eq_some_iff.1 hfirst
        rw [if_neg hmapping, Line.declaration_eq_ok htext]
        rfl
    | _ => cases h

end

end Value

/-! ## What a writer does with lines of texts -/

namespace Writer

variable {indent : Nat} {line : TextLine} {lines : List TextLine}

theorem run_startLine (w : Writer String) :
    startLine.run.run w =
      (.ok (), ⟨w.indent, true, w.out ++ if w.started then "\n" else ""⟩) := by
  obtain ⟨indent, started, out⟩ := w
  cases started with
  | false =>
    have hout : out = out ++ "" := String.append_empty.symm
    exact congrArg (fun out => (Except.ok (), Writer.mk indent true out)) hout
  | true => rfl

theorem run_putValues_texts (parts : List String) (w : Writer String) :
    (putValues (parts.map .text)).run.run w =
      (.ok (), { w with out := w.out ++ String.join parts }) := by
  induction parts generalizing w with
  | nil =>
    have hout : w.out = w.out ++ "" := String.append_empty.symm
    exact congrArg (fun out => (Except.ok (), Writer.mk w.indent w.started out)) hout
  | cons part rest ih =>
    have hpart : (putValue (.text part)).run.run w =
        (.ok (), { w with out := w.out ++ part }) := rfl
    rw [List.map_cons, putValues, Run.run_bind, hpart, String.join_cons, ← String.append_assoc]
    exact ih _

/-- A line is started, and written if there is room for the spaces in front of it. -/
theorem run_putLine (line : TextLine) (w : Writer String) :
    (putLine line.toLine).run.run w =
      let started := w.out ++ if w.started then "\n" else ""
      match padding w.indent line.level with
      | .ok spaces => (.ok (), ⟨w.indent, true, started ++ spaces ++ String.join line.parts⟩)
      | .error fault => (.error fault, ⟨w.indent, true, started⟩) := by
  have hpadded : ∀ w : Writer String,
      (Run.ofExcept (padding w.indent line.level) >>= fun spaces => putText spaces >>= fun _ =>
        putValues (line.parts.map .text)).run.run w =
      match padding w.indent line.level with
      | .ok spaces => (.ok (), { w with out := w.out ++ spaces ++ String.join line.parts })
      | .error fault => (.error fault, w) := by
    intro w
    rw [Run.run_bind, Run.run_ofExcept]
    cases padding w.indent line.level with
    | error fault => rfl
    | ok spaces => exact run_putValues_texts line.parts _
  rw [putLine, Run.run_bind, run_startLine]
  exact hpadded _

theorem run_putLines_cons (line : Line) (rest : List (Except Fault Line)) (w : Writer String) :
    (putLines (.ok line :: rest)).run.run w =
      match (putLine line).run.run w with
      | (.ok _, w') => (putLines rest).run.run w'
      | (.error fault, w') => (.error fault, w') := by
  have hcons : (putLines (.ok line :: rest) : Run (Writer String) Unit) =
      (Run.ofExcept (.ok line) >>= putLine) >>= fun _ => putLines rest := rfl
  rw [hcons, Run.run_bind, Run.run_bind, Run.run_ofExcept]
  dsimp only
  rcases (putLine line).run.run w with ⟨_ | _, _⟩ <;> rfl

/-- A writer that has added some lines to a text. -/
structure Holds (indent : Nat) (base : String) (written : List String) (w : Writer String) :
    Prop where
  indent : w.indent = indent
  started : w.started = !written.isEmpty
  out : w.out = base ++ "\n".intercalate written

/-- A run that succeeds, and adds lines to those that a writer holds. -/
def Adds (run : Run (Writer String) Unit) (indent : Nat) (lines : List TextLine) : Prop :=
  ∀ base written w, Holds indent base written w → ∃ w', run.run.run w = (.ok (), w') ∧
    w'.Holds indent base (written ++ lines.map (TextLine.text indent))

/-- A line more is separated from the ones before it, if there are any. -/
theorem Holds.out_concat {base : String} {written : List String} {w : Writer String}
    (h : Holds indent base written w) (line : String) :
    (w.out ++ if w.started then "\n" else "") ++ line =
      base ++ "\n".intercalate (written ++ [line]) := by
  rw [h.out, h.started]
  cases written with
  | nil => simp
  | cons first rest =>
    rw [String.intercalate_append_of_ne_nil (List.cons_ne_nil _ _) (List.cons_ne_nil _ _),
      String.intercalate_singleton]
    simp [String.append_assoc]

theorem adds_putLine (h : line.Fits indent) : Adds (putLine line.toLine) indent [line] := by
  intro base written w hw
  rw [run_putLine, hw.indent, TextLine.padding_eq_ok h]
  refine ⟨_, rfl, rfl, by simp, ?_⟩
  rw [List.map_singleton, ← hw.out_concat, TextLine.text, String.append_assoc]

theorem adds_putLines (h : ∀ line ∈ lines, line.Fits indent) :
    Adds (putLines (lines.map fun line => .ok line.toLine)) indent lines := by
  induction lines with
  | nil =>
    intro base written w hw
    exact ⟨w, rfl, by simpa using hw⟩
  | cons line rest ih =>
    obtain ⟨hline, hrest⟩ := List.forall_mem_cons.1 h
    intro base written w hw
    obtain ⟨w₁, hrun₁, hw₁⟩ := adds_putLine hline base written w hw
    obtain ⟨w₂, hrun₂, hw₂⟩ := ih hrest base _ w₁ hw₁
    refine ⟨w₂, ?_, by simpa using hw₂⟩
    rw [List.map_cons, run_putLines_cons, hrun₁]
    exact hrun₂

/-- A line that there is no room for is a fault. -/
theorem exists_run_putLines_eq_error {w : Writer String}
    (h : ∃ line ∈ lines, ¬ line.Fits w.indent) :
    ∃ fault w', (putLines (lines.map fun line => .ok line.toLine)).run.run w = (.error fault, w') ∧
      fault.isTooLong = true := by
  induction lines generalizing w with
  | nil => simp at h
  | cons line rest ih =>
    rw [List.map_cons, run_putLines_cons, run_putLine]
    by_cases hline : line.Fits w.indent
    · rw [TextLine.padding_eq_ok hline]
      refine ih ?_
      obtain ⟨other, hother, hnot⟩ := h
      rcases List.mem_cons.1 hother with rfl | hrest
      · exact absurd hline hnot
      · exact ⟨other, hrest, hnot⟩
    · obtain ⟨fault, hpadding, hfault⟩ := TextLine.exists_padding_eq_error hline
      rw [hpadding]
      exact ⟨fault, _, rfl, hfault⟩

/-- A sheet is written as its lines, after whatever has been written before. -/
theorem holds_sheet {node : Value} (hlines : node.textLines? 0 = some lines)
    (hfits : ∀ line ∈ lines, line.Fits indent) {w : Writer String} (hindent : w.indent = indent) :
    ∃ w', (perform (.sheet node)).run.run w = (.ok (), w') ∧
      w'.Holds indent w.out (lines.map (TextLine.text indent)) := by
  have hstart : Holds indent w.out [] { w with started := false } :=
    ⟨hindent, rfl, String.append_empty.symm⟩
  have hrun : (perform (.sheet node)).run.run w =
      (putLines (node.lines 0)).run.run { w with started := false } := rfl
  rw [hrun, Value.lines_eq_of_textLines? hlines]
  exact adds_putLines hfits _ _ _ hstart

end Writer

/-! ## The text of a sheet -/

variable {indent : Nat} {node : Value} {lines : List TextLine}

/-- The text of a sheet is that of its lines, with newlines between them. -/
theorem format_eq_ok (hlines : node.textLines? 0 = some lines)
    (hfits : ∀ line ∈ lines, line.Fits indent) :
    format indent node = .ok ("\n".intercalate (lines.map (TextLine.text indent))) := by
  obtain ⟨w, hrun, hw⟩ := Writer.holds_sheet hlines hfits (w := .new indent) rfl
  rw [format, hrun]
  exact congrArg Except.ok (hw.out.trans String.empty_append)

/-- A sheet has no text if there is no room for one of its lines. -/
theorem exists_format_eq_error (hlines : node.textLines? 0 = some lines)
    (h : ∃ line ∈ lines, ¬ line.Fits indent) :
    ∃ fault, format indent node = .error fault ∧ fault.isTooLong = true := by
  have hrun : (Writer.perform (.sheet node)).run.run (.new indent : Writer String) =
      (Writer.putLines (node.lines 0)).run.run (.new indent) := rfl
  obtain ⟨fault, w, herror, hfault⟩ :=
    Writer.exists_run_putLines_eq_error (w := (.new indent : Writer String)) h
  refine ⟨fault, ?_, hfault⟩
  rw [format, hrun, Value.lines_eq_of_textLines? hlines, herror]

/-! ## Sheets that are not given as values -/

namespace Sheet

/-- The lines of a sheet at a level. -/
def textLines (level : Int) : Sheet → List TextLine
  | .empty => []
  | .declare key text rest => TextLine.declaration level key text :: textLines level rest
  | .nest key body rest =>
    TextLine.block level key (textLines (level + 1) body) ++ textLines level rest

theorem entryTextLines?_entries (level : Int) (sheet : Sheet) :
    Value.entryTextLines? level (Block.entries .text .text sheet) =
      some (sheet.textLines level) := by
  induction sheet generalizing level with
  | empty => rfl
  | declare key text rest ih =>
    rw [Block.entries, Value.entryTextLines?, ih]
    rfl
  | nest key body rest ihBody ihRest =>
    rw [Block.entries, Value.entryTextLines?, ihRest]
    simp only [Value.isMapping, if_true, Value.textLines?, ihBody]
    rfl

/-- Every sheet has lines. -/
theorem textLines?_toValue (level : Int) (sheet : Sheet) :
    sheet.toValue.textLines? level = some (sheet.textLines level) :=
  sheet.entryTextLines?_entries level

/-- A sheet has a text exactly if there is room for its lines. -/
theorem exists_format_iff {indent : Nat} {sheet : Sheet} :
    (∃ text, format indent sheet.toValue = .ok text) ↔
      ∀ line ∈ sheet.textLines 0, line.Fits indent := by
  constructor
  · rintro ⟨text, htext⟩ line hline
    by_cases hfit : line.Fits indent
    · exact hfit
    · obtain ⟨fault, hfault, -⟩ :=
        exists_format_eq_error (sheet.textLines?_toValue 0) ⟨line, hline, hfit⟩
      rw [hfault] at htext
      cases htext
  · intro hfits
    exact ⟨_, format_eq_ok (sheet.textLines?_toValue 0) hfits⟩

/-- The text of a sheet is that of its lines. -/
theorem eq_intercalate_of_format_eq_ok {indent : Nat} {sheet : Sheet} {text : String}
    (h : format indent sheet.toValue = .ok text) :
    text = "\n".intercalate ((sheet.textLines 0).map (TextLine.text indent)) := by
  rw [format_eq_ok (sheet.textLines?_toValue 0) (exists_format_iff.1 ⟨text, h⟩)] at h
  exact (Except.ok.inj h).symm

end Sheet

end Stylesheet
