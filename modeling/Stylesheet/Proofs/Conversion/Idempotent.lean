import Stylesheet.Proofs.Conversion.Assemble
import Stylesheet.Proofs.Declaration.Spelled
import Stylesheet.Proofs.Property.Name
import Stylesheet.Proofs.Selector.Recompose

/-!
# Converting a finished sheet

A sheet is a rule tree as well.  Its declarations are the writes that it was built from, in the
order in which they stand in it; everything that a conversion does to them has been done before and
is not done again, so that they build the sheet once more.

## Main definitions

* `Declaration.ofWrite` — the declaration that a value of a sheet is.
* `Declaration.IsFinished` — writes that a conversion does not change any more.

## Main statements

* `Sheet.declarations_toValue` — the declarations of a sheet.
* `Conversion.assemble_leaves` — what they are assembled to.
* `Conversion.sheet_toValue` — converting the sheet of a tree gives the same sheet.
-/

namespace Stylesheet

open Selector (IsClean Repeatable)

namespace Declaration

/-- The declaration that a value of a sheet is. -/
def ofWrite (w : Block.Write String String) : Declaration :=
  ⟨w.path, w.key, .text (w.value?.getD "")⟩

/-- A write that a conversion does not change any more. -/
structure IsFinished (o : Options) (w : Block.Write String String) : Prop where
  clean : ∀ key ∈ w.place, IsClean key
  path : Selector.compose w.path = w.path
  key : Property.name o.isCustom w.key = w.key
  value : ∃ text, text ≠ "" ∧ w.value? = some text

variable {o : Options}

/-- What a leaf of a tree is converted to is finished. -/
theorem IsLeaf.isFinished_write {d : Declaration} (h : d.IsLeaf)
    (hfragments : ∀ fragment ∈ d.selector, Repeatable fragment) {result : Option String}
    (htext : d.composed.text? o = .ok result) : IsFinished o (d.composed.write o) := by
  refine ⟨?_, Selector.compose_compose h.selector hfragments, Property.name_name _ _, ?_⟩
  · intro key hkey
    rcases List.mem_append.1 hkey with hkey | hkey
    · exact Selector.isClean_of_mem_compose h.selector hfragments hkey
    · rw [List.mem_singleton.1 hkey]
      exact Property.isClean_name _ h.property
  · cases result with
    | none => exact absurd (Property.value_eq_ok_none_iff.1 htext) h.value
    | some text => exact ⟨text, Property.value_ne_empty htext, value?_write htext⟩

/-- Converting the declaration of a finished write gives the write again. -/
theorem IsFinished.write_ofWrite {w : Block.Write String String} (h : IsFinished o w) :
    (ofWrite w).composed.text? o = .ok w.value? ∧ (ofWrite w).composed.write o = w := by
  obtain ⟨text, htext, hvalue⟩ := h.value
  have hwritten : (ofWrite w).composed.text? o = .ok w.value? := by
    have htexts : (ofWrite w).composed.value = .text text := by
      simp [composed, ofWrite, hvalue]
    rw [text?, htexts, hvalue]
    exact Property.value_text htext
  refine ⟨hwritten, ?_⟩
  have hpath : ((ofWrite w).composed.write o).path = w.path := h.path
  have hkey : ((ofWrite w).composed.write o).key = w.key := h.key
  have hvalue? : ((ofWrite w).composed.write o).value? = w.value? := value?_write hwritten
  cases w
  simp_all [write]

end Declaration

/-! ## The declarations of a sheet -/

namespace Sheet

variable {σ : Type}

/-- The declarations of a sheet are its values, in the order in which they stand in it. -/
theorem declarations_toValue (caller : Caller σ) (o : Options) {sheet : Sheet}
    (h : sheet.IsProper) (hclean : ∀ w ∈ sheet.leaves, ∀ key ∈ w.place, IsClean key) :
    declarations caller o sheet.toValue = pure (sheet.leaves.map Declaration.ofWrite) := by
  have hleaves : (Block.mapValues Value.text sheet).leaves =
      sheet.leaves.map (Block.Write.mapValue Value.text) := Block.leaves_mapValues Value.text sheet
  have hspells : Value.Spells (Block.entries .text .text sheet)
      (Block.mapValues Value.text sheet) := Value.spells_entries (fun _ => rfl) sheet
  rw [toValue, Value.declarations_of_spells hspells (Block.isProper_mapValues h), hleaves,
    List.map_map]
  · congr 1
    refine List.map_congr_left fun w _ => ?_
    simp [Declaration.ofLeaf, Declaration.ofWrite, Block.Write.mapValue, Option.getD_map]
  · rw [hleaves, List.forall_mem_map]
    exact fun w hw key hkey => Selector.fragments_of_isClean (hclean w hw key hkey)
  · rw [hleaves, List.forall_mem_map]
    intro w _ v hv
    obtain ⟨text, -, rfl⟩ := Option.map_eq_some_iff.1 hv
    rfl

end Sheet

/-! ## Converting a sheet -/

namespace Conversion

variable {σ : Type} {caller : Caller σ} {o : Options}

/-- The sheet of a tree is proper, in the order that the options want, and finished. -/
theorem finished_of_assemble {ds : List Declaration} {sheet : Sheet} (hleaf : ∀ d ∈ ds, d.IsLeaf)
    (hfragments : ∀ d ∈ ds, ∀ fragment ∈ d.selector, Repeatable fragment)
    (h : assemble o ds = .ok sheet) :
    sheet.IsProper ∧ Sheet.arranged o sheet = sheet ∧
      ∀ w ∈ sheet.leaves, Declaration.IsFinished o w :=
  leaves_of_assemble hleaf
    (fun d hd _ htext => (hleaf d hd).isFinished_write (hfragments d hd) htext) h

/-- The values of a finished sheet are assembled to the sheet. -/
theorem assemble_leaves {sheet : Sheet} (h : sheet.IsProper)
    (harranged : Sheet.arranged o sheet = sheet)
    (hfinished : ∀ w ∈ sheet.leaves, Declaration.IsFinished o w) :
    assemble o (sheet.leaves.map Declaration.ofWrite) = .ok sheet := by
  have hwrites : ((sheet.leaves.map Declaration.ofWrite).map Declaration.composed).map
      (Declaration.write o) = sheet.leaves := by
    have hsame : ∀ w ∈ sheet.leaves, (Declaration.ofWrite w).composed.write o = id w :=
      fun w hw => (hfinished w hw).write_ofWrite.2
    rw [List.map_map, List.map_map]
    exact (List.map_congr_left hsame).trans (List.map_id _)
  have hbuilt : Sheet.ofDeclarations o
      ((sheet.leaves.map Declaration.ofWrite).map Declaration.composed) = .ok sheet := by
    refine Sheet.ofDeclarations_of_leaves h ?_ hwrites
    rw [List.forall_mem_map, List.forall_mem_map]
    exact fun w hw => ⟨w.value?, (hfinished w hw).write_ofWrite.1⟩
  rw [assemble, hbuilt]
  exact congrArg Except.ok harranged

theorem readOptions_toValue {reserved : List String} (o : Options) :
    readOptions reserved (some o.toValue) [] = .ok o := by
  simp [readOptions, Options.ofArguments, Options.ensure_toValue]

/-- Converting the sheet of a tree gives the same sheet: the same keys, texts and nested blocks, in
the same order at every level. -/
theorem sheet_toValue {rules : Value} {s : σ} {sheet : Sheet}
    (hkeeps : KeepsValues caller o rules s)
    (hfragments : ForallDeclarations caller o rules s fun _ d =>
      ∀ fragment ∈ d.selector, Repeatable fragment)
    (hsheet : ((Conversion.sheet caller rules (some o.toValue) []).run s).1.result = .ok sheet)
    (t : σ) :
    (Conversion.sheet caller sheet.toValue (some o.toValue) []).run t =
      (⟨.ok sheet, [.flattened sheet.leaves.length]⟩, t) := by
  obtain ⟨o', ds, s', ho, hdeclarations, hassemble⟩ := exists_of_sheet_eq_ok hsheet
  obtain rfl : o = o' := Except.ok.inj ((readOptions_toValue o).symm.trans ho)
  have hreread : ∀ d ∈ ds.map (Declaration.reread caller s'), ∀ fragment ∈ d.selector,
      Repeatable fragment := by
    rw [List.forall_mem_map]
    exact fun d hd => d.selector_reread ▸ hfragments ds s' hdeclarations d hd
  obtain ⟨hproper, harranged, hfinished⟩ :=
    finished_of_assemble (hkeeps.isLeaf_reread hdeclarations) hreread hassemble
  have hagain : declarations caller o sheet.toValue =
      pure (sheet.leaves.map Declaration.ofWrite) :=
    Sheet.declarations_toValue caller o hproper fun w hw => (hfinished w hw).clean
  have hresult : assemble o (sheet.leaves.map Declaration.ofWrite) = .ok sheet :=
    assemble_leaves hproper harranged hfinished
  have hrun : (declarations caller o sheet.toValue).run.run t =
      (.ok (sheet.leaves.map Declaration.ofWrite), t) := by
    rw [hagain]
    rfl
  -- The values of a sheet are texts, so they are the same when they are read again.
  have hsame : (sheet.leaves.map Declaration.ofWrite).map (Declaration.reread caller t) =
      sheet.leaves.map Declaration.ofWrite :=
    Declaration.map_reread_eq_self (List.forall_mem_map.2 fun _ _ => rfl)
  rw [Conversion.sheet, ho]
  refine (run_sheetWith sheet.toValue t).trans ?_
  simp only [hrun, hsame, hresult, List.length_map]
  rfl

/-- Rules with attached selectors, two media queries in one another and an empty text. -/
def nestedRules : Value :=
  .mapping .plain
    [(.text "b, i", .mapping .plain
        [(.text ".c", .mapping .plain [(.text "margin", .int 1), (.text "content", .text "")]),
         (.text "&:hover", .mapping .plain [(.text "color", .text "red")])]),
     (.text "@media screen", .mapping .plain
        [(.text "@media (min-width: 900px)", .mapping .plain
            [(.text "b", .mapping .plain [(.text "border", .int 0)])])])]

/-- The options that ask for sorting, and for nothing else. -/
def sortedOptions : Options := ⟨"px", true, 4, none, []⟩

/-- The sorted sheet of `nestedRules`. -/
def nestedSheet : Sheet :=
  let margins : Sheet := .declare "content" "''" (.declare "margin" "1px" .empty)
  let hovered : Sheet := .declare "color" "red" .empty
  .nest "b .c" margins (.nest "b:hover" hovered (.nest "i .c" margins (.nest "i:hover" hovered
    (.nest "@media screen and (min-width: 900px)" (.nest "b" (.declare "border" "0" .empty) .empty)
      .empty))))

theorem sheet_toValue_nested :
    ((Conversion.sheet Ledger.call nestedRules (some sortedOptions.toValue) []).run
        .empty).1.result = .ok nestedSheet ∧
      (Conversion.sheet Ledger.call nestedSheet.toValue (some sortedOptions.toValue) []).run
        .empty = (⟨.ok nestedSheet, [.flattened 7]⟩, .empty) :=
  have hkeeps : KeepsValues Ledger.call sortedOptions nestedRules .empty := by decide +kernel
  have hfragments : ForallDeclarations Ledger.call sortedOptions nestedRules .empty fun _ d =>
      ∀ fragment ∈ d.selector, Repeatable fragment := by
    decide +kernel
  have hsheet : ((Conversion.sheet Ledger.call nestedRules (some sortedOptions.toValue) []).run
      .empty).1.result = .ok nestedSheet := by
    decide +kernel
  ⟨hsheet, sheet_toValue hkeeps hfragments hsheet .empty⟩

/-- The computation of rules that are a media query without a condition from its second call on. -/
def takenInTurn : Ledger :=
  let declared : Value := .mapping .plain [(.text "b", .text "c")]
  .of #[.inTurn
    [.mapping .plain [(.text "a", declared)],
     .mapping .plain [(.text "@media", .mapping .plain
       [(.text "@media", .mapping .plain [(.text "a", declared)])])]]]

/-- The sheet of a tree is another one when it is converted again, if a list of the tree is emptied
before its value is read.  It may also be another one if the fragments are those that the tree had
when its declarations were found for the first time, and it is converted after that. -/
theorem not_forall_sheet_toValue :
    (¬ ∀ (o : Options) (rules : Value) (s t : Ledger) (sheet : Sheet),
      (ForallDeclarations Ledger.call o rules s fun _ d =>
        ∀ fragment ∈ d.selector, Repeatable fragment) →
      ((Conversion.sheet Ledger.call rules (some o.toValue) []).run s).1.result = .ok sheet →
      ((Conversion.sheet Ledger.call sheet.toValue (some o.toValue) []).run t).1.result =
        .ok sheet) ∧
    ¬ ∀ (o : Options) (rules : Value) (s t : Ledger) (sheet : Sheet),
      (ForallDeclarations Ledger.call o rules s fun _ d =>
        ∀ fragment ∈ d.selector, Repeatable fragment) →
      let s' := ((declarations Ledger.call o rules).run.run s).2
      KeepsValues Ledger.call o rules s' →
      ((Conversion.sheet Ledger.call rules (some o.toValue) []).run s').1.result = .ok sheet →
      ((Conversion.sheet Ledger.call sheet.toValue (some o.toValue) []).run t).1.result =
        .ok sheet := by
  let emptied : Sheet := .nest "a" .empty .empty
  let unconditioned : Sheet :=
    .nest "@media  and " (.nest "a" (.declare "b" "c" .empty) .empty) .empty
  constructor
  · intro h
    have hagain := h sortedOptions emptiedRules emptyingCall .empty emptied
      (by decide +kernel) (by decide +kernel)
    revert hagain
    decide +kernel
  · intro h
    have hagain := h sortedOptions (Ledger.entered 0) takenInTurn .empty unconditioned
      (by decide +kernel) (by decide +kernel) (by decide +kernel)
    revert hagain
    decide +kernel

end Conversion

end Stylesheet
