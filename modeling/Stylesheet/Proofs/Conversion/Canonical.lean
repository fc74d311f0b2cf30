import Stylesheet.Proofs.Conversion.Assemble
import Stylesheet.Proofs.Property.Name
import Stylesheet.Proofs.Selector.Recompose
import Stylesheet.Proofs.Sheet.CanonicalOrder

/-!
# The form of finished sheets

Every sheet that a conversion gives has the same form, whatever the tree and the options are.  No
text and no key of a block in it is empty, blocks stand under selectors, only rules have blocks
nested in them, and the names of properties are spelled with dashes.  No block in it is empty
either, unless a computation empties a list that has been found before.

The form is a property of values, since that is what a sheet is to its users.  It follows from what
stands at the places of the sheet: every block stands on the path of a write, and every text has
been written.

## Main definitions

* `Property.IsSpelled` — names as they are spelled in a sheet.
* `Value.IsCanonical` — the form of a finished sheet.
* `Value.IsFilled` — sheets in which no block is empty.
* `Sheet.IsFormed` — what the form asks of the places of a sheet.

## Main statements

* `Selector.isRule_of_mem_dropLast_compose` — only the last of composed selectors is not a rule.
* `Sheet.isFormed_ofWrites` — the form of a sheet, from its writes.
* `Sheet.IsFormed.isCanonical_toValue` — the form of a sheet as a value.
* `Conversion.isCanonical_of_sheet_eq_ok` — the form of all sheets that conversions give.
-/

namespace Stylesheet

/-! ## The form -/

/-- A name as it is spelled in a sheet.  Only names that start with a dash, which are taken as they
are given, may have underscores and capital letters. -/
def Property.IsSpelled (name : String) : Prop :=
  name.toList.head? ≠ some '-' → '_' ∉ name.toList ∧ ∀ c ∈ name.toList, c.isUpper = false

namespace Value

mutual

/-- What stands under a key of a finished sheet: a text under the name of a property, or a block
under a selector, which has blocks nested in it only if the selector is a rule. -/
def IsCanonicalUnder (key : String) : Value → Prop
  | text s => s ≠ "" ∧ Property.IsSpelled key
  | mapping .plain body =>
    key ≠ "" ∧ ((∃ entry ∈ body, entry.2.isMapping) → Selector.isRule key) ∧ AreCanonical body
  | _ => False

/-- The entries of a finished sheet, or of a block of it.  No key is used twice. -/
def AreCanonical : List (Value × Value) → Prop
  | [] => True
  | (text key, value) :: rest =>
    text key ∉ rest.map Prod.fst ∧ IsCanonicalUnder key value ∧ AreCanonical rest
  | _ => False

end

/-- A finished sheet. -/
def IsCanonical : Value → Prop
  | mapping .plain entries => AreCanonical entries
  | _ => False

mutual

/-- Whether a value is no block, or one that is not empty and has no empty block nested in it. -/
def IsFilledBlock : Value → Prop
  | mapping _ body => body ≠ [] ∧ AreFilled body
  | _ => True

/-- Whether no block that is nested in entries is empty, at any level. -/
def AreFilled : List (Value × Value) → Prop
  | [] => True
  | (_, value) :: rest => IsFilledBlock value ∧ AreFilled rest

end

/-- A sheet in which no block is empty. -/
def IsFilled : Value → Prop
  | mapping _ entries => AreFilled entries
  | _ => False

end Value

/-- A path of blocks in a finished sheet. -/
structure Sheet.IsBlockPath (p : List String) : Prop where
  nonempty : ∀ key ∈ p, key ≠ ""
  rules : ∀ key ∈ p.dropLast, Selector.isRule key = true

/-- A text of a finished sheet and the name that it stands under. -/
structure Sheet.IsText (key text : String) : Prop where
  nonempty : text ≠ ""
  spelled : Property.IsSpelled key

/-- What the form asks of the places of a sheet. -/
structure Sheet.IsFormed (sheet : Sheet) : Prop where
  distinct : sheet.HasDistinctKeys
  path : ∀ p, sheet.HasBlock p → IsBlockPath p
  text : ∀ p key text, sheet.at? (p ++ [key]) = some (.value text) → IsText key text

/-- A write to a finished sheet. -/
structure Block.Write.IsCanonical (w : Block.Write String String) : Prop where
  path : Sheet.IsBlockPath w.path
  text : ∀ text, w.value? = some text → Sheet.IsText w.key text

/-! ## What is written -/

/-- The name of a property is spelled as names are. -/
theorem Property.isSpelled_name (isCustom : String → Bool) (key : String) :
    IsSpelled (name isCustom key) := by
  unfold name
  split
  · next hdash => exact fun hname => absurd hdash hname
  · split
    · exact fun hname => absurd (by simp) hname
    · refine fun _ => ⟨underscore_notMem_cssName key, fun c hc => ?_⟩
      rw [cssName, String.toList_ofList] at hc
      exact Text.isUpper_eq_false_of_isFinal (Text.isFinal_of_mem_lower hc)

namespace Selector

theorem ne_empty_of_mem_compose {path : List String} {s : String} (h : s ∈ compose path) :
    s ≠ "" := by
  simpa using (List.mem_filter.1 h).2

/-- Of composed selectors, only the last one may be none of a rule. -/
theorem isRule_of_mem_dropLast_compose {path : List String} {s : String}
    (h : s ∈ (compose path).dropLast) : isRule s = true := by
  have hcompose : compose path = mediaSelectors (queries path) ++ atRules path ++ mergedPart path :=
    compose_eq_append path
  have hrules : ∀ s ∈ mediaSelectors (queries path) ++ atRules path, isRule s = true :=
    fun s hs => (List.mem_append.1 hs).elim isRule_of_mem_mediaSelectors isRule_of_mem_atRules
  have hlength : (mergedPart path).length ≤ 1 := List.length_filter_le _ _
  rw [hcompose] at h
  rcases hmerged : mergedPart path with _ | ⟨m, _ | ⟨m', rest⟩⟩
  · rw [hmerged, List.append_nil] at h
    exact hrules s (List.dropLast_subset _ h)
  · rw [hmerged, List.dropLast_concat] at h
    exact hrules s h
  · simp [hmerged] at hlength

end Selector

/-- What a declaration writes has the form of a finished sheet. -/
theorem Declaration.isCanonical_write {o : Options} {d : Declaration} {result : Option String}
    (htext : d.composed.text? o = .ok result) : (d.composed.write o).IsCanonical where
  path :=
    ⟨fun _ => Selector.ne_empty_of_mem_compose, fun _ => Selector.isRule_of_mem_dropLast_compose⟩
  text text hvalue := by
    rw [value?_write htext] at hvalue
    subst hvalue
    exact ⟨Property.value_ne_empty htext, Property.isSpelled_name _ _⟩

/-! ## The sheet that is written -/

namespace Sheet

/-- A path that goes less far is a path of blocks too. -/
theorem IsBlockPath.of_prefix {p path : List String} (h : IsBlockPath path) (hp : p <+: path) :
    IsBlockPath p where
  nonempty key hkey := h.nonempty key (hp.subset hkey)
  rules key hkey := by
    obtain ⟨rest, rfl⟩ := hp
    refine h.rules key ?_
    rcases eq_or_ne rest [] with rfl | hrest
    · rwa [List.append_nil]
    · rw [List.dropLast_append_of_ne_nil hrest]
      exact List.mem_append_left _ (List.dropLast_subset _ hkey)

variable {sheet body : Sheet}

/-- Writes of the form build a sheet of the form. -/
theorem isFormed_ofWrites {ws : List (Block.Write String String)}
    (h : Block.ofWrites ws = .ok sheet) (hws : ∀ w ∈ ws, w.IsCanonical) : sheet.IsFormed where
  distinct := Block.hasDistinctKeys_ofWrites h
  path p hblock := by
    rcases (Block.hasBlock_ofWrites_iff h p).1 hblock with rfl | ⟨w, hw, hp⟩
    · exact ⟨nofun, nofun⟩
    · exact (hws w hw).path.of_prefix hp
  text p key text hvalue := by
    rw [Block.at?_ofWrites_eq_value_iff h] at hvalue
    obtain ⟨w, hlast, htext⟩ := Option.bind_eq_some_iff.1 hvalue
    obtain ⟨hw, hassigns⟩ := List.mem_filter.1 (List.mem_of_getLast? hlast)
    have hplace : w.place = p ++ [key] := (of_decide_eq_true hassigns).2
    obtain ⟨-, hkey⟩ := List.append_inj' hplace rfl
    obtain rfl : w.key = key := List.singleton_injective hkey
    exact (hws w hw).text text htext

/-- Sorting keeps the form. -/
theorem IsFormed.sorted (h : sheet.IsFormed) : IsFormed sheet.sorted where
  distinct := h.distinct.sorted
  path p hblock := h.path p (((Block.sameContents_sorted sheet).block_iff p).2 hblock)
  text p key text hvalue :=
    h.text p key text (((Block.sameContents_sorted sheet).value_iff _ _).2 hvalue)

theorem IsFormed.arranged (h : sheet.IsFormed) (o : Options) : IsFormed (arranged o sheet) := by
  unfold Sheet.arranged
  split
  · exact h.sorted
  · exact h

/-- What stands in a nested block stands further up in the sheet around it. -/
theorem IsFormed.of_find? (h : sheet.IsFormed) {key : String}
    (hfind : sheet.find? key = some (.block body)) : body.IsFormed where
  distinct := h.distinct.of_find? hfind
  path p hblock := by
    have hunder : sheet.HasBlock (key :: p) := by
      simpa [Block.HasBlock, Block.at?_cons, hfind] using hblock
    refine ⟨fun k hk => (h.path _ hunder).nonempty k (List.mem_cons_of_mem _ hk), fun k hk => ?_⟩
    refine (h.path _ hunder).rules k ?_
    rw [List.dropLast_cons_of_ne_nil (List.ne_nil_of_mem (List.dropLast_subset _ hk))]
    exact List.mem_cons_of_mem _ hk
  text p k text hvalue :=
    h.text (key :: p) k text (by simpa [Block.at?_cons, hfind] using hvalue)

/-! ## The sheet as a value -/

theorem map_fst_entries (sheet : Sheet) :
    (Block.entries Value.text Value.text sheet).map Prod.fst = sheet.keys.map Value.text := by
  induction sheet using Block.entry_induction with
  | empty => rfl
  | entry key item rest ih => simp [Block.entries_entry, ih]

/-- Entries have the form if no key is used twice and every item has the form. -/
theorem areCanonical_entries (h : sheet.keys.Nodup)
    (hitems : ∀ key item, sheet.find? key = some item → item.toValue.IsCanonicalUnder key) :
    Value.AreCanonical (Block.entries .text .text sheet) := by
  induction sheet using Block.entry_induction with
  | empty => trivial
  | entry key item rest ih =>
    rw [Block.keys_entry, List.nodup_cons] at h
    obtain ⟨hkey, hrest⟩ := h
    rw [Block.entries_entry]
    refine ⟨?_, hitems key item (by simp), ih hrest fun k item' hfind => hitems k item' ?_⟩
    · simpa [map_fst_entries] using hkey
    · have hne : key ≠ k := by
        rintro rfl
        rw [Block.find?_eq_none_iff.2 hkey] at hfind
        cases hfind
      rwa [Block.find?_entry, if_neg hne]

/-- A sheet whose places have the form has it as a value. -/
theorem IsFormed.isCanonical_toValue (h : sheet.IsFormed) : sheet.toValue.IsCanonical := by
  induction sheet using Block.nested_induction with
  | nested sheet ih =>
    refine areCanonical_entries h.distinct.nodup fun key item hfind => ?_
    cases item with
    | value text =>
      have htext : IsText key text := h.text [] key text hfind
      exact ⟨htext.nonempty, htext.spelled⟩
    | block body =>
      have hbody : IsFormed body := h.of_find? hfind
      refine ⟨(h.path [key] ⟨body, hfind⟩).nonempty key (by simp), ?_, ih key body hfind hbody⟩
      -- A block nested in the block stands two keys deep, and the first one is that of a rule.
      rintro ⟨entry, hentry, hmapping⟩
      obtain ⟨k, item, hnested, rfl⟩ := (Block.mem_entries_iff hbody.distinct.nodup).1 hentry
      cases item with
      | value text => cases hmapping
      | block inner =>
        have hdeep : sheet.HasBlock [key, k] := ⟨inner, by simp [Block.at?_cons, hfind, hnested]⟩
        exact (h.path _ hdeep).rules key (by simp)

/-- A proper sheet has no empty block. -/
theorem isFilled_toValue (h : sheet.IsProper) : sheet.toValue.IsFilled := by
  change Value.AreFilled (Block.entries .text .text sheet)
  induction sheet with
  | empty => trivial
  | declare key a rest ih => exact ⟨trivial, ih h.2⟩
  | nest key body rest ihBody ihRest =>
    obtain ⟨-, ⟨hne, hbody⟩, hrest⟩ := h
    have hentries : Block.entries Value.text Value.text body ≠ [] := by
      cases body <;> simp_all [Block.entries]
    exact ⟨⟨hentries, ihBody hbody⟩, ihRest hrest⟩

end Sheet

namespace Conversion

variable {σ : Type} {caller : Caller σ}

/-- The sheet of declarations has the form of a finished sheet. -/
theorem isFormed_of_assemble {o : Options} {ds : List Declaration} {sheet : Sheet}
    (h : assemble o ds = .ok sheet) : sheet.IsFormed := by
  obtain ⟨built, hbuilt, rfl⟩ := exists_of_assemble_eq_ok h
  obtain ⟨htext, hrun⟩ := Sheet.ofDeclarations_eq_ok_iff.1 hbuilt
  refine Sheet.IsFormed.arranged (Sheet.isFormed_ofWrites hrun fun w hw => ?_) o
  obtain ⟨d', hd', rfl⟩ := List.mem_map.1 hw
  obtain ⟨result, hresult⟩ := htext d' hd'
  obtain ⟨d, -, rfl⟩ := List.mem_map.1 hd'
  exact d.isCanonical_write hresult

/-- Every sheet that a conversion gives has the form of a finished sheet.  No block in it is empty
either, if no list is emptied between being found and being written. -/
theorem isCanonical_of_sheet_eq_ok {rules : Value} {given : Option Value}
    {keywords : List (String × Value)} {s : σ} {sheet : Sheet}
    (h : ((Conversion.sheet caller rules given keywords).run s).1.result = .ok sheet) :
    sheet.toValue.IsCanonical ∧
      ((∀ o, readOptions ["rules"] given keywords = .ok o → KeepsValues caller o rules s) →
        sheet.toValue.IsFilled) := by
  obtain ⟨o, ds, s', ho, hdeclarations, hassemble⟩ := exists_of_sheet_eq_ok h
  refine ⟨(isFormed_of_assemble hassemble).isCanonical_toValue, fun hkeeps => ?_⟩
  obtain ⟨hproper, -, -⟩ := leaves_of_assemble (P := fun _ => True)
    ((hkeeps o ho).isLeaf_reread hdeclarations) (fun _ _ _ _ => trivial) hassemble
  exact Sheet.isFilled_toValue hproper

/-- Rules with a computation under two selectors, nested rules and a list of blank texts. -/
def deferredRules : Value :=
  .mapping .plain
    [(.text "b, i", Ledger.entered 0),
     (.text "@media print", .mapping .plain
       [(.text "@supports (gap: 0)", .mapping .plain
          [(.text ".c", .mapping .plain
              [(.text "box_Shadow", .seq .list [.text " ", .text "\t"])])])])]

/-- The computation of `deferredRules`, which gives a block with a block nested in it. -/
def deferredBlock : Ledger :=
  .of #[.give (.mapping .plain
      [(.text "borderTop", .int 1),
       (.text ":hover", .mapping .plain [(.text "-Moz_x", .bool true)])])]

/-- The sorted sheet of `deferredRules`, in which one property is a custom one. -/
def deferredSheet : Sheet :=
  let bordered : Sheet := .declare "--border-top" "1px" .empty
  let hovered : Sheet := .declare "-Moz_x" "true" .empty
  let shadowed : Sheet := .declare "box--shadow" "''" .empty
  .nest "b" bordered (.nest "b:hover" hovered (.nest "i" bordered (.nest "i:hover" hovered
    (.nest "@media print" (.nest "@supports (gap: 0)" (.nest ".c" shadowed .empty) .empty)
      .empty))))

/-- The options of `deferredSheet`. -/
def deferredOptions : Options :=
  ⟨"px", true, 4, some [.text "border-top"], []⟩

theorem isCanonical_deferredSheet :
    ((Conversion.sheet Ledger.call deferredRules none
        [("customs", .text "border-top"), ("sort", .bool true)]).run deferredBlock).1.result =
        .ok deferredSheet ∧
      deferredSheet.toValue.IsCanonical ∧ deferredSheet.toValue.IsFilled :=
  have h : ((Conversion.sheet Ledger.call deferredRules none
      [("customs", .text "border-top"), ("sort", .bool true)]).run deferredBlock).1.result =
      .ok deferredSheet := by decide +kernel
  have hread : readOptions ["rules"] none [("customs", .text "border-top"), ("sort", .bool true)] =
      .ok deferredOptions := rfl
  have hkeeps : KeepsValues Ledger.call deferredOptions deferredRules deferredBlock := by
    decide +kernel
  have hform := isCanonical_of_sheet_eq_ok h
  ⟨h, hform.1, hform.2 fun _ ho => Except.ok.inj (hread.symm.trans ho) ▸ hkeeps⟩

/-- The list has been found before it is emptied, so its block is opened and stays empty. -/
theorem not_isFilled_emptiedRules :
    ((Conversion.sheet Ledger.call emptiedRules none []).run emptyingCall).1.result =
        .ok (.nest "a" .empty .empty) ∧
      ¬ (Sheet.toValue (.nest "a" .empty .empty)).IsFilled :=
  ⟨by decide +kernel, fun h => h.1.1 rfl⟩

end Conversion

end Stylesheet
