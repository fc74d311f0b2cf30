import Stylesheet.Conversion
import Stylesheet.Proofs.Block.Sorted
import Stylesheet.Proofs.Declaration.Reread
import Stylesheet.Proofs.Sheet.Write

/-!
# From a tree to a sheet

A conversion finds the declarations of a tree, writes them to a sheet, and puts the sheet in order.
What every write has that a declaration of a tree makes, every value of the finished sheet has,
since nothing else is ever put there and sorting only moves it.

## Main statements

* `Conversion.run_sheetWith`, `Conversion.exists_of_sheet_eq_ok` — what a conversion reports, and
  what a sheet comes from.
* `Conversion.leaves_of_assemble` — what holds of the values of a sheet.
* `Sheet.ofDeclarations_of_leaves` — the declarations that build a sheet in order.
-/

namespace Stylesheet

/-- Declarations that are written as the values of a proper sheet build the sheet. -/
theorem Sheet.ofDeclarations_of_leaves {o : Options} {ds : List Declaration} {sheet : Sheet}
    (hproper : sheet.IsProper) (htext : ∀ d ∈ ds, ∃ result, d.text? o = .ok result)
    (hwrites : ds.map (Declaration.write o) = sheet.leaves) :
    Sheet.ofDeclarations o ds = .ok sheet :=
  Sheet.ofDeclarations_eq_ok_iff.2 ⟨htext, hwrites ▸ Block.ofWrites_leaves hproper⟩

namespace Conversion

variable {σ : Type} {caller : Caller σ} {o : Options}

/-- What a conversion reports, from the declarations of the tree. -/
theorem run_sheetWith (rules : Value) (s : σ) :
    (sheetWith caller o rules).run s =
      match (declarations caller o rules).run.run s with
      | (.ok ds, s') =>
        let result := assemble o (ds.map (Declaration.reread caller s'))
        (⟨result, .flattened ds.length :: failureLog result⟩, s')
      | (.error fault, s') => (.ofResult (.error fault), s') := by
  rw [sheetWith, StateT.run_bind]
  change (match (declarations caller o rules).run.run s with
    | (result, s') => _) = _
  rcases (declarations caller o rules).run.run s with ⟨_ | _, _⟩ <;> rfl

/-- A sheet is assembled from the declarations of a tree, with some options. -/
theorem exists_of_sheet_eq_ok {rules : Value} {given : Option Value}
    {keywords : List (String × Value)} {s : σ} {sheet : Sheet}
    (h : ((Conversion.sheet caller rules given keywords).run s).1.result = .ok sheet) :
    ∃ o ds s', readOptions ["rules"] given keywords = .ok o ∧
      (declarations caller o rules).run.run s = (.ok ds, s') ∧
      assemble o (ds.map (Declaration.reread caller s')) = .ok sheet := by
  unfold Conversion.sheet at h
  split at h
  · next o ho =>
    rw [run_sheetWith] at h
    rcases hrun : (declarations caller o rules).run.run s with ⟨_ | ds, s'⟩
    · rw [hrun] at h
      cases h
    · rw [hrun] at h
      exact ⟨o, ds, s', ho, hrun, h⟩
  · cases h

/-- What is assembled is the sheet that the declarations build, in the order that the options
want. -/
theorem exists_of_assemble_eq_ok {ds : List Declaration} {sheet : Sheet}
    (h : assemble o ds = .ok sheet) :
    ∃ built, Sheet.ofDeclarations o (ds.map Declaration.composed) = .ok built ∧
      Sheet.arranged o built = sheet := by
  unfold assemble at h
  cases hbuilt : Sheet.ofDeclarations o (ds.map Declaration.composed) with
  | error fault =>
    rw [hbuilt] at h
    cases h
  | ok built =>
    rw [hbuilt] at h
    exact ⟨built, rfl, Except.ok.inj h⟩

/-- A sheet of leaves is proper and in the order that the options want, and what all writes of the
leaves have, its values have. -/
theorem leaves_of_assemble {ds : List Declaration} {sheet : Sheet}
    {P : Block.Write String String → Prop} (hleaf : ∀ d ∈ ds, d.IsLeaf)
    (hwrite : ∀ d ∈ ds, ∀ text, d.composed.text? o = .ok (some text) → P (d.composed.write o))
    (h : assemble o ds = .ok sheet) :
    sheet.IsProper ∧ Sheet.arranged o sheet = sheet ∧ ∀ w ∈ sheet.leaves, P w := by
  obtain ⟨built, hbuilt, rfl⟩ := exists_of_assemble_eq_ok h
  obtain ⟨htext, hrun⟩ := Sheet.ofDeclarations_eq_ok_iff.1 hbuilt
  have hwrites : ∀ w ∈ (ds.map Declaration.composed).map (Declaration.write o),
      w.value? ≠ none ∧ P w := by
    intro w hw
    obtain ⟨d', hd', rfl⟩ := List.mem_map.1 hw
    obtain ⟨result, hresult⟩ := htext d' hd'
    obtain ⟨d, hd, rfl⟩ := List.mem_map.1 hd'
    cases result with
    | none => exact absurd (Property.value_eq_ok_none_iff.1 hresult) (hleaf d hd).value
    | some text =>
      exact ⟨by simp [Declaration.value?_write hresult], hwrite d hd text hresult⟩
  -- Sorting changes the order of the entries, but neither what they are nor that keys differ.
  have hproper : built.IsProper := Block.isProper_ofWrites hrun fun w hw => (hwrites w hw).1
  have hmem : ∀ w ∈ built.leaves, P w :=
    fun w hw => (hwrites w (Block.mem_leaves_ofWrites hrun hw)).2
  unfold Sheet.arranged
  split
  · exact ⟨Block.isProper_sorted hproper, Block.sorted_of_isSorted (Block.isSorted_sorted built),
      fun w hw => hmem w (Block.mem_leaves_sorted.1 hw)⟩
  · exact ⟨hproper, rfl, hmem⟩

end Conversion

end Stylesheet
