import Stylesheet.Proofs.Block.Merge
import Stylesheet.Proofs.Sheet.Conflict

/-!
# Sheets of two lists of declarations

The sheet of one list of declarations after another is the sheet of the first one with that of the
second one merged into it.  The two lists fail together exactly if one of them fails by itself or
the two sheets cannot be merged.

## Main definitions

* `Sheet.IsMergeOf` — what it is for one result to be two others merged.

## Main statements

* `Sheet.isMergeOf_ofDeclarations` — the sheet of two lists of declarations, one after the other.
-/

namespace Stylesheet.Sheet

/-- What it is for one result to be two others merged.  Nothing is said of which fault is met if one
of the two is a fault. -/
structure IsMergeOf (both first later : Except Fault Sheet) : Prop where
  /-- Two sheets that can be merged give the merged one. -/
  merged : ∀ sheet sheet' whole, first = .ok sheet → later = .ok sheet' →
    sheet.merge sheet' = some whole → both = .ok whole
  /-- Two sheets that cannot be merged give a conflict. -/
  conflict : ∀ sheet sheet', first = .ok sheet → later = .ok sheet' →
    sheet.merge sheet' = none → ∃ path key, both = .error (.conflict path key)
  /-- A sheet has two sheets that it is made of. -/
  parts : ∀ whole, both = .ok whole → ∃ sheet sheet', first = .ok sheet ∧ later = .ok sheet'

variable {o : Options} {ds ds' : List Declaration}

/-- Declarations that go on after others are added to the sheet that those build. -/
theorem ofDeclarations_append (o : Options) (ds ds' : List Declaration) :
    ofDeclarations o (ds ++ ds') = ofDeclarations o ds >>= fun sheet => ds'.foldlM (add o) sheet :=
  List.foldlM_append

/-- The sheets of two lists of declarations tell that of both. -/
theorem ofDeclarations_append_eq_merge {sheet sheet' : Sheet} (h : ofDeclarations o ds = .ok sheet)
    (h' : ofDeclarations o ds' = .ok sheet') :
    ∃ result, ofDeclarations o (ds ++ ds') = ofClash result ∧
      result.toOption = sheet.merge sheet' := by
  obtain ⟨-, hrun⟩ := ofDeclarations_eq_ok_iff.1 h
  obtain ⟨htext', hrun'⟩ := ofDeclarations_eq_ok_iff.1 h'
  refine ⟨(ds'.map (Declaration.write o)).foldlM Block.put sheet, ?_,
    Block.foldlM_put_eq_merge (Block.hasDistinctKeys_ofWrites hrun) hrun'⟩
  rw [ofDeclarations_append, h, ← foldlM_add_eq_put htext']
  rfl

/-- Declarations build a sheet without the ones before them, if they do so after them: their clashes
are clashes of the whole list. -/
theorem exists_ofDeclarations_eq_ok_of_append {whole : Sheet}
    (h : ofDeclarations o (ds ++ ds') = .ok whole) :
    ∃ sheet', ofDeclarations o ds' = .ok sheet' := by
  obtain ⟨htext, hrun⟩ := ofDeclarations_eq_ok_iff.1 h
  rcases hrun' : Block.ofWrites (ds'.map (Declaration.write o)) with e | sheet'
  · obtain ⟨p, hp⟩ := Block.exists_ofWrites_eq_error_iff.1 ⟨e, hrun'⟩
    have hsub : ds'.map (Declaration.write o) ⊆ (ds ++ ds').map (Declaration.write o) :=
      List.map_subset _ (List.subset_append_right ds ds')
    exact absurd (hp.mono hsub) (Block.not_clashAt_of_ofWrites hrun p)
  · refine ⟨sheet', ofDeclarations_eq_ok_iff.2 ⟨fun d hd => ?_, hrun'⟩⟩
    exact htext d (List.mem_append_right ds hd)

/-- The sheet of two lists of declarations, one after the other, is their sheets merged. -/
theorem isMergeOf_ofDeclarations (o : Options) (ds ds' : List Declaration) :
    IsMergeOf (ofDeclarations o (ds ++ ds')) (ofDeclarations o ds) (ofDeclarations o ds') where
  merged sheet sheet' whole h h' hmerge := by
    obtain ⟨result, hboth, hresult⟩ := ofDeclarations_append_eq_merge h h'
    cases result with
    | error e => cases hresult.trans hmerge
    | ok built =>
      rw [hboth, ← Option.some.inj (hresult.trans hmerge)]
      rfl
  conflict sheet sheet' h h' hmerge := by
    obtain ⟨result, hboth, hresult⟩ := ofDeclarations_append_eq_merge h h'
    cases result with
    | error e => exact ⟨_, _, hboth⟩
    | ok built => cases hresult.trans hmerge
  parts whole h := by
    obtain ⟨sheet', h'⟩ := exists_ofDeclarations_eq_ok_of_append h
    cases hfirst : ofDeclarations o ds with
    | error fault =>
      rw [ofDeclarations_append, hfirst] at h
      cases h
    | ok sheet => exact ⟨sheet, sheet', rfl, h'⟩

end Stylesheet.Sheet
