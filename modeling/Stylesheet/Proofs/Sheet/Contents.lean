import Stylesheet.Proofs.Sheet.Write

/-!
# What a sheet holds

A sheet can be told from its declarations alone: every text in it is that of the last declaration of
its place, blocks stand on the selectors of declarations, and the keys of a block stand in the order
in which they were first used.  A declaration with an empty value counts for the blocks that it
opens, and for nothing else.

## Main definitions

* `Sheet.IsStoreOf` — what it is for a sheet to hold what a list of declarations says.

## Main statements

* `Sheet.isStoreOf_ofDeclarations` — the sheet of a list of declarations holds what they say.
-/

namespace Stylesheet.Sheet

/-- The number of declarations before the first one that uses a key of the block at a place. -/
def firstUse (o : Options) (ds : List Declaration) (p : List String) (key : String) : Nat :=
  ds.findIdx fun d => decide (d.Uses o p key)

/-- A sheet holds what a list of declarations says, and nothing else, in the order in which they say
it. -/
structure IsStoreOf (o : Options) (ds : List Declaration) (sheet : Sheet) : Prop where
  /-- Texts stand where declarations with a value go. -/
  exists_value_iff : ∀ p, (∃ text, sheet.at? p = some (.value text)) ↔ ∃ d ∈ ds, d.Assigns o p
  /-- The text at a place is that of the last declaration that goes there. -/
  value_of_last : ∀ before d after, ds = before ++ d :: after → d.value.kind ≠ .empty →
    (∀ later ∈ after, ¬ later.Assigns o (d.place o)) →
      ∃ text, Property.value o.unit (Property.name o.isCustom d.property) d.value =
        .ok (some text) ∧ sheet.at? (d.place o) = some (.value text)
  /-- Blocks stand on the selectors of declarations, those without a value included. -/
  exists_block_iff : ∀ p, p ≠ [] →
    ((∃ body, sheet.at? p = some (.block body)) ↔ ∃ d ∈ ds, p <+: d.selector)
  /-- Nothing stands anywhere else. -/
  eq_none_iff : ∀ p, p ≠ [] →
    (sheet.at? p = none ↔ ∀ d ∈ ds, ¬ d.Assigns o p ∧ ¬ p <+: d.selector)
  /-- A block has the keys that declarations use in it. -/
  mem_keys_iff : ∀ p body, sheet.at? p = some (.block body) →
    ∀ key, key ∈ body.keys ↔ ∃ d ∈ ds, d.Uses o p key
  /-- The keys of a block stand in the order in which declarations first use them, each once. -/
  keys_pairwise : ∀ p body, sheet.at? p = some (.block body) →
    body.keys.Pairwise fun key key' => firstUse o ds p key < firstUse o ds p key'

variable {o : Options} {ds : List Declaration} {sheet : Sheet}

theorem firstUse_map_write (h : ∀ d ∈ ds, ∃ result, d.text? o = .ok result) (p : List String)
    (key : String) :
    Block.firstUse (ds.map (Declaration.write o)) p key = firstUse o ds p key := by
  induction ds with
  | nil => rfl
  | cons d ds ih =>
    have hd := Declaration.uses_write_iff (h d (by simp)) p key
    have hds := ih fun d' hd' => h d' (by simp [hd'])
    simp only [Block.firstUse, firstUse] at hds ⊢
    rw [List.map_cons, List.findIdx_cons, List.findIdx_cons, hds, decide_eq_decide.2 hd]

/-- The sheet of a list of declarations is a store of what they say. -/
theorem isStoreOf_ofDeclarations (h : ofDeclarations o ds = .ok sheet) : IsStoreOf o ds sheet := by
  obtain ⟨htext, hrun⟩ := ofDeclarations_eq_ok_iff.1 h
  have hvalue : ∀ p, (∃ text, sheet.at? p = some (.value text)) ↔ ∃ d ∈ ds, d.Assigns o p :=
    fun p => (Block.exists_value_ofWrites_iff hrun p).trans
      (Declaration.exists_mem_assigns_iff htext p)
  have hblock : ∀ p, p ≠ [] →
      ((∃ body, sheet.at? p = some (.block body)) ↔ ∃ d ∈ ds, p <+: d.selector) := by
    intro p hp
    rw [← Declaration.exists_mem_path_iff p, ← Block.HasBlock,
      Block.hasBlock_ofWrites_iff hrun, or_iff_right hp]
  refine ⟨hvalue, ?_, hblock, ?_, ?_, ?_⟩
  · rintro before d after rfl hkind hlast
    obtain ⟨result, hresult⟩ := htext d (by simp)
    have hlater : ∀ v ∈ after.map (Declaration.write o), ¬ v.Assigns (d.write o).place := by
      intro v hv
      obtain ⟨later, hmem, rfl⟩ := List.mem_map.1 hv
      rw [Declaration.assigns_write_iff (htext later (by simp [hmem]))]
      exact hlast later hmem
    cases result with
    | none => exact absurd (Property.value_eq_ok_none_iff.1 hresult) hkind
    | some text =>
      rw [List.map_append, List.map_cons] at hrun
      exact ⟨text, hresult,
        Block.value_ofWrites_of_last hrun (Declaration.value?_write hresult) hlater⟩
  · intro p hp
    constructor
    · intro hnone d hd
      refine ⟨fun hassigns => ?_, fun hpath => ?_⟩
      · obtain ⟨text, htext⟩ := (hvalue p).2 ⟨d, hd, hassigns⟩
        simp [hnone] at htext
      · obtain ⟨body, hbody⟩ := (hblock p hp).2 ⟨d, hd, hpath⟩
        simp [hnone] at hbody
    · intro hnothing
      rcases hitem : sheet.at? p with _ | text | body
      · rfl
      · obtain ⟨d, hd, hassigns⟩ := (hvalue p).1 ⟨text, hitem⟩
        exact absurd hassigns (hnothing d hd).1
      · obtain ⟨d, hd, hpath⟩ := (hblock p hp).1 ⟨body, hitem⟩
        exact absurd hpath (hnothing d hd).2
  · intro p body hbody key
    rw [← Block.keysAt_of_at? hbody, Block.mem_keysAt_ofWrites_iff hrun,
      Declaration.exists_mem_uses_iff htext]
  · intro p body hbody
    rw [← Block.keysAt_of_at? hbody]
    refine (Block.keysAt_ofWrites_pairwise hrun p).imp fun {key key'} hlt => ?_
    rwa [firstUse_map_write htext, firstUse_map_write htext] at hlt

/-- Declarations of which one is overwritten and one only opens its blocks. -/
def overwriting : List Declaration :=
  [⟨["b .c"], "borderTop", .int 0⟩, ⟨["b .c"], "color", .text "red"⟩,
   ⟨["@media print", "u"], "margin", .none⟩, ⟨["b .c"], "border_top", .int 1⟩]

/-- The sheet of `overwriting`. -/
def overwritten : Sheet :=
  .nest "b .c" (.declare "border-top" "1px" (.declare "color" "red" .empty))
    (.nest "@media print" (.nest "u" .empty .empty) .empty)

theorem isStoreOf_overwritten :
    ofDeclarations .default overwriting = .ok overwritten ∧
      IsStoreOf .default overwriting overwritten :=
  have h : ofDeclarations .default overwriting = .ok overwritten := by decide +kernel
  ⟨h, isStoreOf_ofDeclarations h⟩

end Stylesheet.Sheet
