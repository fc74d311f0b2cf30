import Stylesheet.Proofs.Block.SameContents
import Stylesheet.Proofs.Sheet.Conflict
import Stylesheet.Print.Writer

/-!
# Declarations in another order

Only the order of declarations that go to the same place matters to what a sheet holds: the last one
of them wins.  All other declarations may change places.  This changes the order in which the keys
of a sheet stand, which sorting makes up for, and the moment at which a conflict is found, but not
whether there is one.

## Main definitions

* `IsReordering` — a list in another order, in which elements of the same place stay in order.

## Main statements

* `Block.sameContents_of_isReordering` — writes in another order build blocks that hold the same.
* `Sheet.sorted_reordered` — declarations in another order give the same sorted sheet, or conflicts.
-/

namespace Stylesheet

/-- A list in another order, in which the elements that go to the same place stay in order. -/
structure IsReordering {β γ : Type} [DecidableEq γ] (place : β → γ) (l l' : List β) : Prop where
  perm : l.Perm l'
  order : ∀ a ∈ l, l.filter (fun b => place b = place a) = l'.filter (fun b => place b = place a)

namespace IsReordering

variable {β γ δ : Type} [DecidableEq γ] {place : β → γ} {l l' : List β}

theorem filter_eq (h : IsReordering place l l') (p : γ) :
    l.filter (fun b => place b = p) = l'.filter (fun b => place b = p) := by
  by_cases hp : ∃ a ∈ l, place a = p
  · obtain ⟨a, ha, rfl⟩ := hp
    exact h.order a ha
  · have hnone : ∀ a ∈ l, place a ≠ p := fun a ha heq => hp ⟨a, ha, heq⟩
    have hnone' : ∀ a ∈ l', place a ≠ p := fun a ha => hnone a (h.perm.mem_iff.2 ha)
    rw [List.filter_eq_nil_iff.2 (by simpa using hnone),
      List.filter_eq_nil_iff.2 (by simpa using hnone')]

theorem map {place : δ → γ} {f : β → δ} (h : IsReordering (fun a => place (f a)) l l') :
    IsReordering place (l.map f) (l'.map f) where
  perm := h.perm.map f
  order := by
    rw [List.forall_mem_map]
    intro a ha
    rw [List.filter_map, List.filter_map]
    exact congrArg (List.map f) (h.order a ha)

/-- Lists that share no place may change places. -/
theorem append_comm (h : ∀ a ∈ l, ∀ b ∈ l', place a ≠ place b) :
    IsReordering place (l ++ l') (l' ++ l) where
  perm := List.perm_append_comm
  order := by
    have hfilter : ∀ a ∈ l, l'.filter (fun b => place b = place a) = [] :=
      fun a ha => List.filter_eq_nil_iff.2 fun b hb => by simpa using (h a ha b hb).symm
    have hfilter' : ∀ a ∈ l', l.filter (fun b => place b = place a) = [] :=
      fun a ha => List.filter_eq_nil_iff.2 fun b hb => by simpa using h b hb a ha
    intro a ha
    rw [List.filter_append, List.filter_append]
    rcases List.mem_append.1 ha with ha | ha
    · rw [hfilter a ha, List.append_nil, List.nil_append]
    · rw [hfilter' a ha, List.append_nil, List.nil_append]

end IsReordering

namespace Block

variable {κ α : Type} [DecidableEq κ] {ws ws' : List (Write κ α)}

theorem filter_assigns (ws : List (Write κ α)) (p : List κ) :
    (ws.filter fun w => w.Assigns p) =
      (ws.filter fun w => w.place = p).filter fun w => w.value?.isSome := by
  rw [List.filter_filter]
  refine List.filter_congr fun w _ => ?_
  cases hvalue : w.value? <;> simp [Write.Assigns, hvalue]

/-- Writes in another order build blocks that hold the same. -/
theorem sameContents_of_isReordering {b b' : Block κ α} (h : IsReordering Write.place ws ws')
    (hb : ofWrites ws = .ok b) (hb' : ofWrites ws' = .ok b') : SameContents b b' where
  value_iff p a := by
    rw [at?_ofWrites_eq_value_iff hb, at?_ofWrites_eq_value_iff hb', filter_assigns,
      filter_assigns, h.filter_eq p]
  block_iff p := by
    simp only [hasBlock_ofWrites_iff hb, hasBlock_ofWrites_iff hb', h.perm.mem_iff]

/-- Writes that clash do so in any order. -/
theorem exists_ofWrites_eq_error_of_perm (h : ws.Perm ws') (herror : ∃ e, ofWrites ws = .error e) :
    ∃ e, ofWrites ws' = .error e := by
  obtain ⟨p, hp⟩ := exists_ofWrites_eq_error_iff.1 herror
  exact exists_ofWrites_eq_error_iff.2 ⟨p, hp.mono h.subset⟩

end Block

namespace Sheet

/-- Declarations whose values can be written raise a conflict in every order that does not change
the order of those that go to the same place, or in none.  If there is none, then their sheets hold
the same, and once they are sorted they are equal and printed alike. -/
theorem sorted_reordered (o : Options) (ds ds' : List Declaration)
    (htext : ∀ d ∈ ds, ∃ result,
      Property.value o.unit (Property.name o.isCustom d.property) d.value = .ok result)
    (h : IsReordering (Declaration.place o) ds ds') :
    (∃ path key path' key', ofDeclarations o ds = .error (.conflict path key) ∧
        ofDeclarations o ds' = .error (.conflict path' key')) ∨
      ∃ sheet sheet', ofDeclarations o ds = .ok sheet ∧ ofDeclarations o ds' = .ok sheet' ∧
        sheet.SameContents sheet' ∧ sheet.sorted = sheet'.sorted ∧
        ∀ indent, format indent (toValue sheet.sorted) = format indent (toValue sheet'.sorted) := by
  have htext' : ∀ d ∈ ds', ∃ result, d.text? o = .ok result :=
    fun d hd => htext d (h.perm.mem_iff.2 hd)
  have hwrites : IsReordering Block.Write.place (ds.map (Declaration.write o))
      (ds'.map (Declaration.write o)) := IsReordering.map (f := Declaration.write o) h
  rw [ofDeclarations_eq_ofWrites htext, ofDeclarations_eq_ofWrites htext']
  rcases hrun : Block.ofWrites (ds.map (Declaration.write o)) with e | sheet
  · obtain ⟨e', hrun'⟩ := Block.exists_ofWrites_eq_error_of_perm hwrites.perm ⟨e, hrun⟩
    exact .inl ⟨_, _, _, _, rfl, congrArg ofClash hrun'⟩
  · rcases hrun' : Block.ofWrites (ds'.map (Declaration.write o)) with e' | sheet'
    · obtain ⟨e, hrun''⟩ := Block.exists_ofWrites_eq_error_of_perm hwrites.perm.symm ⟨e', hrun'⟩
      cases hrun.symm.trans hrun''
    · have hcontents : Block.SameContents sheet sheet' :=
        Block.sameContents_of_isReordering hwrites hrun hrun'
      have hsorted : sheet.sorted = sheet'.sorted :=
        Block.sorted_eq_sorted (Block.hasDistinctKeys_ofWrites hrun)
          (Block.hasDistinctKeys_ofWrites hrun') hcontents
      exact .inr ⟨sheet, sheet', rfl, rfl, hcontents, hsorted, fun indent => by rw [hsorted]⟩

/-- Declarations that go to the same place. -/
def borders : List Declaration :=
  [⟨["b"], "borderTop", .int 0⟩, ⟨["b"], "border_top", .int 1⟩]

/-- Declarations that go to other places than `borders`, one of which only opens its blocks. -/
def others : List Declaration :=
  [⟨["@media print", "u"], "margin", .none⟩, ⟨["#c"], "color", .text "red"⟩]

/-- The sheet of `borders` and then `others`. -/
def bordersFirst : Sheet :=
  .nest "b" (.declare "border-top" "1px" .empty) (.nest "@media print" (.nest "u" .empty .empty)
    (.nest "#c" (.declare "color" "red" .empty) .empty))

theorem sorted_reordered_borders :
    ∃ sheet, ofDeclarations .default (borders ++ others) = .ok bordersFirst ∧
      ofDeclarations .default (others ++ borders) = .ok sheet ∧
      sheet.keys = ["@media print", "#c", "b"] ∧ bordersFirst.sorted = sheet.sorted := by
  have hplaces : ∀ d ∈ borders, ∀ e ∈ others, d.place .default ≠ e.place .default := by
    decide +kernel
  have hfirst : ofDeclarations .default (borders ++ others) = .ok bordersFirst := by
    decide +kernel
  obtain ⟨_, _, _, _, hconflict, -⟩ | ⟨_, sheet, hsheet, hsheet', -, hsorted, -⟩ :=
    sorted_reordered .default (borders ++ others) (others ++ borders)
      (ofDeclarations_eq_ok_iff.1 hfirst).1 (IsReordering.append_comm hplaces)
  · cases hfirst.symm.trans hconflict
  · obtain rfl := Except.ok.inj (hfirst.symm.trans hsheet)
    have hkeys : (ofDeclarations .default (others ++ borders)).toOption.map Block.keys =
        some ["@media print", "#c", "b"] := by
      decide +kernel
    rw [hsheet'] at hkeys
    exact ⟨sheet, hfirst, hsheet', Option.some.inj hkeys, hsorted⟩

end Sheet

end Stylesheet
