import Mathlib.Data.List.Basic
import Stylesheet.Value.SetOrder

/-!
# The elements of sets

A set of the elements of a set is that set again, in the same order: its elements are distinct
already, and numbers already stand in the order of their places.

## Main definitions

* `Value.IsDistinct` — elements of which none is equal to an earlier one.
* `Value.ArePlaced` — numbers with their places.

## Main statements

* `Value.arranged_perm`, `Value.arranged_arranged` — arranging elements only moves them, and does
  not move them again.
* `Value.setElements_setElements` — the elements of a set of the elements of a set.
-/

namespace Stylesheet

/-- Whether two floating-point numbers are equal does not depend on which of them is asked. -/
theorem Binary64.same_comm (x y : Binary64) : x.same y = y.same x := by
  cases x with
  | nan | infinite => cases y <;> first | exact BEq.comm | rfl
  | finite x => cases y with
    | finite y =>
      rw [same, same, Finite.same, Finite.same, Bool.and_comm, BEq.comm (a := x.negative),
        BEq.comm (a := x.mantissa), BEq.comm (a := x.exponent)]
    | _ => rfl

namespace Value

variable {items : List Value} {count : Nat} {entries : List (Nat × Value)}

/-! ## Distinct elements -/

/-- Elements of which none is equal to an earlier one. -/
def IsDistinct (items : List Value) : Prop :=
  items.Pairwise fun earlier item => item.same earlier = false

/-- The elements kept so far, and one more if it is not equal to any of them. -/
def keep (kept : List Value) (item : Value) : List Value :=
  if kept.any item.same then kept else kept ++ [item]

theorem isDistinct_keep {kept : List Value} (h : IsDistinct kept) (item : Value) :
    IsDistinct (keep kept item) := by
  unfold keep
  split
  · exact h
  · next hnew =>
    refine List.pairwise_append.2 ⟨h, List.pairwise_singleton _ _, ?_⟩
    intro earlier hearlier item' hitem'
    obtain rfl := List.mem_singleton.1 hitem'
    simp only [List.any_eq_true, not_exists, not_and, Bool.not_eq_true] at hnew
    exact hnew earlier hearlier

theorem isDistinct_foldl {kept : List Value} (h : IsDistinct kept) (items : List Value) :
    IsDistinct (items.foldl keep kept) := by
  induction items generalizing kept with
  | nil => exact h
  | cons item rest ih => exact ih (isDistinct_keep h item)

theorem isDistinct_distinct (items : List Value) : IsDistinct (distinct items) :=
  isDistinct_foldl List.Pairwise.nil items

theorem foldl_keep_of_isDistinct {kept : List Value} (h : IsDistinct (kept ++ items)) :
    items.foldl keep kept = kept ++ items := by
  induction items generalizing kept with
  | nil => simp
  | cons item rest ih =>
    have hnew : ∀ earlier ∈ kept, item.same earlier = false := fun earlier hearlier =>
      (List.pairwise_append.1 h).2.2 earlier hearlier item List.mem_cons_self
    have hkeep : keep kept item = kept ++ [item] := by
      rw [keep, if_neg]
      simpa using hnew
    rw [List.foldl_cons, hkeep, ih (by simpa using h), List.append_assoc, List.singleton_append]

/-- Distinct elements are all kept. -/
theorem distinct_of_isDistinct (h : IsDistinct items) : distinct items = items :=
  foldl_keep_of_isDistinct h

theorem keep_subset (kept : List Value) (item : Value) : keep kept item ⊆ kept ++ [item] := by
  unfold keep
  split
  · exact List.subset_append_left kept [item]
  · exact List.Subset.refl _

theorem mem_of_mem_foldl_keep {kept : List Value} {item : Value}
    (h : item ∈ items.foldl keep kept) : item ∈ kept ++ items := by
  induction items generalizing kept with
  | nil => simpa using h
  | cons first rest ih =>
    rcases List.mem_append.1 (ih h) with hkept | hrest
    · have := keep_subset kept first hkept
      simp only [List.mem_append, List.mem_singleton] at this
      simp only [List.mem_append, List.mem_cons]
      tauto
    · simp [hrest]

/-- All that is kept has been given. -/
theorem mem_of_mem_distinct {item : Value} (h : item ∈ distinct items) : item ∈ items :=
  mem_of_mem_foldl_keep h

theorem subset_foldl_keep (kept items : List Value) : kept ⊆ items.foldl keep kept := by
  induction items generalizing kept with
  | nil => exact List.Subset.refl _
  | cons item rest ih =>
    refine List.Subset.trans ?_ (ih (keep kept item))
    unfold keep
    split
    · exact List.Subset.refl _
    · exact List.subset_append_left kept [item]

/-! ## Numbers in the order of their places -/

/-- Numbers with the places that they have among so many. -/
def ArePlaced (count : Nat) (entries : List (Nat × Value)) : Prop :=
  ∀ entry ∈ entries, place? count entry.2 = some entry.1

/-- Numbers are put in the order of their places by putting in one after the other. -/
def sortPlaced (entries : List (Nat × Value)) : List (Nat × Value) :=
  entries.foldr (fun entry => insertPlaced entry.1 entry.2) []

theorem sortPlaced_perm (entries : List (Nat × Value)) : (sortPlaced entries).Perm entries := by
  induction entries with
  | nil => exact .refl _
  | cons entry rest ih => exact (insertPlaced_perm _ _ _).trans (ih.cons entry)

theorem insertPlaced_of_le {place : Nat} {value : Value}
    (h : ∀ entry ∈ entries, place ≤ entry.1) :
    insertPlaced place value entries = (place, value) :: entries := by
  cases entries with
  | nil => rfl
  | cons entry rest => exact if_pos (h entry List.mem_cons_self)

theorem insertPlaced_ordered {place : Nat} {value : Value}
    (h : entries.Pairwise (·.1 ≤ ·.1)) :
    (insertPlaced place value entries).Pairwise (·.1 ≤ ·.1) := by
  induction entries with
  | nil => exact List.pairwise_singleton _ _
  | cons entry rest ih =>
    obtain ⟨hentry, hrest⟩ := List.pairwise_cons.1 h
    rw [insertPlaced]
    split
    · next hle =>
      refine List.pairwise_cons.2 ⟨fun entry' hentry' => ?_, h⟩
      rcases List.mem_cons.1 hentry' with rfl | hentry'
      · exact hle
      · exact Nat.le_trans hle (hentry entry' hentry')
    · next hlt =>
      refine List.pairwise_cons.2 ⟨fun entry' hentry' => ?_, ih hrest⟩
      rcases List.mem_cons.1 ((insertPlaced_perm _ _ _).mem_iff.1 hentry') with rfl | hentry'
      · exact Nat.le_of_not_le hlt
      · exact hentry entry' hentry'

theorem sortPlaced_ordered (entries : List (Nat × Value)) :
    (sortPlaced entries).Pairwise (·.1 ≤ ·.1) := by
  induction entries with
  | nil => exact List.Pairwise.nil
  | cons entry rest ih => exact insertPlaced_ordered ih

/-- Numbers that are in order stay so. -/
theorem sortPlaced_of_ordered (h : entries.Pairwise (·.1 ≤ ·.1)) :
    sortPlaced entries = entries := by
  induction entries with
  | nil => rfl
  | cons entry rest ih =>
    obtain ⟨hentry, hrest⟩ := List.pairwise_cons.1 h
    rw [sortPlaced, List.foldr_cons, ← sortPlaced, ih hrest, insertPlaced_of_le hentry]

theorem mapM_place_of_arePlaced (h : ArePlaced count entries) :
    (entries.map Prod.snd).mapM (place? count) = some (entries.map Prod.fst) := by
  induction entries with
  | nil => rfl
  | cons entry rest ih =>
    obtain ⟨hentry, hrest⟩ := List.forall_mem_cons.1 h
    rw [List.map_cons, List.mapM_cons, hentry, ih hrest]
    rfl

theorem exists_arePlaced_of_mapM {places : List Nat} (h : items.mapM (place? count) = some places) :
    ∃ entries, ArePlaced count entries ∧ entries.map Prod.fst = places ∧
      entries.map Prod.snd = items := by
  induction items generalizing places with
  | nil =>
    obtain rfl := Option.some.inj h
    exact ⟨[], nofun, rfl, rfl⟩
  | cons item rest ih =>
    rw [List.mapM_cons] at h
    obtain ⟨place, hplace, h⟩ := Option.bind_eq_some_iff.1 h
    obtain ⟨others, hothers, h⟩ := Option.bind_eq_some_iff.1 h
    obtain rfl := Option.some.inj h
    obtain ⟨entries, hentries, rfl, rfl⟩ := ih hothers
    exact ⟨(place, item) :: entries, List.forall_mem_cons.2 ⟨hplace, hentries⟩, rfl, rfl⟩

theorem arranged_of_arePlaced (h : ArePlaced entries.length entries) :
    arranged (entries.map Prod.snd) = (sortPlaced entries).map Prod.snd := by
  have hzip : (entries.map Prod.fst).zip (entries.map Prod.snd) = entries := by
    rw [← List.unzip_fst, ← List.unzip_snd, List.zip_unzip]
  have hplaces := mapM_place_of_arePlaced h
  rw [← List.length_map Prod.snd] at hplaces
  rw [arranged, hplaces]
  exact congrArg (fun entries => (sortPlaced entries).map Prod.snd) hzip

/-- Elements are arranged as numbers if all of them are, or else they stay as they are. -/
theorem arranged_cases (items : List Value) :
    (∃ entries, ArePlaced entries.length entries ∧ entries.map Prod.snd = items ∧
      arranged items = (sortPlaced entries).map Prod.snd) ∨ arranged items = items := by
  cases hplaces : items.mapM (place? items.length) with
  | none => exact .inr (by rw [arranged, hplaces])
  | some places =>
    obtain ⟨entries, hentries, -, rfl⟩ := exists_arePlaced_of_mapM hplaces
    rw [List.length_map] at hentries
    exact .inl ⟨entries, hentries, rfl, arranged_of_arePlaced hentries⟩

/-- Arranging elements moves them, and does no more. -/
theorem arranged_perm (items : List Value) : (arranged items).Perm items := by
  rcases arranged_cases items with ⟨entries, -, rfl, harranged⟩ | harranged
  · rw [harranged]
    exact (sortPlaced_perm entries).map Prod.snd
  · rw [harranged]

/-- Arranging elements again does nothing. -/
theorem arranged_arranged (items : List Value) : arranged (arranged items) = arranged items := by
  rcases arranged_cases items with ⟨entries, hentries, -, harranged⟩ | harranged
  · have hperm : (sortPlaced entries).Perm entries := sortPlaced_perm entries
    have hsorted : ArePlaced (sortPlaced entries).length (sortPlaced entries) := by
      rw [hperm.length_eq]
      exact fun entry hentry => hentries entry (hperm.mem_iff.1 hentry)
    rw [harranged, arranged_of_arePlaced hsorted,
      sortPlaced_of_ordered (sortPlaced_ordered entries)]
  · rw [harranged, harranged]

/-! ## The elements of a set -/

/-- Whether two numbers are equal does not depend on which of them is asked. -/
theorem same_comm_of_number {a b : Value} (ha : reduced? a ≠ Option.none)
    (hb : reduced? b ≠ Option.none) : a.same b = b.same a := by
  cases a with
  | bool p => cases b with
    | bool | int => exact BEq.comm
    | float x => cases x <;> rfl
    | _ => exact absurd rfl hb
  | int i => cases b with
    | bool | int => exact BEq.comm
    | float x => cases x <;> rfl
    | _ => exact absurd rfl hb
  | float x => cases b with
    | bool | int => cases x <;> rfl
    | float y => exact Binary64.same_comm x y
    | _ => exact absurd rfl hb
  | _ => exact absurd rfl ha

theorem isDistinct_arranged (h : IsDistinct items) : IsDistinct (arranged items) := by
  rcases arranged_cases items with ⟨entries, hentries, rfl, harranged⟩ | harranged
  · have hnumber : ∀ item ∈ entries.map Prod.snd, reduced? item ≠ Option.none := by
      rw [List.forall_mem_map]
      intro entry hentry hnone
      have hplace := hentries entry hentry
      rw [place?, hnone] at hplace
      cases hplace
    have hsymm : (entries.map Prod.snd).Pairwise fun a b =>
        reduced? a ≠ Option.none → reduced? b ≠ Option.none → b.same a = false :=
      h.imp fun hab _ _ => hab
    have hperm : (arranged (entries.map Prod.snd)).Perm (entries.map Prod.snd) := arranged_perm _
    refine (hperm.symm.pairwise hsymm ?_).imp_of_mem fun {a b} ha hb hab => ?_
    · exact fun {a b} hab hb ha => same_comm_of_number hb ha ▸ hab ha hb
    · exact hab (hnumber a (hperm.mem_iff.1 ha)) (hnumber b (hperm.mem_iff.1 hb))
  · rwa [harranged]

/-- A set of the elements of a set is that set. -/
theorem setElements_setElements (items : List Value) :
    setElements (setElements items) = setElements items := by
  have hdistinct : IsDistinct (arranged (distinct items)) :=
    isDistinct_arranged (isDistinct_distinct items)
  rw [setElements, setElements, distinct_of_isDistinct hdistinct, arranged_arranged]

/-- The elements of a set have been given. -/
theorem mem_of_mem_setElements {item : Value} (h : item ∈ setElements items) : item ∈ items :=
  mem_of_mem_distinct ((arranged_perm _).mem_iff.1 h)

theorem setElements_ne_nil (h : items ≠ []) : setElements items ≠ [] := by
  cases items with
  | nil => exact absurd rfl h
  | cons first rest =>
    have hfirst : first ∈ distinct (first :: rest) :=
      subset_foldl_keep [first] rest (List.mem_singleton_self first)
    exact List.ne_nil_of_mem ((arranged_perm _).mem_iff.2 hfirst)

theorem allHashable_iff : allHashable items = true ↔ ∀ item ∈ items, item.isHashable = true := by
  induction items with
  | nil => simp [allHashable]
  | cons item rest ih => simp [allHashable, ih]

end Value

end Stylesheet
