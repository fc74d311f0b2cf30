import Stylesheet.Proofs.Block.Merge
import Stylesheet.Proofs.Block.Sorted

/-!
# Blocks that hold the same

Two blocks may hold the same values and blocks at the same places and differ in the order of their
keys.  Sorting is what takes that difference away: it does not change what a block holds, and no two
sorted blocks hold the same.  The ranks of different keys differ, so there is one order for them.

## Main definitions

* `Block.SameContents` — blocks that hold the same, in whatever order.

## Main statements

* `Block.at?_sorted`, `Block.sameContents_sorted` — sorting does not change what a block holds.
* `Block.eq_of_isSorted` — sorted blocks that hold the same are equal.
* `Block.sorted_eq_sorted` — blocks that hold the same are sorted into one.
-/

namespace Stylesheet

open Selector (rank)

namespace Selector

theorem length_weight (key : String) : (weight key).toList.length = 2 := by
  unfold weight
  split
  · rfl
  · unfold charWeight
    split <;> rfl

/-- Keys of the same rank are equal: all weights have the same length. -/
theorem rank_injective : Function.Injective rank := by
  intro key key' h
  have hrank : (weight key).toList ++ key.toList = (weight key').toList ++ key'.toList := by
    rw [← String.toList_append, ← String.toList_append]
    exact congrArg String.toList h
  have hlength : (weight key).toList.length = (weight key').toList.length :=
    (length_weight key).trans (length_weight key').symm
  exact String.toList_injective (List.append_inj hrank hlength).2

end Selector

namespace Block

variable {κ α : Type}

/-! ## Nested blocks -/

/-- Induction on nesting: a block has a property if the blocks nested in it have it. -/
theorem nested_induction [DecidableEq κ] {motive : Block κ α → Prop}
    (nested : ∀ b, (∀ key body, b.find? key = some (.block body) → motive body) → motive b)
    (b : Block κ α) : motive b := by
  suffices h : ∀ key body, b.find? key = some (.block body) → motive body from nested b h
  induction b with
  | empty => simp
  | declare k a rest ih =>
    intro key body hfind
    by_cases hk : k = key
    · simp [find?, hk] at hfind
    · exact ih key body (find?_declare_of_ne hk a rest ▸ hfind)
  | nest k body' rest ihBody ihRest =>
    intro key body hfind
    by_cases hk : k = key
    · obtain rfl : body' = body := by simpa [find?, hk] using hfind
      exact nested body' ihBody
    · exact ihRest key body (find?_nest_of_ne hk body' rest ▸ hfind)

theorem HasDistinctKeys.of_find? [DecidableEq κ] {b body : Block κ α} {key : κ}
    (h : b.HasDistinctKeys) (hfind : b.find? key = some (.block body)) : body.HasDistinctKeys :=
  bodyAt_of_block hfind ▸ h.bodyAt key

/-! ## Contents -/

/-- Two blocks hold the same: the same values at the same places, and blocks at the same places. -/
structure SameContents [DecidableEq κ] (b b' : Block κ α) : Prop where
  value_iff : ∀ p a, b.at? p = some (.value a) ↔ b'.at? p = some (.value a)
  block_iff : ∀ p, b.HasBlock p ↔ b'.HasBlock p

namespace SameContents

variable [DecidableEq κ] {b b' b'' : Block κ α}

theorem symm (h : SameContents b b') : SameContents b' b :=
  ⟨fun p a => (h.value_iff p a).symm, fun p => (h.block_iff p).symm⟩

theorem trans (h : SameContents b b') (h' : SameContents b' b'') : SameContents b b'' :=
  ⟨fun p a => (h.value_iff p a).trans (h'.value_iff p a),
    fun p => (h.block_iff p).trans (h'.block_iff p)⟩

/-- Where one of two blocks has a nested block, the other one has one that holds the same. -/
theorem exists_block (h : SameContents b b') {key : κ} {body : Block κ α}
    (hfind : b.find? key = some (.block body)) :
    ∃ body', b'.find? key = some (.block body') ∧ SameContents body body' := by
  obtain ⟨body', hfind'⟩ := (h.block_iff [key]).1 ⟨body, hfind⟩
  rw [at?_singleton] at hfind'
  refine ⟨body', hfind', fun p a => ?_, fun p => ?_⟩
  · simpa [at?_cons, hfind, hfind'] using h.value_iff (key :: p) a
  · simpa [HasBlock, at?_cons, hfind, hfind'] using h.block_iff (key :: p)

/-- A key of one of two blocks is a key of the other one. -/
theorem mem_keys (h : SameContents b b') {key : κ} (hkey : key ∈ b.keys) : key ∈ b'.keys := by
  by_contra hnew
  have hnone : b'.find? key = none := find?_eq_none_iff.2 hnew
  rcases hitem : b.find? key with _ | a | body
  · exact find?_eq_none_iff.1 hitem hkey
  · simpa [hnone] using (h.value_iff [key] a).1 hitem
  · obtain ⟨body', hfind', -⟩ := h.exists_block hitem
    simp [hnone] at hfind'

end SameContents

/-! ## What sorting does to places -/

section

variable {b b' : Block String α}

theorem find?_insertRanked (key : String) (item : Item String α) (b : Block String α)
    (key' : String) :
    (insertRanked key (item.entry key) b).find? key' =
      if key = key' then some item else b.find? key' := by
  induction b using entry_induction with
  | empty => simp
  | entry k item' rest ih =>
    rw [insertRanked_entry]
    split
    · simp
    · next hnot =>
      have hne : k ≠ key := fun heq => hnot (heq ▸ String.le_refl _)
      rw [find?_entry, find?_entry, ih]
      by_cases hkey : key = key'
      · rw [if_neg (hkey ▸ hne), if_pos hkey, if_pos hkey]
      · rw [if_neg hkey, if_neg hkey]

theorem find?_sorted (b : Block String α) (key : String) :
    b.sorted.find? key = (b.find? key).map Item.sorted := by
  induction b using entry_induction with
  | empty => rfl
  | entry k item rest ih =>
    rw [sorted_entry, find?_insertRanked, find?_entry, ih]
    split <;> rfl

/-- Sorting sorts what stands at a place, and moves nothing to another one. -/
theorem at?_sorted (b : Block String α) (p : List String) :
    b.sorted.at? p = (b.at? p).map Item.sorted := by
  induction p generalizing b with
  | nil => rfl
  | cons key p ih =>
    rw [at?_cons, at?_cons, find?_sorted]
    rcases b.find? key with _ | a | body
    · rfl
    · cases p <;> rfl
    · exact ih body

theorem sameContents_sorted (b : Block String α) : SameContents b b.sorted where
  value_iff p a := by
    rw [at?_sorted]
    rcases b.at? p with _ | _ | _ <;> simp [Item.sorted]
  block_iff p := by
    rw [HasBlock, HasBlock, at?_sorted]
    rcases b.at? p with _ | _ | _ <;> simp [Item.sorted]

theorem HasDistinctKeys.sorted (h : b.HasDistinctKeys) : b.sorted.HasDistinctKeys := by
  intro p
  have hp := h p
  rw [keysAt] at hp ⊢
  rw [at?_sorted]
  rcases hitem : b.at? p with _ | a | body
  · exact List.nodup_nil
  · exact List.nodup_nil
  · rw [hitem] at hp
    exact (keys_sorted_perm body).nodup_iff.2 hp

/-! ## Sorted blocks -/

theorem IsSorted.keys_pairwise (h : b.IsSorted) : b.keys.Pairwise (rank · ≤ rank ·) := by
  induction b using entry_induction with
  | empty => exact List.Pairwise.nil
  | entry key item rest ih =>
    obtain ⟨hkey, -, hrest⟩ := isSorted_entry.1 h
    rw [keys_entry]
    exact List.Pairwise.cons hkey (ih hrest)

theorem isSorted_of_find? (h : b.IsSorted) {key : String} {item : Item String α}
    (hfind : b.find? key = some item) : item.IsSorted := by
  induction b using entry_induction with
  | empty => simp at hfind
  | entry k item' rest ih =>
    obtain ⟨-, hitem', hrest⟩ := isSorted_entry.1 h
    rw [find?_entry] at hfind
    split at hfind
    · exact Option.some.inj hfind ▸ hitem'
    · exact ih hrest hfind

/-- There is one order for the keys of a sorted block. -/
theorem keys_eq_of_isSorted (hb : b.IsSorted) (hb' : b'.IsSorted) (hkeys : b.keys.Nodup)
    (hkeys' : b'.keys.Nodup) (h : ∀ key, key ∈ b.keys ↔ key ∈ b'.keys) : b.keys = b'.keys := by
  have hperm : b.keys.Perm b'.keys := (List.perm_ext_iff_of_nodup hkeys hkeys').2 h
  refine hperm.eq_of_pairwise (fun key key' _ _ hle hle' => ?_) hb.keys_pairwise hb'.keys_pairwise
  exact Selector.rank_injective (String.le_antisymm hle hle')

/-- Sorted blocks that hold the same are equal. -/
theorem eq_of_isSorted (hb : b.IsSorted) (hb' : b'.IsSorted) (hkeys : b.HasDistinctKeys)
    (hkeys' : b'.HasDistinctKeys) (h : SameContents b b') : b = b' := by
  induction b using nested_induction generalizing b' with
  | nested b ih =>
    have hmem : ∀ key, key ∈ b.keys ↔ key ∈ b'.keys :=
      fun key => ⟨h.mem_keys, h.symm.mem_keys⟩
    refine eq_of_find? hkeys.nodup
      (keys_eq_of_isSorted hb hb' hkeys.nodup hkeys'.nodup hmem) fun key => ?_
    rcases hitem : b.find? key with _ | a | body
    · exact (find?_eq_none_iff.2 (mt (hmem key).2 (find?_eq_none_iff.1 hitem))).symm
    · exact ((h.value_iff [key] a).1 hitem).symm
    · obtain ⟨body', hitem', hbody⟩ := h.exists_block hitem
      rw [hitem', ih key body hitem (isSorted_of_find? hb hitem) (isSorted_of_find? hb' hitem')
        (hkeys.of_find? hitem) (hkeys'.of_find? hitem') hbody]

/-- Blocks that hold the same are sorted into one. -/
theorem sorted_eq_sorted (hkeys : b.HasDistinctKeys) (hkeys' : b'.HasDistinctKeys)
    (h : SameContents b b') : b.sorted = b'.sorted :=
  eq_of_isSorted (isSorted_sorted b) (isSorted_sorted b') hkeys.sorted hkeys'.sorted
    ((sameContents_sorted b).symm.trans (h.trans (sameContents_sorted b')))

end

end Block

end Stylesheet
