import Stylesheet.Block.Sorting
import Stylesheet.Proofs.Block.Leaves

/-!
# Sorting blocks

Sorting puts the entries of a block in order, at every level, and does no more: it keeps what stands
in the block, and a block that is in order stays as it is.

## Main definitions

* `Block.IsSorted` — blocks whose entries stand in the order of their ranks, at every level.

## Main statements

* `Block.isSorted_sorted`, `Block.sorted_of_isSorted` — sorting puts a block in order, and leaves
  one alone that is.
* `Block.mem_leaves_sorted`, `Block.isProper_sorted` — what sorting keeps.
-/

namespace Stylesheet.Block

open Selector (rank)

variable {α : Type}

/-- A block whose entries stand in the order of their ranks, at every level. -/
def IsSorted : Block String α → Prop
  | empty => True
  | declare key _ rest => (∀ k ∈ rest.keys, rank key ≤ rank k) ∧ rest.IsSorted
  | nest key body rest => (∀ k ∈ rest.keys, rank key ≤ rank k) ∧ body.IsSorted ∧ rest.IsSorted

@[simp] theorem isSorted_empty : (empty : Block String α).IsSorted := trivial

/-- Whether the block that an item is stands in order. -/
def Item.IsSorted : Item String α → Prop
  | value _ => True
  | block body => body.IsSorted

/-- An item with the block that it is in order. -/
def Item.sorted : Item String α → Item String α
  | value a => value a
  | block body => block body.sorted

@[simp] theorem isSorted_entry {key : String} {item : Item String α} {rest : Block String α} :
    (item.entry key rest).IsSorted ↔
      (∀ k ∈ rest.keys, rank key ≤ rank k) ∧ item.IsSorted ∧ rest.IsSorted := by
  cases item <;> simp [Item.entry, IsSorted, Item.IsSorted]

@[simp] theorem sorted_entry (key : String) (item : Item String α) (rest : Block String α) :
    (item.entry key rest).sorted = insertRanked key (item.sorted.entry key) rest.sorted := by
  cases item <;> rfl

@[simp] theorem insertRanked_empty (key : String) (entry : Block String α → Block String α) :
    insertRanked key entry empty = entry empty := rfl

@[simp] theorem insertRanked_entry (key : String) (entry : Block String α → Block String α)
    (k : String) (item : Item String α) (rest : Block String α) :
    insertRanked key entry (item.entry k rest) =
      if rank key ≤ rank k then entry (item.entry k rest)
      else item.entry k (insertRanked key entry rest) := by
  cases item <;> rfl

/-! ## Inserting an entry -/

section

variable {key : String} {item : Item String α} {b : Block String α}

theorem keys_insertRanked_perm :
    (insertRanked key (item.entry key) b).keys.Perm (key :: b.keys) := by
  induction b using entry_induction with
  | empty => simp
  | entry k item' rest ih =>
    rw [insertRanked_entry]
    split
    · simp
    · rw [keys_entry, keys_entry]
      exact (ih.cons k).trans (List.Perm.swap key k rest.keys)

theorem mem_keys_insertRanked {k : String} :
    k ∈ (insertRanked key (item.entry key) b).keys ↔ k = key ∨ k ∈ b.keys :=
  keys_insertRanked_perm.mem_iff.trans List.mem_cons

theorem mem_leaves_insertRanked {w : Write String α} :
    w ∈ (insertRanked key (item.entry key) b).leaves ↔ w ∈ item.leaves key ∨ w ∈ b.leaves := by
  induction b using entry_induction with
  | empty => simp
  | entry k' item' rest ih =>
    rw [insertRanked_entry]
    split
    · simp
    · rw [leaves_entry, leaves_entry, List.mem_append, List.mem_append, ih]
      tauto

theorem isProper_insertRanked (hitem : item.IsProper) (hkey : key ∉ b.keys) (h : b.IsProper) :
    (insertRanked key (item.entry key) b).IsProper := by
  induction b using entry_induction with
  | empty => simpa using hitem
  | entry k' item' rest ih =>
    obtain ⟨hk', hitem', hrest⟩ := isProper_entry.1 h
    rw [insertRanked_entry]
    split
    · exact isProper_entry.2 ⟨hkey, hitem, h⟩
    · rw [keys_entry, List.mem_cons, not_or] at hkey
      refine isProper_entry.2 ⟨?_, hitem', ih hkey.2 hrest⟩
      rw [mem_keys_insertRanked, not_or]
      exact ⟨Ne.symm hkey.1, hk'⟩

theorem isSorted_insertRanked (hitem : item.IsSorted) (h : b.IsSorted) :
    (insertRanked key (item.entry key) b).IsSorted := by
  induction b using entry_induction with
  | empty => simpa using hitem
  | entry k' item' rest ih =>
    obtain ⟨hk', hitem', hrest⟩ := isSorted_entry.1 h
    rw [insertRanked_entry]
    split
    · next hle =>
      refine isSorted_entry.2 ⟨?_, hitem, h⟩
      intro k hk
      rcases List.mem_cons.1 (keys_entry k' item' rest ▸ hk) with rfl | hk
      · exact hle
      · exact String.le_trans hle (hk' k hk)
    · next hnot =>
      refine isSorted_entry.2 ⟨?_, hitem', ih hrest⟩
      intro k hk
      rcases mem_keys_insertRanked.1 hk with rfl | hk
      · exact (String.le_total _ _).resolve_left hnot
      · exact hk' k hk

/-- An entry that ranks before all others comes first. -/
theorem insertRanked_of_le (h : ∀ k ∈ b.keys, rank key ≤ rank k) :
    insertRanked key (item.entry key) b = item.entry key b := by
  induction b using entry_induction with
  | empty => rfl
  | entry k' item' rest _ => rw [insertRanked_entry, if_pos (h k' (by simp))]

end

/-! ## Sorting -/

theorem keys_sorted_perm (b : Block String α) : b.sorted.keys.Perm b.keys := by
  induction b using entry_induction with
  | empty => rfl
  | entry key item rest ih =>
    rw [sorted_entry, keys_entry]
    exact keys_insertRanked_perm.trans (ih.cons key)

theorem mem_keys_sorted {b : Block String α} {k : String} : k ∈ b.sorted.keys ↔ k ∈ b.keys :=
  (keys_sorted_perm b).mem_iff

theorem sorted_ne_empty {b : Block String α} (h : b ≠ empty) : b.sorted ≠ empty := by
  induction b using entry_induction with
  | empty => exact absurd rfl h
  | entry key item rest _ =>
    intro hempty
    have hkey : key ∈ (item.entry key rest).sorted.keys := mem_keys_sorted.2 (by simp)
    rw [hempty] at hkey
    simp at hkey

/-- Sorting keeps what stands in a block. -/
theorem mem_leaves_sorted {b : Block String α} {w : Write String α} :
    w ∈ b.sorted.leaves ↔ w ∈ b.leaves := by
  induction b generalizing w with
  | empty => rfl
  | declare key a rest ih =>
    change w ∈ (insertRanked key ((Item.value a).entry key) rest.sorted).leaves ↔ _
    rw [mem_leaves_insertRanked, ih]
    exact List.mem_append.symm
  | nest key body rest ihBody ihRest =>
    change w ∈ (insertRanked key ((Item.block body.sorted).entry key) rest.sorted).leaves ↔ _
    rw [mem_leaves_insertRanked, ihRest, leaves, List.mem_append, Item.leaves, List.mem_map,
      List.mem_map]
    simp only [ihBody]

theorem isProper_sorted {b : Block String α} (h : b.IsProper) : b.sorted.IsProper := by
  induction b with
  | empty => exact isProper_empty
  | declare key a rest ih =>
    obtain ⟨hkey, hrest⟩ := h
    have hitem : (Item.value a : Item String α).IsProper := trivial
    exact isProper_insertRanked hitem (mt mem_keys_sorted.1 hkey) (ih hrest)
  | nest key body rest ihBody ihRest =>
    obtain ⟨hkey, ⟨hne, hbody⟩, hrest⟩ := h
    have hitem : (Item.block body.sorted).IsProper := ⟨sorted_ne_empty hne, ihBody hbody⟩
    exact isProper_insertRanked hitem (mt mem_keys_sorted.1 hkey) (ihRest hrest)

/-- Sorting puts a block in order. -/
theorem isSorted_sorted (b : Block String α) : b.sorted.IsSorted := by
  induction b with
  | empty => trivial
  | declare key a rest ih =>
    have hitem : (Item.value a : Item String α).IsSorted := trivial
    exact isSorted_insertRanked hitem ih
  | nest key body rest ihBody ihRest =>
    have hitem : (Item.block body.sorted).IsSorted := ihBody
    exact isSorted_insertRanked hitem ihRest

/-- Sorting leaves a block alone that is in order. -/
theorem sorted_of_isSorted {b : Block String α} (h : b.IsSorted) : b.sorted = b := by
  induction b with
  | empty => rfl
  | declare key a rest ih =>
    obtain ⟨hkey, hrest⟩ := h
    change insertRanked key ((Item.value a).entry key) rest.sorted = (Item.value a).entry key rest
    rw [ih hrest, insertRanked_of_le hkey]
  | nest key body rest ihBody ihRest =>
    obtain ⟨hkey, hbody, hrest⟩ := h
    change insertRanked key ((Item.block body.sorted).entry key) rest.sorted =
      (Item.block body).entry key rest
    rw [ihBody hbody, ihRest hrest, insertRanked_of_le hkey]

end Stylesheet.Block
