import Stylesheet.Block.AsValue
import Stylesheet.Block.Sorting
import Stylesheet.Proofs.Block.Leaves

/-!
# Blocks with other values

Most of what is done with a block does not look at its values, and so it may be done before or after
they are replaced.

## Main definitions

* `Block.mapValues` — a block with other values under the same keys.
* `Block.Write.mapValue` — a write of another value to the same place.

## Main statements

* `Block.leaves_mapValues`, `Block.isProper_mapValues` — the values of the block, and its shape.
* `Block.sorted_mapValues` — sorting does not look at values.
-/

namespace Stylesheet.Block

variable {κ α β : Type}

/-- A block with other values under the same keys. -/
def mapValues (f : α → β) : Block κ α → Block κ β
  | empty => empty
  | declare key a rest => declare key (f a) (rest.mapValues f)
  | nest key body rest => nest key (body.mapValues f) (rest.mapValues f)

/-- A write of another value to the same place. -/
def Write.mapValue (f : α → β) (w : Write κ α) : Write κ β :=
  ⟨w.path, w.key, w.value?.map f⟩

theorem keys_mapValues (f : α → β) (b : Block κ α) : (b.mapValues f).keys = b.keys := by
  induction b with
  | empty => rfl
  | declare key a rest ih => rw [mapValues, keys, keys, ih]
  | nest key body rest _ ih => rw [mapValues, keys, keys, ih]

theorem leaves_mapValues (f : α → β) (b : Block κ α) :
    (b.mapValues f).leaves = b.leaves.map (Write.mapValue f) := by
  induction b with
  | empty => rfl
  | declare key a rest ih =>
    rw [mapValues, leaves, leaves, ih, List.map_cons]
    rfl
  | nest key body rest ihBody ihRest =>
    rw [mapValues, leaves, leaves, ihBody, ihRest, List.map_append, List.map_map, List.map_map]
    rfl

theorem isProper_mapValues {f : α → β} {b : Block κ α} (h : b.IsProper) :
    (b.mapValues f).IsProper := by
  induction b with
  | empty => trivial
  | declare key a rest ih => exact ⟨keys_mapValues f rest ▸ h.1, ih h.2⟩
  | nest key body rest ihBody ihRest =>
    obtain ⟨hkey, ⟨hne, hbody⟩, hrest⟩ := h
    refine ⟨keys_mapValues f rest ▸ hkey, ⟨?_, ihBody hbody⟩, ihRest hrest⟩
    cases body with
    | empty => exact absurd rfl hne
    | declare => nofun
    | nest => nofun

theorem entries_mapValues (key : κ → Value) (f : α → Value) (b : Block κ α) :
    entries key id (b.mapValues f) = entries key f b := by
  induction b with
  | empty => rfl
  | declare k a rest ih => rw [mapValues, entries, entries, ih, id]
  | nest k body rest ihBody ihRest => rw [mapValues, entries, entries, ihBody, ihRest]

theorem insertRanked_mapValues {f : α → β} {key : String} {entry : Block String α → Block String α}
    {entry' : Block String β → Block String β}
    (h : ∀ rest, entry' (rest.mapValues f) = (entry rest).mapValues f) (b : Block String α) :
    insertRanked key entry' (b.mapValues f) = (insertRanked key entry b).mapValues f := by
  induction b with
  | empty => exact h empty
  | declare k a rest ih =>
    rw [mapValues, insertRanked, insertRanked]
    split
    · exact h (declare k a rest)
    · rw [ih, mapValues]
  | nest k body rest _ ih =>
    rw [mapValues, insertRanked, insertRanked]
    split
    · exact h (nest k body rest)
    · rw [ih, mapValues]

/-- Sorting does not look at values. -/
theorem sorted_mapValues (f : α → β) (b : Block String α) :
    (b.mapValues f).sorted = b.sorted.mapValues f := by
  induction b with
  | empty => rfl
  | declare key a rest ih =>
    rw [mapValues, sorted, sorted, ih]
    apply insertRanked_mapValues
    intro others
    rfl
  | nest key body rest ihBody ihRest =>
    rw [mapValues, sorted, sorted, ihBody, ihRest]
    apply insertRanked_mapValues
    intro others
    rfl

end Stylesheet.Block
