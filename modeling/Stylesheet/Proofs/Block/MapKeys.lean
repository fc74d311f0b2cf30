import Stylesheet.Block.AsValue

/-!
# Blocks with other keys

What is done with a block does not look at its keys, but only compares them.  So it may be done
before or after they are replaced by others, as long as different keys are replaced by different
ones.

## Main definitions

* `Block.mapKeys` — a block with other keys for the same values.
* `Block.Clash.mapKeys` — the outcome of an operation, in terms of the other keys.

## Main statements

* `Block.descend_mapKeys`, `Block.assign_mapKeys` — the operations do the same with other keys.
-/

namespace Stylesheet.Block

variable {κ κ' α : Type}

/-- A block with other keys for the same values. -/
def mapKeys (f : κ → κ') : Block κ α → Block κ' α
  | empty => empty
  | declare key a rest => declare (f key) a (rest.mapKeys f)
  | nest key body rest => nest (f key) (body.mapKeys f) (rest.mapKeys f)

/-- The outcome of an operation, in terms of other keys. -/
def Clash.mapKeys (f : κ → κ') : Clash κ (Block κ α) → Clash κ' (Block κ' α)
  | .ok b => .ok (b.mapKeys f)
  | .error path => .error (path.map f)

theorem entries_mapKeys (f : κ → Value) (value : α → Value) (b : Block κ α) :
    entries id value (b.mapKeys f) = entries f value b := by
  induction b with
  | empty => rfl
  | declare key a rest ih => rw [mapKeys, entries, entries, ih, id]
  | nest key body rest ihBody ihRest => rw [mapKeys, entries, entries, ihBody, ihRest, id]

variable [BEq κ] [BEq κ'] {f : κ → κ'} (hf : ∀ k k', (f k == f k') = (k == k'))

include hf

theorem assign_mapKeys (key : κ) (a : α) (b : Block κ α) :
    assign (f key) a (b.mapKeys f) = Clash.mapKeys f (assign key a b) := by
  induction b with
  | empty => rfl
  | declare k a' rest ih =>
    rw [mapKeys, assign, assign, hf, ih]
    split
    · rfl
    · cases assign key a rest <;> rfl
  | nest k body rest _ ih =>
    rw [mapKeys, assign, assign, hf, ih]
    split
    · rfl
    · cases assign key a rest <;> rfl

theorem within_mapKeys {key : κ} {change : Block κ α → Clash κ (Block κ α)}
    {change' : Block κ' α → Clash κ' (Block κ' α)}
    (h : ∀ body, change' (body.mapKeys f) = Clash.mapKeys f (change body)) (b : Block κ α) :
    within (f key) change' (b.mapKeys f) = Clash.mapKeys f (within key change b) := by
  induction b with
  | empty =>
    have hempty : change' empty = Clash.mapKeys f (change empty) := h empty
    rw [mapKeys, within, within, hempty]
    cases change empty <;> rfl
  | declare k a rest ih =>
    rw [mapKeys, within, within, hf, ih]
    split
    · rfl
    · cases within key change rest <;> rfl
  | nest k body rest _ ih =>
    rw [mapKeys, within, within, hf, ih, h]
    split
    · cases change body <;> rfl
    · cases within key change rest <;> rfl

/-- A change at the end of a path is the same change at the end of the path of the other keys. -/
theorem descend_mapKeys {change : Block κ α → Clash κ (Block κ α)}
    {change' : Block κ' α → Clash κ' (Block κ' α)}
    (h : ∀ body, change' (body.mapKeys f) = Clash.mapKeys f (change body)) (path : List κ)
    (b : Block κ α) :
    descend change' (path.map f) (b.mapKeys f) = Clash.mapKeys f (descend change path b) := by
  induction path generalizing b with
  | nil => exact h b
  | cons key path ih => exact within_mapKeys hf ih b

end Stylesheet.Block
