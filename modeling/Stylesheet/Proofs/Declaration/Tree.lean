import Stylesheet.Declaration

/-!
# Induction on trees

Only lists and mappings have other trees in them.  What is shown of a list or a mapping from what is
known of these trees, and of all other values by themselves, holds of every tree.

## Main statements

* `Value.tree_induction` — the induction.
* `Value.declarationsOfItems_eq`, `Value.declarationsOfEntries_eq` — the declarations of a list and
  of a mapping, from those of the trees in them.
-/

namespace Stylesheet.Value

/-- Induction on trees. -/
@[elab_as_elim]
theorem tree_induction {motive : Value → Prop}
    (seq : ∀ kind items, (∀ item ∈ items, motive item) → motive (seq kind items))
    (mapping : ∀ kind entries, (∀ entry ∈ entries, motive entry.2) → motive (mapping kind entries))
    (other : ∀ value, (∀ kind items, value ≠ .seq kind items) →
      (∀ kind entries, value ≠ .mapping kind entries) → motive value) : ∀ value, motive value
  | .seq kind items => seq kind items fun item _ => tree_induction seq mapping other item
  | .mapping kind entries =>
    mapping kind entries fun entry _ => tree_induction seq mapping other entry.2
  | none => other _ nofun nofun
  | bool _ | int _ | float _ | text _ | bytes _ => other _ nofun nofun
  | set _ _ | symbol _ _ | stream _ _ _ _ | deferred _ _ | method _ _ => other _ nofun nofun
decreasing_by
  · have hitem := List.sizeOf_lt_of_mem ‹item ∈ items›
    rw [Value.seq.sizeOf_spec]
    omega
  · have hentry := List.sizeOf_lt_of_mem ‹entry ∈ entries›
    have hchild : sizeOf entry.2 < sizeOf entry := by
      rw [show sizeOf entry = 1 + sizeOf entry.1 + sizeOf entry.2 from Prod.mk.sizeOf_spec _ _]
      omega
    rw [Value.mapping.sizeOf_spec]
    omega

variable {σ : Type} {called : Value → List String → Run σ (List Declaration)}

theorem ofExcept_fragments_text (key : String) :
    (Run.ofExcept (text key).fragments : Run σ (List String)) = pure (Selector.fragments key) := rfl

theorem declarationsOfItems_eq (items : List Value) (path : List String) :
    declarationsOfItems called items path = do
      return (← items.mapM fun item => declarationsWith called item path).flatten := by
  induction items with
  | nil => rfl
  | cons item rest ih => simp [declarationsOfItems, ih]

/-- The declarations of one entry of a mapping. -/
def declarationsOfEntry (called : Value → List String → Run σ (List Declaration))
    (entry : Value × Value) (path : List String) : Run σ (List Declaration) := do
  let fragments ← Run.ofExcept entry.1.fragments
  return (← fragments.mapM fun fragment =>
    declarationsWith called entry.2 (path ++ [fragment])).flatten

theorem declarationsOfEntries_eq (entries : List (Value × Value)) (path : List String) :
    declarationsOfEntries called entries path = do
      return (← entries.mapM fun entry => declarationsOfEntry called entry path).flatten := by
  induction entries with
  | nil => rfl
  | cons entry rest ih => simp [declarationsOfEntries, declarationsOfEntry, ih]

end Stylesheet.Value
