import Stylesheet.Proofs.Block.MapValues
import Stylesheet.Proofs.Declaration.Tree

/-!
# Trees of mappings

A rule tree of mappings with texts for keys is a block of its leaves.  If every key is its own
fragment, then the declarations of the tree are the leaves of the block, in the order in which they
stand in it.

## Main definitions

* `Value.Spells` — the block that the entries of a mapping are.
* `Declaration.ofLeaf` — the declaration that a leaf is.

## Main statements

* `Value.spells_entries` — every block is spelled by its entries.
* `Value.declarations_of_spells` — the declarations of a tree of mappings.
-/

namespace Stylesheet

/-- The entries of a mapping with texts for keys, as a block: mappings among the values, of any
kind, are nested blocks. -/
inductive Value.Spells : List (Value × Value) → Block String Value → Prop
  | empty : Spells [] .empty
  | declare {key : String} {value : Value} {entries : List (Value × Value)}
    {rest : Block String Value} (leaf : value.isMapping = false) (others : Spells entries rest) :
    Spells ((.text key, value) :: entries) (.declare key value rest)
  | nest {key : String} {kind : MappingKind} {inner entries : List (Value × Value)}
    {body rest : Block String Value} (nested : Spells inner body) (others : Spells entries rest) :
    Spells ((.text key, .mapping kind inner) :: entries) (.nest key body rest)

/-- The declaration that a leaf of a tree is. -/
def Declaration.ofLeaf (w : Block.Write String Value) : Declaration :=
  ⟨w.path, w.key, w.value?.getD (.text "")⟩

namespace Value

/-- Every block is spelled by its entries. -/
theorem spells_entries {α : Type} {value : α → Value} (hvalue : ∀ a, (value a).isMapping = false)
    (b : Block String α) : Spells (b.entries .text value) (b.mapValues value) := by
  induction b with
  | empty => exact .empty
  | declare key a rest ih => exact .declare (hvalue a) ih
  | nest key body rest ihBody ihRest => exact .nest ihBody ihRest

variable {σ : Type} {called : Value → List String → Run σ (List Declaration)}

/-- A scalar under a key is one declaration. -/
theorem declarationsWith_of_isScalar {value : Value} (h : value.isScalar = true)
    (path : List String) (key : String) :
    declarationsWith called value (path ++ [key]) = pure [⟨path, key, value⟩] := by
  have hleaf : leafDeclarations (path ++ [key]) value = .ok [⟨path, key, value⟩] := by
    rw [leafDeclarations, List.getLast?_concat, List.dropLast_concat]
  cases value with
  | bool | int | float | text => exact congrArg Run.ofExcept hleaf
  | _ => cases h

/-- An entry whose key is its own fragment stands for what is under it once. -/
theorem declarationsOfEntries_cons {key : String} (hkey : Selector.fragments key = [key])
    {child : Value} {rest : List (Value × Value)} {path : List String}
    {first others : List Declaration}
    (hchild : declarationsWith called child (path ++ [key]) = pure first)
    (hrest : declarationsOfEntries called rest path = pure others) :
    declarationsOfEntries called ((.text key, child) :: rest) path = pure (first ++ others) := by
  rw [declarationsOfEntries, ofExcept_fragments_text, hkey, pure_bind, List.mapM_cons, hchild,
    hrest]
  simp

/-- The declarations of the entries of a mapping at the end of a path. -/
theorem declarationsOfEntries_of_spells {entries : List (Value × Value)} {b : Block String Value}
    (h : Spells entries b) (hproper : b.IsProper)
    (hkeys : ∀ w ∈ b.leaves, ∀ key ∈ w.place, Selector.fragments key = [key])
    (hleaves : ∀ w ∈ b.leaves, ∀ v, w.value? = some v → v.isScalar = true) (path : List String) :
    declarationsOfEntries called entries path =
      pure (b.leaves.map fun w => Declaration.ofLeaf { w with path := path ++ w.path }) := by
  induction h generalizing path with
  | empty => rfl
  | @declare key value entries rest _ _ ih =>
    obtain ⟨hkey, hkeysRest⟩ := List.forall_mem_cons.1 hkeys
    obtain ⟨hleaf, hleavesRest⟩ := List.forall_mem_cons.1 hleaves
    have hfirst := declarationsOfEntries_cons (hkey key (by simp [Block.Write.place]))
      (declarationsWith_of_isScalar (hleaf value rfl) path key)
      (ih hproper.2 hkeysRest hleavesRest path)
    rw [hfirst]
    simp [Block.leaves, Declaration.ofLeaf]
  | @nest key kind inner entries body rest _ _ ihBody ihRest =>
    obtain ⟨-, ⟨hne, hbody⟩, hrest⟩ := hproper
    obtain ⟨hkeysBody, hkeysRest⟩ := List.forall_mem_append.1 hkeys
    obtain ⟨hleavesBody, hleavesRest⟩ := List.forall_mem_append.1 hleaves
    rw [List.forall_mem_map] at hkeysBody hleavesBody
    obtain ⟨w, hw⟩ := List.exists_mem_of_ne_nil _ (Block.leaves_ne_nil hbody hne)
    have hkey : Selector.fragments key = [key] := hkeysBody w hw key (by simp)
    have hchild : declarationsWith called (.mapping kind inner) (path ++ [key]) =
        pure (body.leaves.map fun w =>
          Declaration.ofLeaf { w with path := path ++ [key] ++ w.path }) :=
      ihBody hbody (fun w hw k hk => hkeysBody w hw k (by simp [hk])) hleavesBody (path ++ [key])
    have hfirst := declarationsOfEntries_cons hkey hchild (ihRest hrest hkeysRest hleavesRest path)
    rw [hfirst]
    simp [Block.leaves, Declaration.ofLeaf, Block.Write.under, Function.comp_def]

/-- The declarations of a tree of mappings are its leaves, in the order in which they stand in
it. -/
theorem declarations_of_spells {caller : Caller σ} {o : Options} {kind : MappingKind}
    {entries : List (Value × Value)} {b : Block String Value} (h : Spells entries b)
    (hproper : b.IsProper)
    (hkeys : ∀ w ∈ b.leaves, ∀ key ∈ w.place, Selector.fragments key = [key])
    (hleaves : ∀ w ∈ b.leaves, ∀ v, w.value? = some v → v.isScalar = true) :
    declarations caller o (.mapping kind entries) = pure (b.leaves.map Declaration.ofLeaf) := by
  have hlevels : ∀ levels, declarationsWithin caller o levels (.mapping kind entries) [] =
      pure (b.leaves.map Declaration.ofLeaf) := by
    intro levels
    cases levels <;> exact declarationsOfEntries_of_spells h hproper hkeys hleaves []
  exact hlevels maxLevels

end Value

end Stylesheet
