import Mathlib.Data.List.Forall2
import Stylesheet.Proofs.Declaration.Tree

/-!
# Trees with something replaced in them

The declarations of a tree are put together from those of the trees in it and of what it calls.  So
a relation of runs that is kept where runs are put together holds of the declarations of two trees
as soon as it holds where the two differ.

## Main definitions

* `Value.Calls` — what can be called in a tree.
* `Value.Replaces` — trees that differ in some places only.
* `Run.IsCongruence` — a relation of runs that is kept where runs are put together.

## Main statements

* `Value.Replaces.induction` — induction on two such trees.
* `Run.IsCongruence.declarationsWith_of_replaces` — the declarations of two such trees.
-/

namespace Stylesheet

/-! ## Places in a tree -/

namespace Value

/-- What can be called in a tree.  Nothing is called in keys. -/
inductive Calls : Value → Value → Prop
  | root {f : Value} (h : f.isCallable = true) : Calls f f
  | element {kind : SeqKind} {items : List Value} {item f : Value} (hitem : item ∈ items)
      (h : Calls item f) : Calls (seq kind items) f
  | entry {kind : MappingKind} {entries : List (Value × Value)} {entry : Value × Value}
      {f : Value} (hentry : entry ∈ entries) (h : Calls entry.2 f) :
      Calls (mapping kind entries) f

/-- Trees in which nothing but computations of some sort can be called. -/
def CallsOnly (computations : Value → Prop) (tree : Value) : Prop :=
  ∀ f, tree.Calls f → computations f

/-- Whether a value stands for itself: there is no tree in it, and it cannot be called. -/
def isPlain : Value → Bool
  | seq _ items => items.all isScalar
  | mapping _ _ | deferred _ _ | method _ _ => false
  | _ => true

/-- Two entries under the same key. -/
inductive UnderSameKey (R : Value → Value → Prop) : Value × Value → Value × Value → Prop
  | intro {key child child' : Value} (h : R child child') :
      UnderSameKey R (key, child) (key, child')

/-- Trees that are the same but for places where a rule holds of what stands there: at the root,
under keys, or in lists.  A list of scalars is one value of several words, and has no places in
it. -/
inductive Replaces (rule : Value → Value → Prop) : Value → Value → Prop
  | root {value value' : Value} (h : rule value value') : Replaces rule value value'
  | plain {value : Value} (h : value.isPlain = true) : Replaces rule value value
  | list {kind : SeqKind} {items items' : List Value} (hitems : items.all isScalar = false)
      (hitems' : items'.all isScalar = false) (h : List.Forall₂ (Replaces rule) items items') :
      Replaces rule (seq kind items) (seq kind items')
  | mapping {kind : MappingKind} {entries entries' : List (Value × Value)}
      (h : List.Forall₂ (UnderSameKey (Replaces rule)) entries entries') :
      Replaces rule (mapping kind entries) (mapping kind entries')

variable {rule rule' : Value → Value → Prop} {computations : Value → Prop}

/-- Induction on trees that differ in some places. -/
@[elab_as_elim]
theorem Replaces.induction {motive : Value → Value → Prop} {tree tree' : Value}
    (h : Replaces rule tree tree')
    (root : ∀ {value value'}, rule value value' → motive value value')
    (plain : ∀ {value}, value.isPlain = true → motive value value)
    (list : ∀ {kind items items'}, items.all isScalar = false → items'.all isScalar = false →
      List.Forall₂ motive items items' → motive (seq kind items) (seq kind items'))
    (mapping : ∀ {kind entries entries'},
      List.Forall₂ (UnderSameKey motive) entries entries' →
        motive (.mapping kind entries) (.mapping kind entries')) : motive tree tree' :=
  @Replaces.rec rule (fun value value' _ => motive value value')
    (fun items items' _ => List.Forall₂ motive items items')
    (fun entries entries' _ => List.Forall₂ (UnderSameKey motive) entries entries')
    (fun entry entry' _ => UnderSameKey motive entry entry')
    root plain (fun hitems hitems' _ => list hitems hitems') (fun _ => mapping)
    .nil (fun _ _ => .cons) .nil (fun _ _ => .cons) (fun _ => .intro) tree tree' h

theorem CallsOnly.element {kind : SeqKind} {items : List Value}
    (h : (seq kind items).CallsOnly computations) {item : Value} (hitem : item ∈ items) :
    item.CallsOnly computations :=
  fun f hf => h f (.element hitem hf)

theorem CallsOnly.entry {kind : MappingKind} {entries : List (Value × Value)}
    (h : (mapping kind entries).CallsOnly computations) {entry : Value × Value}
    (hentry : entry ∈ entries) : entry.2.CallsOnly computations :=
  fun f hf => h f (.entry hentry hf)

theorem not_calls_of_isScalar {value f : Value} (h : value.isScalar = true) : ¬value.Calls f := by
  rintro (hcallable | _ | _)
  · cases value <;> simp_all [isScalar, isCallable]
  · cases h
  · cases h

/-- Nothing can be called in a plain value. -/
theorem callsOnly_of_isPlain {value : Value} (h : value.isPlain = true) :
    value.CallsOnly computations := by
  rintro f (hcallable | ⟨hitem, hf⟩ | _)
  · cases value <;> simp_all [isPlain, isCallable]
  · exact absurd hf (not_calls_of_isScalar (List.all_eq_true.1 h _ hitem))
  · cases h

@[simp] theorem callsOnly_seq_iff {kind : SeqKind} {items : List Value} :
    (seq kind items).CallsOnly computations ↔ ∀ item ∈ items, item.CallsOnly computations := by
  refine ⟨fun h item => h.element, fun h => ?_⟩
  rintro f (hcallable | ⟨hitem, hf⟩)
  · cases hcallable
  · exact h _ hitem f hf

@[simp] theorem callsOnly_mapping_iff {kind : MappingKind} {entries : List (Value × Value)} :
    (mapping kind entries).CallsOnly computations ↔
      ∀ entry ∈ entries, entry.2.CallsOnly computations := by
  refine ⟨fun h entry => h.entry, fun h => ?_⟩
  rintro f (hcallable | _ | ⟨hentry, hf⟩)
  · cases hcallable
  · exact h _ hentry f hf

/-- A computation calls only itself. -/
theorem callsOnly_iff_of_isCallable {f : Value} (h : f.isCallable = true) :
    f.CallsOnly computations ↔ computations f := by
  refine ⟨fun hcalls => hcalls f (.root h), fun hf => ?_⟩
  rintro g (- | _ | _)
  · exact hf
  · cases h
  · cases h

@[simp] theorem callsOnly_deferred_iff {id : Nat} {shown : Except Fault String} :
    (deferred id shown).CallsOnly computations ↔ computations (deferred id shown) :=
  callsOnly_iff_of_isCallable rfl

/-- A tree and itself, if the rule holds of what can be called in it. -/
theorem replaces_self {tree : Value} (h : tree.CallsOnly fun f => rule f f) :
    Replaces rule tree tree := by
  induction tree using tree_induction with
  | seq kind items ih =>
    cases hitems : items.all isScalar with
    | true => exact .plain hitems
    | false =>
      exact .list hitems hitems (List.forall₂_same.2 fun item hitem =>
        ih item hitem (h.element hitem))
  | mapping kind entries ih =>
    exact .mapping (List.forall₂_same.2 fun entry hentry =>
      .intro (ih entry hentry (h.entry hentry)))
  | other value hseq hmapping =>
    cases value with
    | seq => exact absurd rfl (hseq _ _)
    | mapping => exact absurd rfl (hmapping _ _)
    | deferred | method => exact .root (h _ (.root rfl))
    | none | bool | int | float | text | bytes | set | symbol | stream => exact .plain rfl

/-- One rule for another, which has to hold of parts of the tree only. -/
theorem Replaces.imp {tree tree' : Value} (h : Replaces rule tree tree')
    (htree : tree.CallsOnly computations)
    (himp : ∀ value value', rule value value' → value.CallsOnly computations →
      rule' value value') : Replaces rule' tree tree' := by
  revert htree
  refine h.induction ?root (fun hplain _ => .plain hplain) ?list ?mapping
  case root =>
    intro value value' hvalue htree
    exact .root (himp _ _ hvalue htree)
  case list =>
    intro kind items items' hitems hitems' ih htree
    have hcalls := (List.forall₂_and_left _ _).2 ⟨fun item hitem => htree.element hitem, ih⟩
    exact .list hitems hitems' (hcalls.imp fun _ _ ⟨hitem, ih⟩ => ih hitem)
  case mapping =>
    intro kind entries entries' ih htree
    have hcalls := (List.forall₂_and_left _ _).2 ⟨fun entry hentry => htree.entry hentry, ih⟩
    exact .mapping (hcalls.imp fun _ _ ⟨hentry, ⟨ih⟩⟩ => .intro (ih hentry))

end Value

/-! ## Runs that are put together -/

variable {σ : Type}

/-- A relation of runs that is kept where runs are put together. -/
structure Run.IsCongruence (R : ∀ {α : Type}, Run σ α → Run σ α → Prop) : Prop where
  ofExcept {α : Type} (result : Except Fault α) : R (Run.ofExcept result) (Run.ofExcept result)
  bind {α β : Type} {run run' : Run σ α} {next next' : α → Run σ β} :
    R run run' → (∀ a, R (next a) (next' a)) → R (run >>= next) (run' >>= next')

namespace Run.IsCongruence

variable {R : ∀ {α : Type}, Run σ α → Run σ α → Prop} {α β γ : Type}

/-- Equality is kept where runs are put together. -/
theorem eq : IsCongruence (σ := σ) Eq where
  ofExcept _ := rfl
  bind h hnext := by rw [h, funext hnext]

theorem pure (h : IsCongruence R) (a : α) : R (Pure.pure a : Run σ α) (Pure.pure a) :=
  h.ofExcept (.ok a)

theorem map (h : IsCongruence R) {run run' : Run σ α} (hrun : R run run') (g : α → β) :
    R (run >>= fun a => Pure.pure (g a)) (run' >>= fun a => Pure.pure (g a)) :=
  h.bind hrun fun a => h.pure (g a)

/-- Runs for the elements of two lists, one after the other. -/
theorem mapM (h : IsCongruence R) {f : β → Run σ α} {f' : γ → Run σ α} {bs : List β}
    {bs' : List γ} (hbs : List.Forall₂ (fun b b' => R (f b) (f' b')) bs bs') :
    R (bs.mapM f) (bs'.mapM f') := by
  induction hbs with
  | nil => exact h.pure []
  | cons hb _ ih =>
    rw [List.mapM_cons, List.mapM_cons]
    exact h.bind hb fun a => h.map ih fun as => a :: as

end Run.IsCongruence

/-! ## Declarations -/

namespace Value

/-- A plain value has the same declarations whatever the calls give. -/
theorem declarationsWith_of_isPlain {value : Value} (h : value.isPlain = true)
    (path : List String) :
    ∃ result, ∀ called : Value → List String → Run σ (List Declaration),
      declarationsWith called value path = Run.ofExcept result := by
  cases value with
  | none => exact ⟨.ok [], fun _ => rfl⟩
  | seq kind items =>
    cases items with
    | nil => exact ⟨.ok [], fun _ => rfl⟩
    | cons item rest =>
      refine ⟨leafDeclarations path (seq kind (item :: rest)), fun called => ?_⟩
      rw [isPlain] at h
      rw [declarationsWith, if_neg nofun, if_pos h]
  | mapping | deferred | method => cases h
  | bool | int | float | text | bytes | set | symbol | stream => exact ⟨_, fun _ => rfl⟩

/-- The declarations of a list with an element that is no scalar are those of its elements. -/
theorem declarationsWith_list {called : Value → List String → Run σ (List Declaration)}
    {kind : SeqKind} {items : List Value} (h : items.all isScalar = false) (path : List String) :
    declarationsWith called (seq kind items) path = do
      return (← items.mapM fun item => declarationsWith called item path).flatten := by
  cases items with
  | nil => cases h
  | cons item rest =>
    rw [declarationsWith, h, declarationsOfItems_eq]
    rfl

end Value

/-- The declarations of two trees are related if they are wherever the trees differ. -/
theorem Run.IsCongruence.declarationsWith_of_replaces
    {R : ∀ {α : Type}, Run σ α → Run σ α → Prop} (h : IsCongruence R)
    {called called' : Value → List String → Run σ (List Declaration)}
    {rule : Value → Value → Prop}
    (hrule : ∀ value value', rule value value' → ∀ path,
      R (Value.declarationsWith called value path) (Value.declarationsWith called' value' path))
    {tree tree' : Value} (hreplaces : tree.Replaces rule tree') (path : List String) :
    R (Value.declarationsWith called tree path) (Value.declarationsWith called' tree' path) := by
  revert path
  refine hreplaces.induction (hrule _ _) ?plain ?list ?mapping
  case plain =>
    intro value hplain path
    obtain ⟨result, hresult⟩ := Value.declarationsWith_of_isPlain hplain path
    rw [hresult, hresult]
    exact h.ofExcept result
  case list =>
    intro kind items items' hitems hitems' ih path
    rw [Value.declarationsWith_list hitems, Value.declarationsWith_list hitems']
    exact h.map (h.mapM (ih.imp fun _ _ hitem => hitem path)) List.flatten
  case mapping =>
    intro kind entries entries' ih path
    rw [Value.declarationsWith, Value.declarationsWith, Value.declarationsOfEntries_eq,
      Value.declarationsOfEntries_eq]
    refine h.map (h.mapM (ih.imp fun entry entry' hentry => ?_)) List.flatten
    obtain ⟨hchild⟩ := hentry
    refine h.bind (h.ofExcept _) fun fragments => h.map (h.mapM ?_) List.flatten
    exact List.forall₂_same.2 fun fragment _ => hchild (path ++ [fragment])

end Stylesheet
