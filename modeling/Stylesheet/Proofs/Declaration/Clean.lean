import Stylesheet.Proofs.Declaration.Tree
import Stylesheet.Proofs.Selector.Fragment

/-!
# What the declarations of a tree are like

Whatever tree they come from and whatever its deferred values do, declarations have fragments of
keys for selectors and properties, and their values are leaves.

## Main definitions

* `Run.Yields` — runs whose results have a property, if they give any.
* `Declaration.IsLeaf` — what declarations are like.

## Main statements

* `Value.yields_declarationsWith` — the induction on trees, given what deferred values yield.
* `isLeaf_of_declarations` — the declarations of a tree.
-/

namespace Stylesheet

open Selector (IsClean)

namespace Run

variable {σ α β : Type} {P : α → Prop} {Q : β → Prop}

/-- A run whose result has a property, if it gives one. -/
def Yields (P : α → Prop) (run : Run σ α) : Prop :=
  ∀ s a s', run.run.run s = (.ok a, s') → P a

theorem yields_ofExcept {result : Except Fault α} (h : ∀ a, result = .ok a → P a) :
    Yields P (Run.ofExcept result : Run σ α) := by
  intro s a s' hrun
  rw [run_ofExcept, Prod.mk.injEq] at hrun
  exact h a hrun.1

theorem yields_pure {a : α} (h : P a) : Yields P (pure a : Run σ α) :=
  yields_ofExcept fun _ ha => Except.ok.inj ha ▸ h

theorem yields_throw (fault : Fault) : Yields P (throw fault : Run σ α) :=
  yields_ofExcept fun _ ha => nomatch ha

theorem Yields.bind {first : Run σ α} {next : α → Run σ β} (h : Yields P first)
    (hnext : ∀ a, P a → Yields Q (next a)) : Yields Q (first >>= next) := by
  intro s b s' hrun
  rw [run_bind] at hrun
  rcases hfirst : first.run.run s with ⟨_ | a, s₁⟩
  · rw [hfirst] at hrun
    cases hrun
  · rw [hfirst] at hrun
    exact hnext a (h s a s₁ hfirst) s₁ b s' hrun

/-- Runs for the elements of a list, one after the other, yield results for each of them. -/
theorem yields_mapM_forall₂ {R : β → α → Prop} {f : β → Run σ α} {bs : List β}
    (h : ∀ b ∈ bs, Yields (R b) (f b)) : Yields (List.Forall₂ R bs) (bs.mapM f) := by
  induction bs with
  | nil => exact yields_pure .nil
  | cons b bs ih =>
    obtain ⟨hb, hbs⟩ := List.forall_mem_cons.1 h
    rw [List.mapM_cons]
    exact hb.bind fun a ha => (ih hbs).bind fun as has => yields_pure (.cons ha has)

theorem yields_mapM {f : β → Run σ α} {bs : List β} (h : ∀ b ∈ bs, Yields P (f b)) :
    Yields (fun as => ∀ a ∈ as, P a) (bs.mapM f) := by
  intro s as s' hrun
  have hresults : List.Forall₂ (fun _ a => P a) bs as := yields_mapM_forall₂ h s as s' hrun
  clear h hrun
  induction hresults with
  | nil => exact List.forall_mem_nil _
  | cons ha _ ih => exact List.forall_mem_cons.2 ⟨ha, ih⟩

end Run

/-- A declaration as a tree makes them: all that it is addressed by are fragments of keys, and its
value is not empty. -/
structure Declaration.IsLeaf (d : Declaration) : Prop where
  selector : ∀ fragment ∈ d.selector, IsClean fragment
  property : IsClean d.property
  value : d.value.kind ≠ .empty

namespace Value

variable {σ : Type} {path : List String}

/-- Declarations as a tree makes them. -/
abbrev AreLeaves (ds : List Declaration) : Prop :=
  ∀ d ∈ ds, d.IsLeaf

/-- A leaf has a declaration if there is a key above it. -/
theorem leafDeclarations_eq_ok {value : Value} {ds : List Declaration}
    (h : leafDeclarations path value = .ok ds) :
    ∃ property, path.getLast? = some property ∧ ds = [⟨path.dropLast, property, value⟩] := by
  unfold leafDeclarations at h
  split at h
  · next property hproperty => exact ⟨property, hproperty, (Except.ok.inj h).symm⟩
  · cases hshown : shown value <;> simp [hshown, bind, Except.bind] at h

theorem areLeaves_of_leafDeclarations (hpath : ∀ fragment ∈ path, IsClean fragment) {value : Value}
    (hvalue : value.kind ≠ .empty) {ds : List Declaration}
    (h : leafDeclarations path value = .ok ds) : AreLeaves ds := by
  obtain ⟨property, hproperty, rfl⟩ := leafDeclarations_eq_ok h
  intro d hd
  obtain rfl := List.mem_singleton.1 hd
  exact ⟨fun fragment hfragment => hpath fragment (List.dropLast_subset _ hfragment),
    hpath property (List.mem_of_getLast? hproperty), hvalue⟩

theorem yields_leaf (hpath : ∀ fragment ∈ path, IsClean fragment) {value : Value}
    (hvalue : value.kind ≠ .empty) :
    Run.Yields AreLeaves (Run.ofExcept (leafDeclarations path value) : Run σ (List Declaration)) :=
  Run.yields_ofExcept fun _ h => areLeaves_of_leafDeclarations hpath hvalue h

theorem yields_refuse {P : List Declaration → Prop} (value : Value) :
    Run.Yields P (Run.ofExcept (refuse path value) : Run σ (List Declaration)) := by
  refine Run.yields_ofExcept fun ds h => ?_
  unfold refuse at h
  cases hshown : shown value <;> simp [hshown, bind, Except.bind] at h

/-- Something that gives leaves at the end of a path of fragments. -/
def YieldsLeaves (tree : List String → Run σ (List Declaration)) : Prop :=
  ∀ path, (∀ fragment ∈ path, IsClean fragment) → Run.Yields AreLeaves (tree path)

variable {called : Value → List String → Run σ (List Declaration)}

/-- The fragments of a key are clean. -/
theorem yields_fragments (key : Value) :
    Run.Yields (fun fragments => ∀ fragment ∈ fragments, IsClean fragment)
      (Run.ofExcept key.fragments : Run σ (List String)) := by
  refine Run.yields_ofExcept fun fragments h => ?_
  cases htext : asText key with
  | error fault => simp [Value.fragments, htext] at h
  | ok s =>
    simp only [Value.fragments, htext] at h
    obtain rfl := Except.ok.inj h
    exact fun fragment hfragment => Selector.isClean_of_mem_fragments hfragment

/-- Lists of leaves make up one list of leaves. -/
theorem yields_flatten {lists : Run σ (List (List Declaration))}
    (h : Run.Yields (fun lists => ∀ ds ∈ lists, AreLeaves ds) lists) :
    Run.Yields AreLeaves (do return (← lists).flatten) := by
  refine h.bind fun lists hlists => Run.yields_pure fun d hd => ?_
  obtain ⟨ds, hds, hd⟩ := List.mem_flatten.1 hd
  exact hlists ds hds d hd

/-- A tree yields leaves at the end of a path of fragments, if the values that can be called do. -/
theorem yields_declarationsWith (hcalled : ∀ value, YieldsLeaves (called value)) (value : Value) :
    YieldsLeaves (declarationsWith called value) := by
  intro path hpath
  induction value using tree_induction generalizing path with
  | seq kind items ih =>
    rw [declarationsWith]
    split
    · exact Run.yields_pure (List.forall_mem_nil _)
    · next hempty =>
      split
      · next hall => exact yields_leaf hpath (by simp [Value.kind, hempty, hall])
      · rw [declarationsOfItems_eq]
        exact yields_flatten (Run.yields_mapM fun item hitem => ih item hitem path hpath)
  | mapping kind entries ih =>
    rw [declarationsWith, declarationsOfEntries_eq]
    refine yields_flatten (Run.yields_mapM fun entry hentry => ?_)
    refine (yields_fragments entry.1).bind fun fragments hclean => ?_
    refine yields_flatten (Run.yields_mapM fun fragment hfragment => ?_)
    refine ih entry hentry (path ++ [fragment]) (List.forall_mem_append.2 ⟨hpath, ?_⟩)
    simpa using hclean fragment hfragment
  | other value hseq hmapping =>
    cases value with
    | none => exact Run.yields_pure (List.forall_mem_nil _)
    | seq => exact absurd rfl (hseq _ _)
    | mapping => exact absurd rfl (hmapping _ _)
    | deferred id shown => exact hcalled (deferred id shown) path hpath
    | method m owner => exact hcalled (method m owner) path hpath
    | bool | int | float | text => exact yields_leaf hpath (by simp [kind])
    | bytes | set | symbol | stream => exact yields_refuse _

end Value

variable {σ : Type}

theorem yields_declarationsWithin (caller : Caller σ) (o : Options) (levels : Nat) (value : Value) :
    Value.YieldsLeaves (declarationsWithin caller o levels value) := by
  induction levels generalizing value with
  | zero => exact Value.yields_declarationsWith (fun _ _ _ => Run.yields_throw _) value
  | succ levels ih =>
    refine Value.yields_declarationsWith (fun value path hpath => ?_) value
    have hresolve : Run.Yields (fun _ => True) (resolve caller o value) := fun _ _ _ _ => trivial
    exact hresolve.bind fun given _ => ih given path hpath

/-- What the declarations of a tree are like. -/
theorem isLeaf_of_declarations {caller : Caller σ} {o : Options} {rules : Value} {s s' : σ}
    {ds : List Declaration} (h : (declarations caller o rules).run.run s = (.ok ds, s'))
    {d : Declaration} (hd : d ∈ ds) : d.IsLeaf :=
  yields_declarationsWithin caller o maxLevels rules [] (List.forall_mem_nil _) s ds s' h d hd

end Stylesheet
