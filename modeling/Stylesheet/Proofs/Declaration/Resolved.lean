import Stylesheet.Proofs.Declaration.Ledger

/-!
# Computations and what they stand for

A rule tree may hold computations, and what is declared in it is declared as well if some of them
are replaced by what they stand for.  The computations have to be pure: what they give must be the
same when the one tree is converted as when the other is.

## Main definitions

* `Value.IsResolvedTo` — a computation, and what it has come to stand for.
* `Run.Refines` — what is done with success is also done with success in another run.

## Main statements

* `refines_declarationsWithin` — trees of computations that are alike have the same declarations.
* `declarations_resolved` — a tree in which computations are replaced by what they stand for.
-/

namespace Stylesheet

variable {σ : Type} {caller : Caller σ} {o : Options}

/-- A value is left as it is, or is a computation that was found to stand for a value: it was called
after the first state, and the second came after that. -/
def Value.IsResolvedTo (caller : Caller σ) (o : Options) (start t : σ) (value value' : Value) :
    Prop :=
  value = value' ∨ value.isCallable = true ∧ ∃ r r', caller.Reaches start r ∧
    (resolve caller o value).run.run r = (.ok value', r') ∧ caller.Reaches r' t

/-! ## Runs -/

/-- What a run gives in a state that is reached from one, another run gives in all that are reached
from another. -/
def Run.Refines (caller : Caller σ) (start start' : σ) :
    ∀ {α : Type}, Run σ α → Run σ α → Prop := fun {α} run run' =>
  ∀ s t (a : α) s', caller.Reaches start s → caller.Reaches start' t →
    run.run.run s = (.ok a, s') →
      caller.Reaches s s' ∧ ∃ t', run'.run.run t = (.ok a, t') ∧ caller.Reaches t t'

namespace Run

theorem isCongruence_refines (start start' : σ) : IsCongruence (Refines caller start start') where
  ofExcept result := by
    intro s t a s' _ _ hrun
    cases hrun
    exact ⟨.refl, t, rfl, .refl⟩
  bind h hnext := by
    intro s t b s' hs ht hrun
    obtain ⟨a, s₁, hfirst, hrun⟩ := run_bind_eq_ok.1 hrun
    obtain ⟨hs₁, t₁, hfirst', ht₁⟩ := h s t a s₁ hs ht hfirst
    obtain ⟨hs', t', hrun', ht'⟩ := hnext a s₁ t₁ b s' (hs.trans hs₁) (ht.trans ht₁) hrun
    exact ⟨hs₁.trans hs', t', run_bind_eq_ok.2 ⟨a, t₁, hfirst', hrun'⟩, ht₁.trans ht'⟩

/-- A run that always fails gives nothing. -/
theorem refines_throw {start start' : σ} {α : Type} {fault : Fault} {run' : Run σ α} :
    Refines caller start start' (throw fault) run' := by
  intro s t a s' _ _ hrun
  cases hrun

end Run

/-! ## Declarations -/

open Value (declarationsWith)

theorem declarationsWith_of_isCallable {called : Value → List String → Run σ (List Declaration)}
    {f : Value} (h : f.isCallable = true) (path : List String) :
    declarationsWith called f path = called f path := by
  cases f <;> first | rfl | cases h

/-- Trees that are the same but for computations that are alike have the same declarations, if there
are levels enough for them. -/
theorem refines_declarationsWithin {alike : σ → σ → Value → Value → Prop}
    (h : caller.IsLikeness o alike) {levels levels' : Nat} (hlevels : levels ≤ levels')
    {start start' : σ} {tree tree' : Value} (htree : tree.Replaces (alike start start') tree')
    (path : List String) :
    Run.Refines caller start start' (declarationsWithin caller o levels tree path)
      (declarationsWithin caller o levels' tree' path) := by
  induction levels generalizing levels' start start' tree tree' path with
  | zero =>
    have hrule : ∀ f g, alike start start' f g → ∀ called' path, Run.Refines caller start start'
        (declarationsWith (fun _ _ => throw .tooDeep) f path)
        (declarationsWith called' g path) := by
      intro f g halike called' path
      rw [declarationsWith_of_isCallable (h.isCallable halike).1]
      exact Run.refines_throw
    cases levels' <;>
      exact (Run.isCongruence_refines start start').declarationsWith_of_replaces
        (fun f g halike => hrule f g halike _) htree path
  | succ levels ih =>
    cases levels' with
    | zero => cases hlevels
    | succ levels' =>
      refine (Run.isCongruence_refines start start').declarationsWith_of_replaces ?_ htree path
      intro f g halike path
      rw [declarationsWith_of_isCallable (h.isCallable halike).1,
        declarationsWith_of_isCallable (h.isCallable halike).2]
      intro s t ds s' hs ht hrun
      obtain ⟨value, s₁, hresolve, hrun⟩ := Run.run_bind_eq_ok.1 hrun
      obtain ⟨value', t₁, hresolve', hvalue⟩ :=
        h.resolve (.root (h.later halike hs ht)) hresolve
      obtain ⟨hs', t', hrun', ht'⟩ := ih (Nat.le_of_succ_le_succ hlevels) hvalue path
        s₁ t₁ ds s' .refl .refl hrun
      exact ⟨(Caller.reaches_resolve hresolve).trans hs', t',
        Run.run_bind_eq_ok.2 ⟨value', t₁, hresolve', hrun'⟩,
        (Caller.reaches_resolve hresolve').trans ht'⟩

/-- A computation has the declarations of what it has come to stand for. -/
theorem refines_of_resolved {alike : σ → σ → Value → Value → Prop} (h : caller.IsLikeness o alike)
    {levels levels' : Nat} (hlevels : levels ≤ levels') {start s t r r' : σ} {f value : Value}
    (hf : alike start start f f) (hs : caller.Reaches start s) (hr : caller.Reaches start r)
    (hresolved : (resolve caller o f).run.run r = (.ok value, r')) (ht : caller.Reaches r' t)
    (path : List String) :
    Run.Refines caller s t
      (do declarationsWithin caller o levels (← resolve caller o f) path)
      (declarationsWithin caller o levels' value path) := by
  intro s₀ t₀ ds s' hs₀ ht₀ hrun
  obtain ⟨value₁, s₁, hresolve, hrun⟩ := Run.run_bind_eq_ok.1 hrun
  obtain ⟨value', r'', hresolve', hvalue⟩ :=
    h.resolve (.root (h.later hf (hs.trans hs₀) hr)) hresolve
  obtain ⟨hvalue', rfl⟩ := Prod.mk.inj (hresolved.symm.trans hresolve')
  obtain rfl := Except.ok.inj hvalue'
  obtain ⟨hs', t', hrun', ht'⟩ :=
    refines_declarationsWithin h hlevels (h.replaces_later hvalue .refl (ht.trans ht₀)) path
      s₁ t₀ ds s' .refl .refl hrun
  exact ⟨(Caller.reaches_resolve hresolve).trans hs', t', hrun', ht'⟩

theorem refines_of_isResolvedTo {alike : σ → σ → Value → Value → Prop}
    (h : caller.IsLikeness o alike) (levels : Nat) {start s t : σ} {tree tree' : Value}
    (htree : tree.CallsOnly fun f => alike start start f f)
    (hresolved : tree.Replaces (Value.IsResolvedTo caller o start t) tree')
    (hs : caller.Reaches start s) (ht : caller.Reaches start t) (path : List String) :
    Run.Refines caller s t (declarationsWithin caller o levels tree path)
      (declarationsWithin caller o levels tree' path) := by
  have hsame : ∀ value, value.CallsOnly (fun f => alike start start f f) → ∀ path,
      Run.Refines caller s t (declarationsWithin caller o levels value path)
        (declarationsWithin caller o levels value path) := fun value hvalue =>
    refines_declarationsWithin h (Nat.le_refl levels)
      (h.replaces_later (Value.replaces_self hvalue) hs ht)
  have hpure := hresolved.imp htree fun _ _ hresolved hcalls => And.intro hresolved hcalls
  cases levels with
  | zero =>
    refine (Run.isCongruence_refines s t).declarationsWith_of_replaces ?_ hpure path
    rintro value _ ⟨rfl | ⟨hcallable, -⟩, hvalue⟩ path
    · exact hsame value hvalue path
    · rw [declarationsWith_of_isCallable hcallable]
      exact Run.refines_throw
  | succ levels =>
    refine (Run.isCongruence_refines s t).declarationsWith_of_replaces ?_ hpure path
    rintro value _ ⟨rfl | ⟨hcallable, r, r', hr, hresolve, ht'⟩, hvalue⟩ path
    · exact hsame value hvalue path
    · rw [declarationsWith_of_isCallable hcallable]
      exact refines_of_resolved h (Nat.le_succ levels) (hvalue value (.root hcallable)) hs hr
        hresolve ht' path

/-- Rules from which something is declared, and in which nothing but pure computations is called,
declare the same if computations are replaced by what they stand for. -/
theorem declarations_resolved {start s s' t : σ} {rules rules' : Value} {ds : List Declaration}
    (hpure : rules.IsPure caller o start)
    (hrules : rules.Replaces (Value.IsResolvedTo caller o start t) rules')
    (hs : caller.Reaches start s) (ht : caller.Reaches start t)
    (hrun : (declarations caller o rules).run.run s = (.ok ds, s')) :
    ∃ t', (declarations caller o rules').run.run t = (.ok ds, t') := by
  obtain ⟨alike, hlikeness, hcalls⟩ := hpure
  obtain ⟨-, t', hrun', -⟩ := refines_of_isResolvedTo hlikeness maxLevels hcalls hrules hs ht []
    s t ds s' .refl .refl hrun
  exact ⟨t', hrun'⟩

/-- A ledger of a mapping with a computation in it, of a chain of three calls, and of the unit. -/
def resolvedLedger : Ledger :=
  .of #[.give (.mapping .plain [(.text "left", Ledger.entered 2)]), .chain 3 (.text "red"),
    .attr "unit"]

/-- Rules with computations under keys and in a list, and what is put in the place of two. -/
def resolvedRules (color sides : Value) : Value :=
  .mapping .plain
    [(.text "color", color),
     (.text "b, i", .seq .list [sides, .mapping .plain [(.text "top", .int 1)]]),
     (.text "margin", Ledger.entered 2)]

theorem isSteady_resolvedLedger : resolvedLedger.IsSteady .default where
  computations {id computation} hid := by
    have hmem : computation ∈ resolvedLedger.computations := Array.mem_of_getElem? hid
    simp only [resolvedLedger, Ledger.of, List.mem_toArray, List.mem_cons, List.not_mem_nil,
      or_false] at hmem
    rcases hmem with rfl | rfl | rfl
    · simp [Computation.IsSteady, Ledger.entered, Ledger.Enters, Ledger.of, resolvedLedger]
    · exact Value.callsOnly_of_isPlain rfl
    · trivial
  options := Ledger.callsOnly_default

theorem isPure_resolvedRules :
    (resolvedRules (Ledger.entered 1) (Ledger.entered 0)).IsPure Ledger.call .default
      resolvedLedger := by
  refine Ledger.isPure isSteady_resolvedLedger ?_
  have hsize : resolvedLedger.computations.size = 3 := rfl
  simp only [resolvedRules, Ledger.entered, Ledger.Enters, hsize, Value.callsOnly_mapping_iff,
    Value.callsOnly_seq_iff, Value.callsOnly_deferred_iff, List.forall_mem_cons]
  refine ⟨by decide, ⟨by decide, ⟨Value.callsOnly_of_isPlain rfl, ?_⟩, ?_⟩, by decide, ?_⟩
  all_goals exact List.forall_mem_nil _

/-- What is declared in `resolvedRules`, as text. -/
def resolvedTexts : List (List String × String × Except Fault String) :=
  [([], "color", .ok "red"), (["b"], "left", .ok "px"), (["b"], "top", .ok "1"),
    (["i"], "left", .ok "px"), (["i"], "top", .ok "1"), ([], "margin", .ok "px")]

theorem declarations_resolved_chain :
    ∃ t ds s' t', ds.map (fun d => (d.selector, d.property, d.value.asText)) = resolvedTexts ∧
      (declarations Ledger.call .default
        (resolvedRules (Ledger.entered 1) (Ledger.entered 0))).run.run resolvedLedger =
          (.ok ds, s') ∧
      (declarations Ledger.call .default (resolvedRules (.text "red")
        (.mapping .plain [(.text "left", Ledger.entered 2)]))).run.run t = (.ok ds, t') := by
  let r : Ledger := ⟨resolvedLedger.computations ++
    #[.chain 2 (.text "red"), .chain 1 (.text "red")], [4, 3, 1], []⟩
  let t : Ledger := r.entering 0
  have hcolor : (resolve Ledger.call .default (Ledger.entered 1)).run.run resolvedLedger =
      (.ok (.text "red"), r) := rfl
  have hsides : (resolve Ledger.call .default (Ledger.entered 0)).run.run r =
      (.ok (.mapping .plain [(.text "left", Ledger.entered 2)]), t) := rfl
  have hr : Caller.Reaches Ledger.call resolvedLedger r := Caller.reaches_resolve hcolor
  have ht : Caller.Reaches Ledger.call r t := Caller.reaches_resolve hsides
  have hrules : (resolvedRules (Ledger.entered 1) (Ledger.entered 0)).Replaces
      (Value.IsResolvedTo Ledger.call .default resolvedLedger t)
      (resolvedRules (.text "red") (.mapping .plain [(.text "left", Ledger.entered 2)])) :=
    .mapping (.cons (.intro (.root (.inr ⟨rfl, _, _, .refl, hcolor, ht⟩)))
      (.cons (.intro (.list rfl rfl (.cons (.root (.inr ⟨rfl, _, _, hr, hsides, .refl⟩))
        (.cons (.root (.inl rfl)) .nil))))
      (.cons (.intro (.root (.inl rfl))) .nil)))
  have hdeclared : ((declarations Ledger.call .default
      (resolvedRules (Ledger.entered 1) (Ledger.entered 0))).run.run resolvedLedger).1.map
        (List.map fun d => (d.selector, d.property, d.value.asText)) = .ok resolvedTexts := by
    decide +kernel
  rcases hrun : (declarations Ledger.call .default
    (resolvedRules (Ledger.entered 1) (Ledger.entered 0))).run.run resolvedLedger
    with ⟨fault | ds, s'⟩
  · rw [hrun] at hdeclared
    cases hdeclared
  · rw [hrun, Except.map, Except.ok.injEq] at hdeclared
    obtain ⟨t', hrun'⟩ := declarations_resolved isPure_resolvedRules hrules .refl (hr.trans ht) hrun
    exact ⟨t, ds, s', t', hdeclared, rfl, hrun'⟩

end Stylesheet
