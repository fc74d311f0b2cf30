import Stylesheet.Proofs.Declaration.Ledger

/-!
# Calls in a row

To find what a value stands for, it is called if it can be, and so is what it gives, and what that
gives in its turn.  The first value that cannot be called ends this, as does a call that fails, and
no more calls are made than there may be.  If the last one still gives something that can be called,
the value is given up, with a message that shows what was given.  Showing that may fail, and then
the value is given up for this fault: a method, for one, shows the options that it belongs to, and
there may be an integer of too many digits in them.

## Main definitions

* `Caller.Leads` — what a value leads to by a number of calls in a row.
* `Caller.IsResolution` — what comes of resolving a value, from what it leads to.

## Main statements

* `Caller.run_resolveWithin_of_leads` — resolving a value goes on from what it leads to, with the
  calls that are left.
* `Caller.isResolution_resolve` — what comes of resolving a value.
* `Ledger.leads_chain`, `Ledger.isOk_resolve_chain_iff` — a chain leads to its value by its number
  of calls, and stands for it if they are few enough.
-/

namespace Stylesheet

variable {σ : Type}

namespace Caller

/-- What a value leads to by a number of calls in a row, each of something that can be called, and
the state after the last of them. -/
inductive Leads (caller : Caller σ) (o : Options) : Nat → Value → σ → Value → σ → Prop where
  | none (value : Value) (s : σ) : Leads caller o 0 value s value s
  | call {calls : Nat} {value given last : Value} {s s₁ s' : σ} (hkind : value.kind = .function)
      (hcall : (value.call caller o).run.run s = (.ok given, s₁))
      (hrest : Leads caller o calls given s₁ last s') : Leads caller o (calls + 1) value s last s'

variable {caller : Caller σ} {o : Options} {value w : Value} {s s₁ s' : σ} {calls more : Nat}

namespace Leads

theorem trans {last : Value} (h : caller.Leads o calls value s w s₁)
    (h' : caller.Leads o more w s₁ last s') : caller.Leads o (calls + more) value s last s' := by
  induction h with
  | none => simpa using h'
  | call hkind hcall _ ih =>
    rw [Nat.add_right_comm]
    exact .call hkind hcall (ih h')

/-- What a value leads to by fewer calls can be called. -/
theorem exists_of_lt (h : caller.Leads o calls value s w s') (hmore : more < calls) :
    ∃ u t, caller.Leads o more value s u t ∧ u.kind = .function := by
  induction h generalizing more with
  | none => exact absurd hmore (Nat.not_lt_zero _)
  | call hkind hcall _ ih =>
    cases more with
    | zero => exact ⟨_, _, .none _ _, hkind⟩
    | succ more =>
      obtain ⟨u, t, hu, hkind'⟩ := ih (Nat.lt_of_succ_lt_succ hmore)
      exact ⟨u, t, .call hkind hcall hu, hkind'⟩

end Leads

/-! ## Resolving with a number of calls -/

theorem run_resolveWithin_succ (hkind : value.kind = .function) {given : Value}
    (hcall : (value.call caller o).run.run s = (.ok given, s₁)) :
    (resolveWithin caller o (calls + 1) value).run.run s =
      (resolveWithin caller o calls given).run.run s₁ := by
  rw [resolveWithin, if_pos (Value.kind_eq_function_iff.1 hkind), Run.run_bind, hcall]

/-- Resolving a value goes on from what it leads to, with the calls that are left. -/
theorem run_resolveWithin_of_leads (h : caller.Leads o calls value s w s') (left : Nat) :
    (resolveWithin caller o (calls + left) value).run.run s =
      (resolveWithin caller o left w).run.run s' := by
  induction h with
  | none => rw [Nat.zero_add]
  | call hkind hcall _ ih => rw [Nat.add_right_comm, run_resolveWithin_succ hkind hcall, ih]

/-- A value that cannot be called stands for itself, without a call. -/
theorem run_resolveWithin_of_kind (hkind : value.kind ≠ .function) :
    (resolveWithin caller o calls value).run.run s = (.ok value, s) := by
  have hcallable : ¬ value.isCallable = true := mt Value.kind_eq_function_iff.2 hkind
  cases calls <;> rw [resolveWithin, if_neg hcallable] <;> rfl

/-- A call that fails ends it. -/
theorem run_resolveWithin_of_error (hkind : value.kind = .function) {fault : Fault}
    (hcall : (value.call caller o).run.run s = (.error fault, s')) :
    (resolveWithin caller o (calls + 1) value).run.run s = (.error fault, s') := by
  rw [resolveWithin, if_pos (Value.kind_eq_function_iff.1 hkind), Run.run_bind, hcall]

/-- Without calls left, a value that can be called is given up. -/
theorem run_resolveWithin_zero (hkind : value.kind = .function) :
    (resolveWithin caller o 0 value).run.run s =
      (match value.shown with
        | .ok text => .error (.unresolved maxCalls text)
        | .error fault => .error fault, s) := by
  rw [resolveWithin, if_pos (Value.kind_eq_function_iff.1 hkind), Run.run_bind, Run.run_ofExcept]
  cases value.shown <;> rfl

/-- With a number of calls, a value leads to one that cannot be called, or to one that still can be
after the last of them, or to a call that fails. -/
theorem exists_leads (limit : Nat) (value : Value) (s : σ) :
    (∃ n ≤ limit, ∃ w s', caller.Leads o n value s w s' ∧ w.kind ≠ .function) ∨
      (∃ w s', caller.Leads o limit value s w s' ∧ w.kind = .function) ∨
      ∃ n < limit, ∃ w s₁ fault s', caller.Leads o n value s w s₁ ∧ w.kind = .function ∧
        (w.call caller o).run.run s₁ = (.error fault, s') := by
  induction limit generalizing value s with
  | zero =>
    by_cases hkind : value.kind = .function
    · exact .inr (.inl ⟨value, s, .none value s, hkind⟩)
    · exact .inl ⟨0, Nat.le_refl 0, value, s, .none value s, hkind⟩
  | succ limit ih =>
    by_cases hkind : value.kind = .function
    · rcases hcall : (value.call caller o).run.run s with ⟨fault | given, s₁⟩
      · exact .inr (.inr ⟨0, Nat.succ_pos limit, value, s, fault, s₁, .none value s, hkind, hcall⟩)
      · rcases ih given s₁ with ⟨n, hn, w, s', hleads, hw⟩ | ⟨w, s', hleads, hw⟩ |
          ⟨n, hn, w, s₂, fault, s', hleads, hw, hfault⟩
        · exact .inl ⟨n + 1, Nat.succ_le_succ hn, w, s', .call hkind hcall hleads, hw⟩
        · exact .inr (.inl ⟨w, s', .call hkind hcall hleads, hw⟩)
        · exact .inr (.inr ⟨n + 1, Nat.succ_lt_succ hn, w, s₂, fault, s',
            .call hkind hcall hleads, hw, hfault⟩)
    · exact .inl ⟨0, Nat.zero_le _, value, s, .none value s, hkind⟩

/-! ## Resolving -/

/-- What comes of resolving a value, together with its kind, and the state after it. -/
structure IsResolution (caller : Caller σ) (o : Options) (value : Value) (s : σ)
    (outcome : Except Fault (Value × Kind) × σ) : Prop where
  /-- The first value that cannot be called is what the value stands for. -/
  given {n : Nat} {w : Value} {s' : σ} (hn : n ≤ 64) (hleads : caller.Leads o n value s w s')
    (hkind : w.kind ≠ .function) : outcome = (.ok (w, w.kind), s')
  /-- A call that fails before is the fault. -/
  failed {n : Nat} {w : Value} {fault : Fault} {s₁ s' : σ} (hn : n < 64)
    (hleads : caller.Leads o n value s w s₁) (hkind : w.kind = .function)
    (hcall : (w.call caller o).run.run s₁ = (.error fault, s')) : outcome = (.error fault, s')
  /-- A value that can still be called after the last call is shown in the fault.  If it cannot be
  shown, the reason for this is the fault. -/
  unresolved {w : Value} {s' : σ} (hleads : caller.Leads o 64 value s w s')
    (hkind : w.kind = .function) :
    (∃ shown, w.shown = .ok shown ∧ outcome = (.error (.unresolved 64 shown), s')) ∨
      ∃ fault, w.shown = .error fault ∧ outcome = (.error fault, s')
  /-- There is no other way for the calls to go. -/
  complete :
    (∃ n ≤ 64, ∃ w s', caller.Leads o n value s w s' ∧ w.kind ≠ .function) ∨
      (∃ w s', caller.Leads o 64 value s w s' ∧ w.kind = .function) ∨
      ∃ n < 64, ∃ w s₁ fault s', caller.Leads o n value s w s₁ ∧ w.kind = .function ∧
        (w.call caller o).run.run s₁ = (.error fault, s')
  /-- A chain of calls that ends stands for something iff it is short enough. -/
  succeeds_iff {n : Nat} {w : Value} {s' : σ} (hleads : caller.Leads o n value s w s')
    (hkind : w.kind ≠ .function) : (∃ result, outcome.1 = .ok result) ↔ n ≤ 64

theorem run_resolveWithin_of_leads_kind {limit : Nat} (hn : calls ≤ limit)
    (h : caller.Leads o calls value s w s') (hkind : w.kind ≠ .function) :
    (resolveWithin caller o limit value).run.run s = (.ok w, s') := by
  obtain ⟨left, rfl⟩ := Nat.exists_eq_add_of_le hn
  rw [run_resolveWithin_of_leads h, run_resolveWithin_of_kind hkind]

theorem run_resolveWithin_of_leads_error {limit : Nat} {fault : Fault} (hn : calls < limit)
    (h : caller.Leads o calls value s w s₁) (hkind : w.kind = .function)
    (hcall : (w.call caller o).run.run s₁ = (.error fault, s')) :
    (resolveWithin caller o limit value).run.run s = (.error fault, s') := by
  obtain ⟨left, rfl⟩ := Nat.exists_eq_add_of_lt hn
  rw [Nat.add_assoc, run_resolveWithin_of_leads h, run_resolveWithin_of_error hkind hcall]

/-- After the last call, what can still be called is given up. -/
theorem run_resolveWithin_of_leads_all (h : caller.Leads o calls value s w s')
    (hkind : w.kind = .function) :
    (∃ shown, w.shown = .ok shown ∧
        (resolveWithin caller o calls value).run.run s =
          (.error (.unresolved maxCalls shown), s')) ∨
      ∃ fault, w.shown = .error fault ∧
        (resolveWithin caller o calls value).run.run s = (.error fault, s') := by
  have hrun := run_resolveWithin_of_leads h 0
  rw [Nat.add_zero, run_resolveWithin_zero hkind] at hrun
  cases hshown : w.shown with
  | ok shown =>
    rw [hshown] at hrun
    exact .inl ⟨shown, rfl, hrun⟩
  | error fault =>
    rw [hshown] at hrun
    exact .inr ⟨fault, rfl, hrun⟩

/-- A number of calls is enough for the values that lead to something by no more. -/
theorem isOk_resolveWithin_iff {limit : Nat} (h : caller.Leads o calls value s w s')
    (hkind : w.kind ≠ .function) :
    (∃ result, ((resolveWithin caller o limit value).run.run s).1 = .ok result) ↔
      calls ≤ limit := by
  constructor
  · rintro ⟨result, hok⟩
    by_contra hlong
    -- There is something left to call when the calls are used up.
    obtain ⟨u, t, hu, hfunction⟩ := h.exists_of_lt (Nat.lt_of_not_le hlong)
    obtain ⟨shown, -, hrun⟩ | ⟨fault, -, hrun⟩ := run_resolveWithin_of_leads_all hu hfunction <;>
      rw [hrun] at hok <;> cases hok
  · intro hn
    rw [run_resolveWithin_of_leads_kind hn h hkind]
    exact ⟨w, rfl⟩

/-- The kind of what a run gives, beside it. -/
theorem run_withKind (run : Run σ Value) (s : σ) :
    (do let w ← run; return (w, w.kind) : Run σ (Value × Kind)).run.run s =
      match run.run.run s with
      | (.ok w, s') => (.ok (w, w.kind), s')
      | (.error fault, s') => (.error fault, s') := by
  rw [Run.run_bind]
  rcases run.run.run s with ⟨_ | _, _⟩ <;> rfl

/-- What comes of resolving a value, by what it leads to. -/
theorem isResolution_resolve (caller : Caller σ) (o : Options) (value : Value) (s : σ) :
    caller.IsResolution o value s
      ((do let w ← resolve caller o value; return (w, w.kind)).run.run s) := by
  rw [run_withKind, resolve, maxCalls]
  constructor
  case given =>
    intro n w s' hn hleads hkind
    rw [run_resolveWithin_of_leads_kind hn hleads hkind]
  case failed =>
    intro n w fault s₁ s' hn hleads hkind hcall
    rw [run_resolveWithin_of_leads_error hn hleads hkind hcall]
  case unresolved =>
    intro w s' hleads hkind
    obtain ⟨shown, hshown, hrun⟩ | ⟨fault, hfault, hrun⟩ :=
      run_resolveWithin_of_leads_all hleads hkind
    · exact .inl ⟨shown, hshown, by rw [hrun]; rfl⟩
    · exact .inr ⟨fault, hfault, by rw [hrun]⟩
  case complete => exact exists_leads 64 value s
  case succeeds_iff =>
    intro n w s' hleads hkind
    rw [← isOk_resolveWithin_iff hleads hkind]
    rcases (resolveWithin caller o 64 value).run.run s with ⟨_ | w', s'⟩
    · exact ⟨nofun, nofun⟩
    · exact ⟨fun _ => ⟨w', rfl⟩, fun _ => ⟨_, rfl⟩⟩

end Caller

/-! ## Chains -/

namespace Ledger

/-- A chain leads to its value by its number of calls. -/
theorem leads_chain {id calls : Nat} {shown : Except Fault String} {o : Options} {value : Value}
    {ledger : Ledger}
    (h : ledger.computations[id]? = some (.chain (calls + 1 : Nat) value)) :
    ∃ ledger', Caller.Leads call o (calls + 1) (.deferred id shown) ledger value ledger' ∧
      ledger.Extends ledger' := by
  induction calls generalizing id shown ledger with
  | zero =>
    have hcall : (call (.options o) id).run.run ledger = (.ok value, ledger.entering id) := by
      rw [run_call, h]
      rfl
    exact ⟨ledger.entering id, .call rfl hcall (.none value _), fun _ _ h => h⟩
  | succ calls ih =>
    let next : Computation := .chain (calls + 1 : Nat) value
    have hcall : (call (.options o) id).run.run ledger =
        (.ok (entered ledger.computations.size), ((ledger.entering id).enter next).2) := by
      rw [run_call, h]
      dsimp only
      rw [perform, if_neg (by omega)]
      have hnext : ((calls + 1 + 1 : Nat) : Int) - 1 = (calls + 1 : Nat) := by omega
      rw [hnext]
      rfl
    have hentered : ((ledger.entering id).enter next).2.computations[ledger.computations.size]? =
        some next := Array.getElem?_push_size
    obtain ⟨ledger', hleads, hextends⟩ := ih hentered
    exact ⟨ledger', .call rfl hcall hleads,
      (extends_enter (ledger.entering id) next).trans hextends⟩

/-- A chain stands for its value iff it is no longer than calls may be made. -/
theorem isOk_resolve_chain_iff {id calls : Nat} {shown : Except Fault String} {o : Options}
    {value : Value} {ledger : Ledger}
    (h : ledger.computations[id]? = some (.chain (calls + 1 : Nat) value))
    (hkind : value.kind ≠ .function) :
    (∃ result, ((resolve call o (.deferred id shown)).run.run ledger).1 = .ok result) ↔
      calls + 1 ≤ maxCalls := by
  obtain ⟨ledger', hleads, -⟩ := leads_chain h
  exact Caller.isOk_resolveWithin_iff hleads hkind

/-- A chain of one call less than there may be, and the attribute that it gives. -/
def attrAfterChain : Ledger := of #[.chain 63 (entered 1), .attr "keys"]

/-- Options with an integer of too many digits, which cannot be shown. -/
def longOptions : Options :=
  { Options.default with extras := [(.text "big", .int (Nat.pow 10 IntegerText.maxDigits))] }

/-- The method that the options have as that attribute. -/
def keysMethod : Value := .method (.reading "Mapping" "keys") longOptions.toValue

theorem leads_attrAfterChain : ∃ ledger', Caller.Leads call longOptions 64 (entered 0)
    attrAfterChain keysMethod ledger' := by
  have hentered : attrAfterChain.computations[0]? = some (.chain (62 + 1 : Nat) (entered 1)) :=
    rfl
  obtain ⟨ledger, hleads, hextends⟩ := leads_chain (o := longOptions) hentered
  have hattr : ledger.computations[1]? = some (.attr "keys") := hextends 1 _ rfl
  have hcall : (call (.options longOptions) 1).run.run ledger =
      (.ok keysMethod, ledger.entering 1) := by
    rw [run_call, hattr]
    rfl
  exact ⟨ledger.entering 1, hleads.trans (.call rfl hcall (.none keysMethod _))⟩

/-- A method is shown with the options that it belongs to. -/
theorem shown_keysMethod : keysMethod.shown = .error .tooManyDigits := by
  decide +kernel

/-- What can still be called after the last call need not be told of: a method of options that hold
an integer of too many digits cannot be shown, for one. -/
theorem not_forall_unresolved :
    ¬ ∀ (o : Options) (value w : Value) (s s' : Ledger),
      Caller.Leads call o 64 value s w s' → w.kind = .function →
      ∃ shown, ((resolve call o value).run.run s).1 = .error (.unresolved 64 shown) := by
  intro h
  obtain ⟨ledger, hleads⟩ := leads_attrAfterChain
  obtain ⟨text, htext⟩ := h longOptions (entered 0) keysMethod attrAfterChain ledger hleads rfl
  obtain ⟨shown, hshown, -⟩ | ⟨fault, hfault, hrun⟩ :=
    Caller.run_resolveWithin_of_leads_all hleads rfl
  · cases hshown.symm.trans shown_keysMethod
  · obtain rfl := Except.error.inj (hfault.symm.trans shown_keysMethod)
    rw [resolve, maxCalls, hrun] at htext
    cases htext

end Ledger

end Stylesheet
