import Mathlib.Logic.Relation
import Stylesheet.Proofs.Declaration.Replacement

/-!
# Pure computations

What a pure computation gives depends on the options, and not on the state that it is called in.  It
may still give another computation that is made anew with every call, so what is called at different
times is not the same value: it gives the same, and so does what can be called in that, in turn.

## Main definitions

* `Caller.Reaches` — the states that a state comes to by calls.
* `Caller.IsLikeness` — computations that give the same, each in a state of its own.
* `Value.IsPure` — trees of computations that give the same in all states to come.

## Main statements

* `Caller.callMethod_eq_ok` — methods are pure.
* `Caller.IsLikeness.resolve` — computations that give the same stand for the same.
-/

namespace Stylesheet

variable {σ : Type}

/-- A run of two parts gives something if both do. -/
theorem Run.run_bind_eq_ok {α β : Type} {first : Run σ α} {next : α → Run σ β} {s s' : σ} {b : β} :
    (first >>= next).run.run s = (.ok b, s') ↔
      ∃ a s₁, first.run.run s = (.ok a, s₁) ∧ (next a).run.run s₁ = (.ok b, s') := by
  rw [run_bind]
  rcases first.run.run s with ⟨fault | a, s₁⟩
  · exact ⟨nofun, nofun⟩
  · refine ⟨fun h => ⟨a, s₁, rfl, h⟩, fun h => ?_⟩
    obtain ⟨_, _, hfirst, h⟩ := h
    cases hfirst
    exact h

/-- The states that a state comes to by calls. -/
def Caller.Reaches (caller : Caller σ) : σ → σ → Prop :=
  Relation.ReflTransGen fun s s' => ∃ argument id, s' = ((caller argument id).run.run s).2

/-- A likeness of computations, the first in a state and the second in another: what the one gives
is what the other gives, but for computations in it that are alike afterwards. -/
structure Caller.IsLikeness (caller : Caller σ) (o : Options)
    (alike : σ → σ → Value → Value → Prop) : Prop where
  isCallable {s t : σ} {f g : Value} : alike s t f g →
    f.isCallable = true ∧ g.isCallable = true
  /-- Computations that are alike stay alike, whatever is called. -/
  later {s s' t t' : σ} {f g : Value} : alike s t f g → caller.Reaches s s' →
    caller.Reaches t t' → alike s' t' f g
  call {s t s' : σ} {f g value : Value} : alike s t f g →
    (f.call caller o).run.run s = (.ok value, s') →
      ∃ value' t', (g.call caller o).run.run t = (.ok value', t') ∧
        value.Replaces (alike s' t') value'

/-- A tree in which nothing but pure computations can be called, from a state on: they are like
themselves, also if the states that they are called in are different ones by then. -/
def Value.IsPure (caller : Caller σ) (o : Options) (start : σ) (tree : Value) : Prop :=
  ∃ alike, caller.IsLikeness o alike ∧ tree.CallsOnly fun f => alike start start f f

namespace Caller

variable {caller : Caller σ} {o : Options} {s s' t : σ}

/-- A method that gives something gives it in every state, and calls nothing. -/
theorem callMethod_eq_ok {m : Method} {owner value : Value}
    (h : (Value.callMethod caller m owner o).run.run s = (.ok value, s')) :
    s' = s ∧ (value = o.toValue ∨ value = o.renewed.toValue ∨
        value = .method .aliased o.toValue ∨ value.isPlain = true) ∧
      ∀ t, (Value.callMethod caller m owner o).run.run t = (.ok value, t) := by
  rw [Value.callMethod] at h ⊢
  cases heffect : m.effect with
  | argument =>
    rw [heffect] at h
    cases h
    exact ⟨rfl, .inl rfl, fun _ => rfl⟩
  | renewal =>
    rw [heffect] at h
    cases h
    exact ⟨rfl, .inr (.inl rfl), fun _ => rfl⟩
  | naming =>
    rw [heffect] at h
    cases h
    exact ⟨rfl, .inr (.inr (.inl rfl)), fun _ => rfl⟩
  | nothing | equality | comparison =>
    rw [heffect] at h
    cases h
    exact ⟨rfl, .inr (.inr (.inr rfl)), fun _ => rfl⟩
  | refusal =>
    rw [heffect] at h
    cases h
  | deletion =>
    rw [heffect] at h
    obtain ⟨text, s₁, -, h⟩ := Run.run_bind_eq_ok.1 h
    cases h
  | entry =>
    -- The one method that asks its argument something refuses whatever the answer is.
    rw [heffect] at h
    obtain ⟨answer, s₁, -, h⟩ := Run.run_bind_eq_ok.1 h
    cases answer with
    | false => cases h
    | true =>
      obtain ⟨text, s₂, -, h⟩ := Run.run_bind_eq_ok.1 h
      cases h

/-- A call that gives something comes to a state that is reached by calls. -/
theorem reaches_call {f value : Value} (h : (f.call caller o).run.run s = (.ok value, s')) :
    caller.Reaches s s' := by
  cases f with
  | deferred id =>
    rw [Value.call] at h
    exact .single ⟨.options o, id, by rw [h]⟩
  | method m owner =>
    obtain ⟨rfl, -⟩ := callMethod_eq_ok h
    exact .refl
  | _ => cases h

theorem reaches_resolveWithin {calls : Nat} {value w : Value}
    (h : (resolveWithin caller o calls value).run.run s = (.ok w, s')) : caller.Reaches s s' := by
  induction calls generalizing value s with
  | zero =>
    rw [resolveWithin] at h
    split at h
    · obtain ⟨shown, s₁, -, h⟩ := Run.run_bind_eq_ok.1 h
      cases h
    · cases h
      exact .refl
  | succ calls ih =>
    rw [resolveWithin] at h
    split at h
    · obtain ⟨given, s₁, hcall, h⟩ := Run.run_bind_eq_ok.1 h
      exact (reaches_call hcall).trans (ih h)
    · cases h
      exact .refl

theorem reaches_resolve {value w : Value}
    (h : (resolve caller o value).run.run s = (.ok w, s')) : caller.Reaches s s' :=
  reaches_resolveWithin h

namespace IsLikeness

variable {alike : σ → σ → Value → Value → Prop}

/-- Trees that are the same but for computations that are alike are alike as computations, or cannot
be called. -/
theorem alike_or_not_isCallable {value value' : Value}
    (hvalue : value.Replaces (alike s t) value') :
    alike s t value value' ∨ (value.isCallable = false ∧ value'.isCallable = false) := by
  cases hvalue with
  | root hvalue => exact .inl hvalue
  | plain hplain => cases value <;> first | exact .inr ⟨rfl, rfl⟩ | cases hplain
  | list | mapping => exact .inr ⟨rfl, rfl⟩

theorem replaces_later (h : caller.IsLikeness o alike) {value value' : Value} {t' : σ}
    (hvalue : value.Replaces (alike s t) value') (hs : caller.Reaches s s')
    (ht : caller.Reaches t t') : value.Replaces (alike s' t') value' :=
  have hcalls : value.CallsOnly fun _ => True := fun _ _ => trivial
  hvalue.imp hcalls fun _ _ halike _ => h.later halike hs ht

theorem resolveWithin (h : caller.IsLikeness o alike) (calls : Nat) {value value' w : Value}
    (hvalue : value.Replaces (alike s t) value')
    (hrun : (Stylesheet.resolveWithin caller o calls value).run.run s = (.ok w, s')) :
    ∃ w' t', (Stylesheet.resolveWithin caller o calls value').run.run t = (.ok w', t') ∧
      w.Replaces (alike s' t') w' := by
  induction calls generalizing value value' s t with
  | zero =>
    rw [Stylesheet.resolveWithin] at hrun ⊢
    rcases alike_or_not_isCallable hvalue with halike | ⟨hcallable, hcallable'⟩
    · rw [if_pos (h.isCallable halike).1] at hrun
      obtain ⟨shown, s₁, -, hrun⟩ := Run.run_bind_eq_ok.1 hrun
      cases hrun
    · rw [if_neg (by simp [hcallable])] at hrun
      rw [if_neg (by simp [hcallable'])]
      cases hrun
      exact ⟨value', t, rfl, hvalue⟩
  | succ calls ih =>
    rw [Stylesheet.resolveWithin] at hrun ⊢
    rcases alike_or_not_isCallable hvalue with halike | ⟨hcallable, hcallable'⟩
    · rw [if_pos (h.isCallable halike).1] at hrun
      rw [if_pos (h.isCallable halike).2]
      obtain ⟨given, s₁, hcall, hrun⟩ := Run.run_bind_eq_ok.1 hrun
      obtain ⟨given', t₁, hcall', hgiven⟩ := h.call halike hcall
      obtain ⟨w', t', hrun', hw⟩ := ih hgiven hrun
      exact ⟨w', t', Run.run_bind_eq_ok.2 ⟨_, _, hcall', hrun'⟩, hw⟩
    · rw [if_neg (by simp [hcallable])] at hrun
      rw [if_neg (by simp [hcallable'])]
      cases hrun
      exact ⟨value', t, rfl, hvalue⟩

/-- Values that are alike stand for values that are. -/
theorem resolve (h : caller.IsLikeness o alike) {value value' w : Value}
    (hvalue : value.Replaces (alike s t) value')
    (hrun : (Stylesheet.resolve caller o value).run.run s = (.ok w, s')) :
    ∃ w' t', (Stylesheet.resolve caller o value').run.run t = (.ok w', t') ∧
      w.Replaces (alike s' t') w' :=
  h.resolveWithin maxCalls hvalue hrun

end IsLikeness

end Caller

end Stylesheet
