import Stylesheet.Fault

/-!
# Runs

A run may fail, and it changes a state either way: what was done before a fault stays done.

## Main definitions

* `Run` — something that is done with a state.
* `Run.ofExcept` — the outcome of something that needs no state.

## Main statements

* `Run.run_bind` — a fault ends a run in the state that it was met in.
-/

namespace Stylesheet

/-- Something that is done with a state of type `σ` and gives an `α` unless it fails. -/
abbrev Run (σ α : Type) := ExceptT Fault (StateM σ) α

/-- The outcome of something that needs no state. -/
def Run.ofExcept {σ α : Type} (result : Except Fault α) : Run σ α :=
  ExceptT.mk (pure result)

/-- The outcome of something that needs no state leaves the state as it is. -/
@[simp] theorem Run.run_ofExcept {σ α : Type} (result : Except Fault α) (s : σ) :
    (Run.ofExcept result : Run σ α).run.run s = (result, s) := rfl

/-- A fault ends a run in the state that it was met in. -/
theorem Run.run_bind {σ α β : Type} (first : Run σ α) (next : α → Run σ β) (s : σ) :
    (first >>= next).run.run s =
      match first.run.run s with
      | (.ok a, s') => (next a).run.run s'
      | (.error fault, s') => (.error fault, s') := by
  change (match first.run.run s with
    | (result, s') => (ExceptT.bindCont next result).run s') = _
  rcases first.run.run s with ⟨_ | _, _⟩ <;> rfl

end Stylesheet
