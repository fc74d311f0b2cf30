import Stylesheet.Print.Writer

/-!
# What a writer does on two media

Every step of a writer is put together from a few runs that look at the writer itself, and from two
that write to its medium.  So a relation of runs on two media that those few are in, and that is
kept where runs are put together, holds of every step.

## Main definitions

* `Writer.IsSimulation` — a relation of runs on two media that is kept where runs are put together.

## Main statements

* `Writer.IsSimulation.perform` — every step is related to itself.
-/

namespace Stylesheet.Writer

variable {ω ω' : Type} [Medium ω] [Medium ω']

/-- A relation of runs on two media that all that a writer does is in, if the writing of a text and
of bytes is. -/
structure IsSimulation (R : ∀ {α : Type}, Run (Writer ω) α → Run (Writer ω') α → Prop) : Prop where
  ofExcept {α : Type} (result : Except Fault α) : R (Run.ofExcept result) (Run.ofExcept result)
  bind {α β : Type} {run : Run (Writer ω) α} {run' : Run (Writer ω') α}
    {next : α → Run (Writer ω) β} {next' : α → Run (Writer ω') β} :
    R run run' → (∀ a, R (next a) (next' a)) → R (run >>= next) (run' >>= next')
  /-- A run may look at the indentation. -/
  indent {α : Type} {next : Nat → Run (Writer ω) α} {next' : Nat → Run (Writer ω') α} :
    (∀ n, R (next n) (next' n)) → R (do next (← get).indent) (do next' (← get).indent)
  /-- A run may look at whether a line has been started. -/
  started {α : Type} {next : Bool → Run (Writer ω) α} {next' : Bool → Run (Writer ω') α} :
    (∀ b, R (next b) (next' b)) → R (do next (← get).started) (do next' (← get).started)
  /-- A run may set whether a line has been started. -/
  start (b : Bool) : R (modify fun w => { w with started := b })
    (modify fun w => { w with started := b })
  putText (s : String) : R (putText s) (putText s)
  putBytes (b : ByteArray) : R (putBytes b) (putBytes b)

namespace IsSimulation

variable {R : ∀ {α : Type}, Run (Writer ω) α → Run (Writer ω') α → Prop}

theorem pure (h : IsSimulation R) {α : Type} (a : α) :
    R (Pure.pure a : Run (Writer ω) α) (Pure.pure a) :=
  h.ofExcept (.ok a)

/-- What cannot be written is refused on every medium alike. -/
theorem unwritable (h : IsSimulation R) (value : Value) :
    R (if value.isTrue then do throw (.unwritable (← Run.ofExcept value.shown)) else Pure.pure ())
      (if value.isTrue then do throw (.unwritable (← Run.ofExcept value.shown))
        else Pure.pure ()) := by
  split
  · exact h.bind (h.ofExcept _) fun shown => h.ofExcept (.error (.unwritable shown))
  · exact h.pure ()

mutual

theorem putValue (h : IsSimulation R) (value : Value) : R (putValue value) (putValue value) := by
  cases value with
  | text s => exact h.putText s
  | bytes b => exact h.putBytes b
  | seq kind items => exact h.putValues items
  | _ =>
    simp only [Writer.putValue]
    exact h.unwritable _

theorem putValues (h : IsSimulation R) :
    ∀ values : List Value, R (putValues values) (putValues values)
  | [] => h.pure ()
  | value :: rest => h.bind (h.putValue value) fun _ => h.putValues rest

end

theorem startLine (h : IsSimulation R) : R startLine startLine := by
  have hnext : ∀ b : Bool,
      R (if b then Writer.putText "\n" else modify fun w => { w with started := true })
        (if b then Writer.putText "\n" else modify fun w => { w with started := true })
    | true => h.putText "\n"
    | false => h.start true
  exact h.started hnext

theorem putLine (h : IsSimulation R) (line : Line) : R (putLine line) (putLine line) :=
  h.bind h.startLine fun _ => h.indent fun n => h.bind (h.ofExcept (padding n line.level)) fun s =>
    h.bind (h.putText s) fun _ => h.putValues line.parts

theorem putLines (h : IsSimulation R) (lines : List (Except Fault Line)) :
    R (putLines lines) (putLines lines) := by
  induction lines with
  | nil => exact h.pure ()
  | cons line rest ih =>
    have hline : R (Run.ofExcept line >>= Writer.putLine) (Run.ofExcept line >>= Writer.putLine) :=
      h.bind (h.ofExcept line) h.putLine
    exact h.bind hline fun _ => ih

/-- Every step is related to itself. -/
theorem perform (h : IsSimulation R) (step : Step) : R (perform step) (perform step) := by
  cases step with
  | sheet node => exact h.bind (h.start false) fun _ => h.putLines _
  | raw value => exact h.putValue value
  | line line => exact h.putLine line
  | block level key node => exact h.putLines _
  | declaration level key value => exact h.putLines _

end IsSimulation

end Stylesheet.Writer
