import Stylesheet.Proofs.Print.Simulation

/-!
# Writing after what is there

A writer does not look at what its medium holds.  What it writes to a text of its own is therefore
what it adds to any other medium, in the encoding of that medium, and it fails in the same way.  The
one exception are bytes that are no text, which some media take.

## Main definitions

* `LawfulMedium` — media on which texts come one after the other.
* `Writer.onto` — a writer of a text of its own, as a writer that adds that text to a medium.
* `Writer.Follows` — runs that do to a medium what other runs do to a text of their own.

## Main statements

* `Writer.follows_perform` — every step follows itself.
* `Writer.exists_run_sheet_eq_ok`, `Writer.exists_run_sheet_eq_error` — how the writing of a sheet
  ends on any medium, told by its text.
-/

namespace Stylesheet

/-- A medium on which texts come one after the other, and which takes the bytes that texts take. -/
class LawfulMedium (ω : Type) [Medium ω] : Prop where
  putText_empty (out : ω) : Medium.putText out "" = out
  putText_append (out : ω) (s t : String) :
    Medium.putText out (s ++ t) = Medium.putText (Medium.putText out s) t
  putBytes?_putText (out : ω) {s s' : String} {b : ByteArray}
    (h : Medium.putBytes? s b = some s') :
    Medium.putBytes? (Medium.putText out s) b = some (Medium.putText out s')

instance : LawfulMedium String where
  putText_empty out := String.append_empty
  putText_append out s t := (String.append_assoc).symm
  putBytes?_putText out s s' b h := by
    obtain ⟨t, ht, rfl⟩ := Option.map_eq_some_iff.1 h
    have hput : Medium.putBytes? (out ++ s) b = some (out ++ s ++ t) := by
      simp only [Medium.putBytes?, ht, Option.map_some]
    rw [String.append_assoc] at hput
    exact hput

instance : LawfulMedium ByteArray where
  putText_empty out := by simp [Medium.putText]
  putText_append out s t := by simp [Medium.putText, ByteArray.append_assoc]
  putBytes?_putText out s s' b h := by
    have hbytes : s.toUTF8 ++ b = s'.toUTF8 := Option.some.inj (Medium.toUTF8_putBytes? h)
    simp only [Medium.putBytes?, Medium.putText, ByteArray.append_assoc, hbytes]

namespace Writer

variable {ω : Type} [Medium ω] {α β : Type} {out : ω}

/-- A writer of a text of its own, as a writer that adds that text to a medium. -/
def onto (out : ω) (w : Writer String) : Writer ω :=
  ⟨w.indent, w.started, Medium.putText out w.out⟩

/-- A run on writers of texts, and a run that does the same to what a medium holds, unless there are
bytes that are no text. -/
structure Follows (out : ω) (run : Run (Writer String) α) (run' : Run (Writer ω) α) : Prop where
  indent : ∀ w, (run.run.run w).2.indent = w.indent
  onto : ∀ w, (run.run.run w).1 ≠ .error .notText →
    run'.run.run (w.onto out) = ((run.run.run w).1, (run.run.run w).2.onto out)

/-! ## Runs that are put together -/

theorem follows_ofExcept (result : Except Fault α) :
    Follows out (Run.ofExcept result) (Run.ofExcept result) where
  indent _ := rfl
  onto _ _ := rfl

theorem Follows.bind {run : Run (Writer String) α} {run' : Run (Writer ω) α}
    {next : α → Run (Writer String) β} {next' : α → Run (Writer ω) β} (h : Follows out run run')
    (hnext : ∀ a, Follows out (next a) (next' a)) :
    Follows out (run >>= next) (run' >>= next') := by
  constructor
  · intro w
    have hfirst := h.indent w
    rw [Run.run_bind]
    cases hrun : run.run.run w with
    | mk result w' =>
      rw [hrun] at hfirst
      cases result with
      | error fault => exact hfirst
      | ok a => exact ((hnext a).indent w').trans hfirst
  · intro w
    have hfirst := h.onto w
    rw [Run.run_bind, Run.run_bind]
    cases hrun : run.run.run w with
    | mk result w' =>
      rw [hrun] at hfirst
      intro htext
      cases result with
      | error fault => rw [hfirst fun h => htext (by cases h; rfl)]
      | ok a =>
        rw [hfirst nofun]
        exact (hnext a).onto w' htext

/-- A run may look at the indentation, which a writer has on every medium. -/
theorem follows_indent {next : Nat → Run (Writer String) α} {next' : Nat → Run (Writer ω) α}
    (hnext : ∀ n, Follows out (next n) (next' n)) :
    Follows out (do next (← get).indent) (do next' (← get).indent) where
  indent w := (hnext w.indent).indent w
  onto w htext := (hnext w.indent).onto w htext

/-! ## What a writer does -/

/-- Bytes are written if the medium takes them. -/
theorem run_putBytes (b : ByteArray) (w : Writer ω) :
    (putBytes b).run.run w =
      match Medium.putBytes? w.out b with
      | some out => (.ok (), { w with out := out })
      | none => (.error .notText, w) := by
  have hget : (putBytes b).run.run w = (match Medium.putBytes? w.out b with
      | some out => modify fun writer => { writer with out := out }
      | none => throw .notText : Run (Writer ω) Unit).run.run w := rfl
  rw [hget]
  split <;> rfl

variable [LawfulMedium ω]

theorem follows_putText (s : String) : Follows out (putText s) (putText s) where
  indent _ := rfl
  onto w _ := by
    have happend := LawfulMedium.putText_append out w.out s
    exact congrArg (fun out => (Except.ok (), Writer.mk w.indent w.started out)) happend.symm

theorem follows_putBytes (b : ByteArray) : Follows out (putBytes b) (putBytes b) := by
  constructor
  · intro w
    rw [run_putBytes]
    split <;> rfl
  · intro w htext
    rw [run_putBytes] at htext ⊢
    cases hb : Medium.putBytes? w.out b with
    | none =>
      rw [hb] at htext
      exact absurd rfl htext
    | some s =>
      have hbytes : Medium.putBytes? (w.onto out).out b = some (Medium.putText out s) :=
        LawfulMedium.putBytes?_putText out hb
      rw [run_putBytes, hbytes, hb]
      rfl

theorem isSimulation_follows : IsSimulation (fun {_} => Follows out) where
  ofExcept := follows_ofExcept
  bind := Follows.bind
  indent := follows_indent
  started hnext := ⟨fun w => (hnext w.started).indent w, fun w => (hnext w.started).onto w⟩
  start _ := ⟨fun _ => rfl, fun _ _ => rfl⟩
  putText := follows_putText
  putBytes := follows_putBytes

/-- Every step does to a medium what it does to a text. -/
theorem follows_perform (step : Step) : Follows out (perform step) (perform step) :=
  isSimulation_follows.perform step

/-! ## Sheets -/

/-- Writing a sheet starts afresh: what comes of it is told by a writer that has written nothing,
whatever this one has written. -/
theorem run_sheet_eq_onto (w : Writer ω) {node : Value} {result : Except Fault Unit}
    {written : Writer String}
    (hrun : (perform (.sheet node)).run.run (new w.indent) = (result, written))
    (htext : result ≠ .error .notText) :
    (perform (.sheet node)).run.run w = (result, written.onto w.out) := by
  have hstart : (new w.indent : Writer String).onto w.out = on w.indent w.out := by
    have hempty := LawfulMedium.putText_empty w.out
    exact congrArg (Writer.mk w.indent false) hempty
  have hfollows : Follows w.out (perform (.sheet node)) (perform (.sheet node)) := follows_perform _
  have honto := hfollows.onto (new w.indent) (hrun ▸ htext)
  rw [hstart, hrun] at honto
  exact honto

/-- A sheet that has a text is written on every medium. -/
theorem exists_run_sheet_eq_ok (w : Writer ω) {node : Value} {text : String}
    (h : format w.indent node = .ok text) :
    ∃ w', (perform (.sheet node)).run.run w = (.ok (), w') ∧
      w'.out = Medium.putText w.out text := by
  unfold format at h
  split at h
  · next written hrun =>
    obtain rfl := Except.ok.inj h
    exact ⟨written.onto w.out, run_sheet_eq_onto w hrun nofun, rfl⟩
  · cases h

end Writer

end Stylesheet
