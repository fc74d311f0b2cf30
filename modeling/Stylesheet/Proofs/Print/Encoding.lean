import Stylesheet.Proofs.Print.Steps

/-!
# Texts and bytes

A writer does not look at what its medium holds, so what it does to a medium is told by what it
hands over: texts, and bytes as they are.  A record of these takes everything, and going through it
again gives what any other medium holds, as long as that medium takes all that is in it.

A text takes all that is in a record if the bytes in it encode texts, and then bytes take it as
well, as the encoding of what the text takes.  So a writer of texts and a writer of bytes go through
the same steps together, and fail together.

## Main definitions

* `Chunk` — what is handed to a medium at a time; lists of chunks are the records.
* `Medium.putAll?` — going through a record.
* `Writer.Replays` — runs that do to a medium what the record of other runs says.

## Main statements

* `Writer.isSimulation_replays`, `Writer.replays_performAll` — one step more, and several.
* `Writer.performAll_toUTF8` — a writer of bytes writes the encoding of what a writer of texts
  writes, step by step.
-/

namespace Stylesheet

/-- What is handed to a medium at a time. -/
inductive Chunk where
  | text (s : String)
  | bytes (b : ByteArray)

/-- A record takes everything, and keeps bytes apart from texts. -/
instance : Medium (List Chunk) where
  blank := []
  putText chunks s := chunks ++ [.text s]
  putBytes? chunks b := some (chunks ++ [.bytes b])

namespace Medium

section

variable {ω : Type} [Medium ω]

/-- Appends a text or bytes, if the medium takes them. -/
def put? (out : ω) : Chunk → Option ω
  | .text s => some (putText out s)
  | .bytes b => putBytes? out b

/-- Appends all that is in a record, if the medium takes it. -/
def putAll? (out : ω) (chunks : List Chunk) : Option ω :=
  chunks.foldlM put? out

theorem putAll?_concat (out : ω) (chunks : List Chunk) (chunk : Chunk) :
    putAll? out (chunks ++ [chunk]) = (putAll? out chunks).bind (put? · chunk) := by
  simp [putAll?]

end

/-- A text takes what is in a record if the bytes in it encode texts. -/
theorem exists_putAll?_eq_some {chunks : List Chunk}
    (h : ∀ b, .bytes b ∈ chunks → b.IsValidUTF8) (out : String) :
    ∃ text, putAll? out chunks = some text := by
  induction chunks generalizing out with
  | nil => exact ⟨out, rfl⟩
  | cons chunk rest ih =>
    have hrest : ∀ b, .bytes b ∈ rest → b.IsValidUTF8 :=
      fun b hb => h b (List.mem_cons_of_mem _ hb)
    have hfirst : ∃ out', put? out chunk = some out' := by
      cases chunk with
      | text s => exact ⟨_, rfl⟩
      | bytes b =>
        have hb : b.IsValidUTF8 := h b List.mem_cons_self
        have hdecode : String.fromUTF8? b = some (String.fromUTF8 b hb) := dif_pos hb
        exact ⟨out ++ String.fromUTF8 b hb,
          by simp only [put?, putBytes?, hdecode, Option.map_some]⟩
    obtain ⟨out', hout'⟩ := hfirst
    obtain ⟨text, htext⟩ := ih hrest out'
    exact ⟨text, by rw [putAll?, List.foldlM_cons, hout']; exact htext⟩

/-- Bytes take the encoding of what a text takes. -/
theorem putAll?_toUTF8 {chunks : List Chunk} {out text : String}
    (h : putAll? out chunks = some text) : putAll? out.toUTF8 chunks = some text.toUTF8 := by
  induction chunks generalizing out with
  | nil => exact congrArg (Option.map String.toUTF8) h
  | cons chunk rest ih =>
    rw [putAll?, List.foldlM_cons] at h ⊢
    obtain ⟨out', hfirst, hrest⟩ := Option.bind_eq_some_iff.1 h
    have hencoded : put? out.toUTF8 chunk = some out'.toUTF8 := by
      cases chunk with
      | text s =>
        obtain rfl := Option.some.inj hfirst
        exact congrArg some (toUTF8_putText out s).symm
      | bytes b => exact toUTF8_putBytes? hfirst
    rw [hencoded]
    exact ih hrest

end Medium

namespace Writer

open Medium (put? putAll?)

variable {ω ω' : Type} [Medium ω] [Medium ω'] {α β : Type} {out : ω}

/-- A writer as it would be on another medium. -/
def moved (w : Writer ω) (out : ω') : Writer ω' := ⟨w.indent, w.started, out⟩

/-- A run on writers of records, and a run that does to a medium what the record says: if the medium
takes all that is in the record at the end, then it takes what was in it before, and both runs have
the same result. -/
def Replays (out : ω) (run : Run (Writer (List Chunk)) α) (run' : Run (Writer ω) α) : Prop :=
  ∀ w written, putAll? out (run.run.run w).2.out = some written →
    ∃ before, putAll? out w.out = some before ∧
      run'.run.run (w.moved before) = ((run.run.run w).1, (run.run.run w).2.moved written)

theorem replays_ofExcept (result : Except Fault α) :
    Replays out (Run.ofExcept result) (Run.ofExcept result) :=
  fun _ written h => ⟨written, h, rfl⟩

theorem Replays.bind {run : Run (Writer (List Chunk)) α} {run' : Run (Writer ω) α}
    {next : α → Run (Writer (List Chunk)) β} {next' : α → Run (Writer ω) β}
    (h : Replays out run run') (hnext : ∀ a, Replays out (next a) (next' a)) :
    Replays out (run >>= next) (run' >>= next') := by
  intro w written hwritten
  have hfirst := h w
  rw [Run.run_bind] at hwritten ⊢
  cases hrun : run.run.run w with
  | mk result w' =>
    rw [hrun] at hfirst hwritten
    cases result with
    | error fault =>
      obtain ⟨before, hbefore, hrun'⟩ := hfirst written hwritten
      exact ⟨before, hbefore, by rw [Run.run_bind, hrun']⟩
    | ok a =>
      obtain ⟨between, hbetween, hrun'⟩ := hnext a w' written hwritten
      obtain ⟨before, hbefore, hrun''⟩ := hfirst between hbetween
      exact ⟨before, hbefore, by rw [Run.run_bind, hrun'']; exact hrun'⟩

theorem replays_putText (s : String) : Replays out (putText s) (putText s) := by
  intro w written h
  have hput : putAll? out (w.out ++ [.text s]) = some written := h
  rw [Medium.putAll?_concat] at hput
  obtain ⟨before, hbefore, hlast⟩ := Option.bind_eq_some_iff.1 hput
  obtain rfl := Option.some.inj hlast
  exact ⟨before, hbefore, rfl⟩

theorem replays_putBytes (b : ByteArray) : Replays out (putBytes b) (putBytes b) := by
  intro w written h
  have hrecord : (putBytes b).run.run w = (.ok (), { w with out := w.out ++ [.bytes b] }) :=
    run_putBytes b w
  rw [hrecord] at h ⊢
  have hput : putAll? out (w.out ++ [.bytes b]) = some written := h
  rw [Medium.putAll?_concat] at hput
  obtain ⟨before, hbefore, hlast⟩ := Option.bind_eq_some_iff.1 hput
  have htakes : Medium.putBytes? (w.moved before).out b = some written := hlast
  refine ⟨before, hbefore, ?_⟩
  rw [run_putBytes, htakes]
  rfl

theorem isSimulation_replays : IsSimulation (fun {_} => Replays out) where
  ofExcept := replays_ofExcept
  bind := Replays.bind
  indent hnext w := hnext w.indent w
  started hnext w := hnext w.started w
  start _ _ written h := ⟨written, h, rfl⟩
  putText := replays_putText
  putBytes := replays_putBytes

/-- Several steps do to a medium what the record of them says. -/
theorem replays_performAll (w : Writer (List Chunk)) (steps : List Step) {written : ω}
    (h : putAll? out (w.performAll steps).2.out = some written) :
    ∃ before, putAll? out w.out = some before ∧
      (w.moved before).performAll steps =
        ((w.performAll steps).1, (w.performAll steps).2.moved written) := by
  induction steps generalizing w with
  | nil => exact ⟨written, h, rfl⟩
  | cons step rest ih =>
    obtain ⟨between, hbetween, hrest⟩ := ih _ h
    have hstep : Replays out (perform step) (perform step) := isSimulation_replays.perform step
    obtain ⟨before, hbefore, hfirst⟩ := hstep w between hbetween
    refine ⟨before, hbefore, ?_⟩
    simp only [performAll, hfirst, hrest]

/-- The record of several steps. -/
def record (indent : Nat) (steps : List Step) : List Chunk :=
  ((on indent ([] : List Chunk)).performAll steps).2.out

/-- Several steps on a medium, told by their record. -/
theorem performAll_eq_of_record {indent : Nat} {steps : List Step} {written : ω}
    (h : putAll? out (record indent steps) = some written) :
    (on indent out).performAll steps =
      (((on indent ([] : List Chunk)).performAll steps).1,
        ((on indent ([] : List Chunk)).performAll steps).2.moved written) := by
  obtain ⟨before, hbefore, hsteps⟩ := replays_performAll (on indent []) steps h
  obtain rfl := Option.some.inj hbefore
  exact hsteps

/-- What is in the record of some steps is also in that of more steps. -/
theorem exists_putAll?_record_append {indent : Nat} {before steps : List Step} {written : ω}
    (h : putAll? out (record indent (before ++ steps)) = some written) :
    ∃ between, putAll? out (record indent before) = some between := by
  rw [record, performAll_append] at h
  obtain ⟨between, hbetween, -⟩ := replays_performAll _ steps h
  exact ⟨between, hbetween⟩

/-- A writer of bytes does, step by step, what a writer of texts does: the steps have the same
results, and after each of them the bytes are the encoding of the text.  Bytes that are handed over
must be the encoding of texts. -/
theorem performAll_toUTF8 (indent : Nat) (out : String) (steps : List Step)
    (h : ∀ b, .bytes b ∈ record indent steps → b.IsValidUTF8) :
    ((on indent out.toUTF8).performAll steps).1 = ((on indent out).performAll steps).1 ∧
      ∀ before, before <+: steps →
        ((on indent out.toUTF8).performAll before).2.out =
          ((on indent out).performAll before).2.out.toUTF8 := by
  obtain ⟨text, htext⟩ := Medium.exists_putAll?_eq_some h out
  constructor
  · rw [performAll_eq_of_record htext, performAll_eq_of_record (Medium.putAll?_toUTF8 htext)]
  · rintro before ⟨rest, rfl⟩
    obtain ⟨between, hbetween⟩ := exists_putAll?_record_append htext
    rw [performAll_eq_of_record hbetween,
      performAll_eq_of_record (Medium.putAll?_toUTF8 hbetween)]
    rfl

/-- Steps on keys and parts of many kinds, some of which fail in the middle of their lines. -/
def mixedParts : List Step :=
  [.raw (.seq .tuple [.text "é", .bytes "ü".toUTF8, .none, .set false []]),
    .line ⟨1, [.bytes "ß".toUTF8, .seq .list [.text "a", .bool true], .text "b"]⟩,
    .block 0 (.bytes "ö".toUTF8) (.mapping .plain [(.bool false, .float (.ofDecimal false 30 (-1))),
      (.text "c", .none)]),
    .sheet (.int 1),
    .declaration 2 (.symbol 0 "d") (.text "e")]

theorem performAll_toUTF8_mixedParts :
    ((on 2 "<".toUTF8).performAll mixedParts).1.map
          (fun | .ok _ => none | .error fault => some fault) =
        [none, some (.unwritable "True"), none, some .noOperation, some (.unwritable "d")] ∧
      ((on 2 "<".toUTF8).performAll mixedParts).2.out =
        "<éü  ßa\nö \x7b\n  : 3;\n  c: None;\n\x7d    ".toUTF8 := by
  have hvalid : (record 2 mixedParts).all
      (fun | .bytes b => decide b.IsValidUTF8 | .text _ => true) = true := by
    decide +kernel
  obtain ⟨hresults, hout⟩ := performAll_toUTF8 2 "<" mixedParts
    fun b hb => of_decide_eq_true (List.all_eq_true.1 hvalid _ hb)
  rw [hresults, hout mixedParts (List.prefix_refl _)]
  exact ⟨by decide +kernel, congrArg String.toUTF8 (by decide +kernel)⟩

end Writer

end Stylesheet
