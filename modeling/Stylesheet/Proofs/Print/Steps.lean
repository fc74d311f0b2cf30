import Stylesheet.Proofs.Print.TextLine

/-!
# Steps of a writer

Between one sheet and the next, and before the first one, a writer adds the lines that it is asked
for, with newlines between them.  What it has been asked for before that makes no difference, even
if some of it could not be written: a sheet is always written as if it were the first one.

All this is about lines of texts for whose spaces there is room.

## Main definitions

* `Writer.performAll` — the outcome of several steps.
* `Writer.Step.textLines?` — the lines that a step asks for.
* `Writer.IsStretch` — steps from one sheet up to the next.
* `Writer.WritesLines` — steps that succeed and add lines.

## Main statements

* `Writer.adds_perform`, `Writer.holds_performAll` — one step more, and several.
* `Writer.separatesLines` — what a stretch of steps adds, and what a sheet adds.
-/

namespace Stylesheet

/-- The text that a value is. -/
def Value.text? : Value → Option String
  | text s => some s
  | _ => Option.none

/-- A line as one of texts, if its parts are. -/
def Line.textLine? (line : Line) : Option TextLine :=
  (line.parts.mapM Value.text?).map (⟨line.level, ·⟩)

/-- The results for a list are those for its first element and for the others. -/
theorem exists_of_mapM_cons_eq_some {α β : Type} {f : α → Option β} {a : α} {rest : List α}
    {results : List β} (h : (a :: rest).mapM f = some results) :
    ∃ first others, f a = some first ∧ rest.mapM f = some others ∧ results = first :: others := by
  rw [List.mapM_cons] at h
  obtain ⟨first, hfirst, h⟩ := Option.bind_eq_some_iff.1 h
  obtain ⟨others, hothers, h⟩ := Option.bind_eq_some_iff.1 h
  exact ⟨first, others, hfirst, hothers, (Option.some.inj h).symm⟩

theorem map_text_of_mapM_text? {values : List Value} {texts : List String}
    (h : values.mapM Value.text? = some texts) : texts.map .text = values := by
  induction values generalizing texts with
  | nil =>
    obtain rfl := Option.some.inj h
    rfl
  | cons value rest ih =>
    obtain ⟨s, others, hs, hothers, rfl⟩ := exists_of_mapM_cons_eq_some h
    cases value with
    | text t =>
      obtain rfl := Option.some.inj hs
      exact congrArg (Value.text t :: ·) (ih hothers)
    | _ => cases hs

theorem Line.toLine_of_textLine? {line : Line} {t : TextLine} (h : line.textLine? = some t) :
    t.toLine = line := by
  obtain ⟨texts, htexts, rfl⟩ := Option.map_eq_some_iff.1 h
  exact congrArg (Line.mk line.level) (map_text_of_mapM_text? htexts)

namespace Writer

/-! ## Several steps -/

section

variable {ω : Type} [Medium ω]

/-- The outcome of several steps, which are done one after the other even if some of them fail. -/
def performAll (w : Writer ω) : List Step → List (Except Fault Unit) × Writer ω
  | [] => ([], w)
  | step :: rest =>
    let first := (perform step).run.run w
    let others := performAll first.2 rest
    (first.1 :: others.1, others.2)

theorem performAll_append (w : Writer ω) (before steps : List Step) :
    w.performAll (before ++ steps) =
      ((w.performAll before).1 ++ ((w.performAll before).2.performAll steps).1,
        ((w.performAll before).2.performAll steps).2) := by
  induction before generalizing w with
  | nil => rfl
  | cons step rest ih => simp only [List.cons_append, performAll, ih]

end

/-- Steps do not change the indentation. -/
theorem indent_performAll (w : Writer String) (steps : List Step) :
    (w.performAll steps).2.indent = w.indent := by
  induction steps generalizing w with
  | nil => rfl
  | cons step rest ih =>
    have hfollows : Follows "" (perform step) (perform step) := follows_perform step
    exact (ih _).trans (hfollows.indent w)

/-! ## The lines of steps -/

namespace Step

/-- Whether a step writes a whole sheet. -/
def isSheet : Step → Bool
  | sheet _ => true
  | _ => false

/-- The lines that a step asks for, if its keys and parts are texts and its values have a written
form.  To write a value as it is does not ask for a line. -/
def textLines? : Step → Option (List TextLine)
  | sheet node => node.textLines? 0
  | line l => (fun t => [t]) <$> l.textLine?
  | block level (.text key) node => TextLine.block level key <$> node.textLines? (level + 1)
  | declaration level (.text key) value =>
    (fun text => [TextLine.declaration level key text]) <$> (Property.written value).toOption
  | _ => none

end Step

variable {indent : Nat} {steps : List Step}

/-- A step other than writing a sheet adds its lines to those that are written already. -/
theorem adds_perform {step : Step} {lines : List TextLine} (hstep : step.isSheet = false)
    (hlines : step.textLines? = some lines) (hfits : ∀ line ∈ lines, line.Fits indent) :
    Adds (perform step) indent lines := by
  cases step with
  | sheet node => cases hstep
  | raw value => cases hlines
  | line line =>
    obtain ⟨t, ht, rfl⟩ := Option.map_eq_some_iff.1 hlines
    obtain rfl := Line.toLine_of_textLine? ht
    exact adds_putLine (hfits t List.mem_cons_self)
  | block level key node =>
    cases key with
    | text key =>
      obtain ⟨body, hbody, rfl⟩ := Option.map_eq_some_iff.1 hlines
      rw [perform, Value.lines_eq_of_textLines? hbody, Line.block_map_toLine]
      exact adds_putLines hfits
    | _ => cases hlines
  | declaration level key value =>
    cases key with
    | text key =>
      obtain ⟨text, htext, rfl⟩ := Option.map_eq_some_iff.1 hlines
      rw [perform, Line.declaration_eq_ok htext]
      exact adds_putLines hfits
    | _ => cases hlines

/-- Steps other than writing a sheet add their lines to those that are written already. -/
theorem holds_performAll {lines : List (List TextLine)}
    (hsteps : ∀ step ∈ steps, step.isSheet = false)
    (hlines : steps.mapM Step.textLines? = some lines)
    (hfits : ∀ line ∈ lines.flatten, line.Fits indent) {base : String} {written : List String}
    {w : Writer String} (hw : w.Holds indent base written) :
    (w.performAll steps).1 = steps.map (fun _ => .ok ()) ∧
      (w.performAll steps).2.Holds indent base
        (written ++ lines.flatten.map (TextLine.text indent)) := by
  induction steps generalizing lines written w with
  | nil =>
    obtain rfl := Option.some.inj hlines
    exact ⟨rfl, by simpa [performAll] using hw⟩
  | cons step rest ih =>
    obtain ⟨hstep, hrest⟩ := List.forall_mem_cons.1 hsteps
    obtain ⟨first, others, hfirst, hothers, rfl⟩ := exists_of_mapM_cons_eq_some hlines
    rw [List.flatten_cons, List.forall_mem_append] at hfits
    obtain ⟨w', hrun, hw'⟩ := adds_perform hstep hfirst hfits.1 base written w hw
    obtain ⟨hok, hholds⟩ := ih hrest hothers hfits.2 hw'
    simp only [performAll, hrun]
    refine ⟨congrArg (Except.ok () :: ·) hok, ?_⟩
    rwa [List.flatten_cons, List.map_append, ← List.append_assoc]

/-- Steps from the writing of a sheet, or from the first one, up to the next sheet. -/
structure IsStretch (before steps : List Step) : Prop where
  head : before = [] ∨ steps.head?.any Step.isSheet = true
  tail : ∀ step ∈ steps.tail, step.isSheet = false

/-- A writer that has done some steps on a text with something in it. -/
def after (indent : Nat) (out : String) (steps : List Step) : Writer String :=
  ((on indent out).performAll steps).2

theorem after_append (indent : Nat) (out : String) (before steps : List Step) :
    after indent out (before ++ steps) = ((after indent out before).performAll steps).2 := by
  rw [after, performAll_append, after]

/-- Steps that succeed, and add lines to what has been written, with newlines between them. -/
structure WritesLines (indent : Nat) (w : Writer String) (steps : List Step)
    (lines : List TextLine) : Prop where
  ok : (w.performAll steps).1 = steps.map fun _ => .ok ()
  out : (w.performAll steps).2.out =
    w.out ++ "\n".intercalate (lines.map (TextLine.text indent))

theorem writesLines_of_isStretch {before : List Step} {lines : List (List TextLine)}
    (h : IsStretch before steps) (hlines : steps.mapM Step.textLines? = some lines)
    (hfits : ∀ line ∈ lines.flatten, line.Fits indent) (out : String) :
    WritesLines indent (after indent out before) steps lines.flatten := by
  obtain ⟨hhead, htail⟩ := h
  cases steps with
  | nil =>
    obtain rfl := Option.some.inj hlines
    exact ⟨rfl, String.append_empty.symm⟩
  | cons step rest =>
    by_cases hsheet : step.isSheet = true
    · cases step with
      | sheet node =>
        obtain ⟨first, others, hfirst, hothers, rfl⟩ := exists_of_mapM_cons_eq_some hlines
        rw [List.flatten_cons, List.forall_mem_append] at hfits
        have hindent : (after indent out before).indent = indent := indent_performAll _ before
        obtain ⟨w, hrun, hw⟩ := holds_sheet hfirst hfits.1 hindent
        obtain ⟨hok, hholds⟩ := holds_performAll htail hothers hfits.2 hw
        have hperform : (after indent out before).performAll (.sheet node :: rest) =
            (.ok () :: (w.performAll rest).1, (w.performAll rest).2) := by
          simp only [performAll, hrun]
        constructor
        · rw [hperform]
          exact congrArg (Except.ok () :: ·) hok
        · rw [hperform, List.flatten_cons, List.map_append]
          exact hholds.out
      | _ => cases hsheet
    · obtain rfl : before = [] := hhead.resolve_right hsheet
      have hnone : ∀ step' ∈ step :: rest, step'.isSheet = false :=
        List.forall_mem_cons.2 ⟨eq_false_of_ne_true hsheet, htail⟩
      have hstart : (after indent out []).Holds indent out [] :=
        ⟨rfl, rfl, String.append_empty.symm⟩
      obtain ⟨hok, hholds⟩ := holds_performAll hnone hlines hfits hstart
      exact ⟨hok, hholds.out⟩

/-- How the lines that a writer adds to a text are separated. -/
structure SeparatesLines (indent : Nat) (out : String) : Prop where
  /-- A stretch of steps succeeds, and adds its lines with newlines between them. -/
  stretch : ∀ before steps lines, IsStretch before steps →
    steps.mapM Step.textLines? = some lines → (∀ line ∈ lines.flatten, line.Fits indent) →
      WritesLines indent (after indent out before) steps lines.flatten
  /-- After all steps, failed ones as well, a sheet adds its text. -/
  sheet : ∀ before node text, format indent node = .ok text →
    ∃ w, (perform (.sheet node)).run.run (after indent out before) = (.ok (), w) ∧
      w.out = (after indent out before).out ++ text

/-- A writer separates lines by newlines from one sheet up to the next, and starts afresh with every
sheet, if there is room for the spaces in front of the lines. -/
theorem separatesLines (indent : Nat) (out : String) : SeparatesLines indent out where
  stretch _ _ _ h hlines hfits := writesLines_of_isStretch h hlines hfits out
  sheet before node text h := by
    have hindent : (after indent out before).indent = indent := indent_performAll _ before
    rw [← hindent] at h
    exact exists_run_sheet_eq_ok _ h

/-- A step that fails in the middle of its line. -/
def brokenLine : Step :=
  .line ⟨1, [.text "a", .symbol 0 "b", .text "c"]⟩

/-- Steps from an empty sheet on. -/
def mixedSteps : List Step :=
  [.sheet .emptyMapping, .declaration 0 (.text "top") (.float (.ofDecimal false 30 (-1))),
    .block 1 (.text "i") (.mapping .view [(.text "p", .bool true)]), .line ⟨-1, [.text "d"]⟩]

theorem separatesLines_mixedSteps :
    ((perform brokenLine).run.run (on 2 "")).1 = .error (.unwritable "b") ∧
      (after 2 "" ([brokenLine] ++ mixedSteps)).out =
        "  a" ++ "top: 3;\n  i \x7b\n    p: true;\n  \x7d\nd" := by
  have hstretch := (separatesLines 2 "").stretch [brokenLine] mixedSteps
    [[], [.declaration 0 "top" "3"], TextLine.block 1 "i" [.declaration 2 "p" "true"],
      [⟨-1, ["d"]⟩]] ⟨.inr rfl, by decide +kernel⟩ (by decide +kernel) (by decide +kernel)
  have hbroken : (after 2 "" [brokenLine]).out = "  a" := by decide +kernel
  refine ⟨rfl, ?_⟩
  rw [after_append, hstretch.out, hbroken]
  decide +kernel

/-- A line at a level far below the first one cannot be written, though it has no spaces in front of
it. -/
theorem not_forall_writesLines :
    ¬ ∀ indent out before steps lines, IsStretch before steps →
      steps.mapM Step.textLines? = some lines →
        WritesLines indent (after indent out before) steps lines.flatten := by
  intro h
  have hline := (h 4 "" [] [.line ⟨-4611686018427387904, [.text "a"]⟩]
    [[⟨-4611686018427387904, ["a"]⟩]] ⟨.inl rfl, nofun⟩ (by decide +kernel)).out
  revert hline
  decide +kernel

end Writer

end Stylesheet
