import Stylesheet.Proofs.Conversion.Assemble
import Stylesheet.Proofs.Conversion.EntryPoints

/-!
# The log of a conversion

A conversion logs the number of declarations as soon as it knows them and, if it fails at last, the
reason.  Faults that are no failed conversion are not logged: they are none of the library's.  The
conversion to text and the one to a medium log what the conversion to the sheet does, and nothing of
their own.  They read the options before it, though, so they log nothing if the options are at
fault.

## Main definitions

* `Report.lines` — the lines of a log.
* `Conversion.flattened` — the declarations that a conversion counts.
* `Conversion.Counts`, `Conversion.Reports` — the lines on the declarations and on the result.
* `Conversion.Logs` — what the entry points log.

## Main statements

* `Conversion.lines_sheet` — the log of the conversion to a sheet.
* `Conversion.logs` — the logs of the entry points.
-/

namespace Stylesheet

/-- A line of a log: its level and its wording. -/
def LogEntry.line (entry : LogEntry) : String × String :=
  (entry.level, entry.message)

theorem LogEntry.line_failed (fault : Fault) :
    (failed fault).line = ("ERROR", "Could not convert rules: " ++ fault.message?.getD "") := rfl

/-- The lines of a log. -/
def Report.lines {α : Type} (report : Report α) : List (String × String) :=
  report.log.map LogEntry.line

namespace Conversion

variable {σ : Type}

/-- The declarations of rules, unless the options are at fault or there are none to be had. -/
def flattened (caller : Caller σ) (rules : Value) (given : Option Value)
    (keywords : List (String × Value)) (s : σ) : Except Fault (List Declaration) :=
  readOptions ["rules"] given keywords >>= fun o => ((declarations caller o rules).run.run s).1

/-- The lines on the declarations: their number, once they are known. -/
structure Counts (flattened : Except Fault (List Declaration)) (lines : List (String × String)) :
    Prop where
  ok : ∀ ds, flattened = .ok ds →
    lines = [("DEBUG", "Flattened rules into " ++ toString ds.length ++ " records")]
  error : ∀ fault, flattened = .error fault → lines = []

/-- The lines on a result: the wording of the fault of a failed conversion, and of no other. -/
structure Reports {α : Type} (result : Except Fault α) (lines : List (String × String)) :
    Prop where
  ok : ∀ a, result = .ok a → lines = []
  conversion : ∀ fault, result = .error fault → fault.isConversion = true →
    ∃ message, fault.message? = some message ∧
      lines = [("ERROR", "Could not convert rules: " ++ message)]
  other : ∀ fault, result = .error fault → fault.isConversion = false → lines = []

theorem counts_error (fault : Fault) : Counts (.error fault) [] :=
  ⟨nofun, fun _ _ => rfl⟩

theorem counts_ok (ds : List Declaration) :
    Counts (.ok ds) [(LogEntry.flattened ds.length).line] :=
  ⟨fun _ h => by cases h; rfl, nofun⟩

theorem reports_failureLog {α : Type} (result : Except Fault α) :
    Reports result ((failureLog result).map LogEntry.line) := by
  constructor
  case ok =>
    rintro a rfl
    rfl
  case conversion =>
    rintro fault rfl hconversion
    obtain ⟨message, hmessage⟩ :=
      Option.isSome_iff_exists.1 (Fault.isSome_message?_of_isConversion hconversion)
    refine ⟨message, hmessage, ?_⟩
    rw [failureLog, if_pos hconversion]
    simp only [List.map_cons, List.map_nil, LogEntry.line_failed, hmessage, Option.getD_some]
  case other =>
    rintro fault rfl hother
    rw [failureLog, if_neg (by simp [hother])]
    rfl

variable {caller : Caller σ} {rules : Value} {given : Option Value}
  {keywords : List (String × Value)} {s : σ} {o : Options} {fault : Fault}

/-- The log of the conversion to a sheet tells of the declarations, and then of the result. -/
theorem lines_sheet (caller : Caller σ) (rules : Value) (given : Option Value)
    (keywords : List (String × Value)) (s : σ) :
    ∃ count failure,
      ((sheet caller rules given keywords).run s).1.lines = count ++ failure ∧
      Counts (flattened caller rules given keywords s) count ∧
      Reports ((sheet caller rules given keywords).run s).1.result failure := by
  cases ho : readOptions ["rules"] given keywords with
  | error fault =>
    rw [sheet, flattened, ho]
    exact ⟨[], _, rfl, counts_error fault, reports_failureLog (.error fault)⟩
  | ok o =>
    rw [sheet, flattened, ho]
    dsimp only
    rw [run_sheetWith]
    change ∃ count failure, _ ∧ Counts ((declarations caller o rules).run.run s).1 count ∧ _
    rcases (declarations caller o rules).run.run s with ⟨fault | ds, s'⟩
    · exact ⟨[], _, rfl, counts_error fault, reports_failureLog (.error fault)⟩
    · exact ⟨_, _, rfl, counts_ok ds, reports_failureLog (assemble o _)⟩

/-! ## The other entry points -/

theorem lines_text (ho : readOptions ["rules"] given keywords = .ok o) :
    ((text caller rules given keywords).run s).1.lines =
      ((sheet caller rules given keywords).run s).1.lines := by
  rw [text, sheet, ho]
  rfl

theorem lines_text_of_error (ho : readOptions ["rules"] given keywords = .error fault) :
    ((text caller rules given keywords).run s).1.lines = [] := by
  rw [text, ho]
  rfl

variable {ω : Type} [Medium ω]

theorem lines_writeTo (h : "output" ∉ names keywords) (out : ω)
    (ho : readOptions ["rules"] given keywords = .ok o) :
    ((writeTo out caller rules given keywords).run s).1.1.lines =
      ((sheet caller rules given keywords).run s).1.lines := by
  rw [fst_run_writeTo caller rules s out ((readOptions_output h).trans ho), sheet, ho]
  dsimp only
  rcases (sheetWith caller o rules).run s with ⟨⟨_ | _, _⟩, _⟩ <;> rfl

theorem lines_writeTo_of_output (h : "output" ∈ names keywords) (out : ω) :
    ((writeTo out caller rules given keywords).run s).1.1.lines = [] := by
  rw [writeTo_of_output caller rules s h out]
  rfl

theorem lines_writeTo_of_error (out : ω)
    (ho : readOptions ["rules"] given keywords = .error fault) :
    ((writeTo out caller rules given keywords).run s).1.1.lines = [] := by
  by_cases h : "output" ∈ names keywords
  · exact lines_writeTo_of_output h out
  · rw [writeTo, readOptions_output h, ho]
    rfl

/-- What the entry points log for the same rules and arguments in the same state. -/
structure Logs (caller : Caller σ) (rules : Value) (given : Option Value)
    (keywords : List (String × Value)) (s : σ) : Prop where
  /-- The conversion to a sheet logs how far it goes, and nothing else. -/
  sheet : ∃ count failure,
    ((Conversion.sheet caller rules given keywords).run s).1.lines = count ++ failure ∧
    Counts (flattened caller rules given keywords s) count ∧
    Reports ((Conversion.sheet caller rules given keywords).run s).1.result failure
  /-- The conversion to text logs the same if the options are valid. -/
  text : ∀ o, readOptions ["rules"] given keywords = .ok o →
    ((Conversion.text caller rules given keywords).run s).1.lines =
      ((Conversion.sheet caller rules given keywords).run s).1.lines
  /-- It logs nothing if they are not. -/
  textInvalid : ∀ fault, readOptions ["rules"] given keywords = .error fault →
    ((Conversion.text caller rules given keywords).run s).1.lines = []
  /-- So does the conversion to a medium, whatever that holds. -/
  write : "output" ∉ names keywords → ∀ o, readOptions ["rules"] given keywords = .ok o →
    ∀ {ω : Type} [Medium ω] (out : ω), ((writeTo out caller rules given keywords).run s).1.1.lines =
      ((Conversion.sheet caller rules given keywords).run s).1.lines
  writeInvalid : ∀ fault, readOptions ["rules"] given keywords = .error fault →
    ∀ {ω : Type} [Medium ω] (out : ω),
      ((writeTo out caller rules given keywords).run s).1.1.lines = []
  /-- It logs nothing if a keyword names the medium. -/
  refused : "output" ∈ names keywords → ∀ {ω : Type} [Medium ω] (out : ω),
    ((writeTo out caller rules given keywords).run s).1.1.result = .error .wrongType ∧
      ((writeTo out caller rules given keywords).run s).1.1.lines = []

/-- The log of a conversion tells how far it went. -/
theorem logs (caller : Caller σ) (rules : Value) (given : Option Value)
    (keywords : List (String × Value)) (s : σ) : Logs caller rules given keywords s where
  sheet := lines_sheet caller rules given keywords s
  text _ ho := lines_text ho
  textInvalid _ ho := lines_text_of_error ho
  write h _ ho _ _ out := lines_writeTo h out ho
  writeInvalid _ ho _ _ out := lines_writeTo_of_error out ho
  refused h _ _ out :=
    ⟨by rw [writeTo_of_output caller rules s h out], lines_writeTo_of_output h out⟩

/-- The name of the medium as a keyword is an option of the conversion to a sheet, and refused by
the one to a medium before it logs anything. -/
theorem not_forall_lines_writeTo :
    ¬ ∀ rules given keywords (s : Ledger) o, readOptions ["rules"] given keywords = .ok o →
      ((writeTo "" Ledger.call rules given keywords).run s).1.1.lines =
        ((sheet Ledger.call rules given keywords).run s).1.lines := by
  intro h
  have hlines := h plainRules none [("output", .none)] .empty
    ⟨"px", false, 4, none, [(.text "output", .none)]⟩ rfl
  revert hlines
  decide +kernel

end Conversion

end Stylesheet
