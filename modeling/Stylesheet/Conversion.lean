import Stylesheet.Print.Writer
import Stylesheet.Sheet

/-!
# Conversions

A conversion turns a rule tree into a sheet, and a sheet into text.  It keeps a log: how many
declarations the tree has, once they are known, and why the conversion failed, if the rules or the
options are to blame.

## Main definitions

* `LogEntry`, `Report` — what a conversion gives besides its result.
* `Conversion.sheet` — the sheet of a rule tree.
* `Conversion.text`, `Conversion.writeTo` — a rule tree as text, and written to a medium.
* `Conversion.formatted` — a finished sheet as text.
-/

namespace Stylesheet

/-- What a conversion notes while it runs. -/
inductive LogEntry where
  /-- The tree has this number of declarations. -/
  | flattened (count : Nat)
  /-- The conversion failed. -/
  | failed (fault : Fault)
  deriving DecidableEq, Repr

namespace LogEntry

/-- How much a note matters. -/
def level : LogEntry → String
  | flattened _ => "DEBUG"
  | failed _ => "ERROR"

/-- The wording of a note. -/
def message : LogEntry → String
  | flattened count => "Flattened rules into " ++ toString count ++ " records"
  | failed fault => "Could not convert rules: " ++ fault.message?.getD ""

end LogEntry

/-- The result of a conversion and its log. -/
structure Report (α : Type) where
  result : Except Fault α
  log : List LogEntry

/-- The notes on a result: a failed conversion is noted, and other faults are not. -/
def failureLog {α : Type} : Except Fault α → List LogEntry
  | .ok _ => []
  | .error fault => if fault.isConversion then [.failed fault] else []

namespace Report

variable {α β : Type}

/-- A report that notes no more than the failure of its result. -/
def ofResult (result : Except Fault α) : Report α :=
  ⟨result, failureLog result⟩

/-- A report on something that is done with the result afterwards, and not noted. -/
def andThen (report : Report α) (next : α → Except Fault β) : Report β :=
  ⟨report.result >>= next, report.log⟩

end Report

namespace Conversion

variable {σ : Type}

/-- The sheet of the declarations of a tree. -/
def assemble (o : Options) (ds : List Declaration) : Except Fault Sheet :=
  Sheet.arranged o <$> Sheet.ofDeclarations o (ds.map Declaration.composed)

/-- The conversion of a rule tree to a sheet, with options at hand.  The values of the declarations
are read when all of them have been found. -/
def sheetWith (caller : Caller σ) (o : Options) (rules : Value) : StateM σ (Report Sheet) := do
  match ← (declarations caller o rules).run with
  | .ok ds =>
    let result := assemble o (ds.map (Declaration.reread caller (← get)))
    return ⟨result, .flattened ds.length :: failureLog result⟩
  | .error fault => return .ofResult (.error fault)

/-- Options from arguments.  Some keywords cannot be given, since they name the arguments
of the conversion itself. -/
def readOptions (reserved : List String) (given : Option Value) (keywords : List (String × Value)) :
    Except Fault Options :=
  if keywords.any fun keyword => reserved.contains keyword.1 then .error .wrongType
  else Options.ofArguments given keywords

/-- The conversion of a rule tree to a sheet. -/
def sheet (caller : Caller σ) (rules : Value) (given : Option Value)
    (keywords : List (String × Value)) : StateM σ (Report Sheet) :=
  match readOptions ["rules"] given keywords with
  | .ok o => sheetWith caller o rules
  | .error fault => return .ofResult (.error fault)

/-- The text of a finished sheet. -/
def formatted (node : Value) (given : Option Value) (keywords : List (String × Value)) :
    Except Fault String := do
  let o ← readOptions ["node"] given keywords
  format o.indent node

/-- The conversion of a rule tree to text.  Faults of the options come before it and are not
noted. -/
def text (caller : Caller σ) (rules : Value) (given : Option Value)
    (keywords : List (String × Value)) : StateM σ (Report String) :=
  match readOptions ["rules"] given keywords with
  | .ok o => do
    let report ← sheetWith caller o rules
    return report.andThen fun sheet => format o.indent sheet.toValue
  | .error fault => return ⟨.error fault, []⟩

/-- The conversion of a rule tree to what is written to a medium, after what it holds already.  The
indentation is given back.  Nothing is written before the sheet is complete. -/
def writeTo {ω : Type} [Medium ω] (out : ω) (caller : Caller σ) (rules : Value)
    (given : Option Value) (keywords : List (String × Value)) : StateM σ (Report Nat × ω) :=
  match readOptions ["rules", "output"] given keywords with
  | .ok o => do
    let report ← sheetWith caller o rules
    match report.result with
    | .ok sheet =>
      let (result, writer) := (Writer.perform (.sheet sheet.toValue)).run.run (.on o.indent out)
      return (⟨(fun _ => o.indent) <$> result, report.log⟩, writer.out)
    | .error fault => return (⟨.error fault, report.log⟩, out)
  | .error fault => return (⟨.error fault, []⟩, out)

/-- The conversion of a rule tree to what is written to an empty medium. -/
def write {ω : Type} [Medium ω] (caller : Caller σ) (rules : Value) (given : Option Value)
    (keywords : List (String × Value)) : StateM σ (Report Nat × ω) :=
  writeTo Medium.blank caller rules given keywords

end Conversion

end Stylesheet
