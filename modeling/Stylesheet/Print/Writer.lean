import Stylesheet.Print.Line
import Stylesheet.Print.Medium
import Stylesheet.Run
import Stylesheet.Value.WholeNumber

/-!
# Writers

A writer writes lines to a medium.  Lines are separated by newlines, not ended by them, so a writer
knows whether a line has been started.  A fault stops the writing and leaves what was written.

## Main definitions

* `Writer` — a writer.
* `Writer.Step` — what can be asked of a writer.
* `Writer.perform` — the outcome of a step.
* `format` — the text of a sheet.
-/

namespace Stylesheet

/-- A writer on a medium. -/
structure Writer (ω : Type) where
  /-- The number of spaces for each level. -/
  indent : Nat
  /-- Whether a line has been started, so that the next one needs a newline before it. -/
  started : Bool
  /-- What has been written. -/
  out : ω

namespace Writer

variable {ω : Type} [Medium ω]

/-- A writer that has written nothing, on a medium with something in it. -/
def on (indent : Nat) (out : ω) : Writer ω := ⟨indent, false, out⟩

/-- A writer that has written nothing. -/
def new (indent : Nat) : Writer ω := on indent Medium.blank

/-- Writes a text. -/
def putText (s : String) : Run (Writer ω) Unit :=
  modify fun writer => { writer with out := Medium.putText writer.out s }

/-- Writes bytes. -/
def putBytes (b : ByteArray) : Run (Writer ω) Unit := do
  match Medium.putBytes? (← get).out b with
  | some out => modify fun writer => { writer with out := out }
  | none => throw .notText

mutual

/-- Writes a value: a text, bytes, or the elements of a sequence.  Of all else, only what counts as
false can be written, and leaves no trace. -/
def putValue : Value → Run (Writer ω) Unit
  | .text s => putText s
  | .bytes b => putBytes b
  | .seq _ items => putValues items
  | value =>
    if value.isTrue then do throw (.unwritable (← Run.ofExcept value.shown)) else pure ()

/-- Writes values one after the other. -/
def putValues : List Value → Run (Writer ω) Unit
  | [] => pure ()
  | value :: rest => do
    putValue value
    putValues rest

end

/-- The least number that is too large for the length of a text. -/
def lengthLimit : Int := 9223372036854775808

/-- The least length of a text that there is no memory for. -/
def memoryLimit : Int := 1000000000000

/-- The spaces in front of a line at a level: none at a negative one. -/
def padding (indent : Nat) (level : Int) : Except Fault String :=
  let width := level * indent
  if width < -lengthLimit ∨ lengthLimit ≤ width then .error .tooLarge
  else if memoryLimit ≤ width then .error .outOfMemory
  else .ok (String.ofList (List.replicate width.toNat ' '))

/-- Separates a line from the one before it, and starts it. -/
def startLine : Run (Writer ω) Unit := do
  if (← get).started then putText "\n"
  else modify fun writer => { writer with started := true }

/-- Writes a line. -/
def putLine (line : Line) : Run (Writer ω) Unit := do
  startLine
  putText (← Run.ofExcept (padding (← get).indent line.level))
  putValues line.parts

/-- Writes lines up to the first that is a fault. -/
def putLines (lines : List (Except Fault Line)) : Run (Writer ω) Unit :=
  lines.forM fun line => do putLine (← Run.ofExcept line)

/-- What can be asked of a writer. -/
inductive Step where
  /-- Writes a whole sheet.  What was written before is not separated from it. -/
  | sheet (node : Value)
  /-- Writes a value as it is. -/
  | raw (value : Value)
  /-- Writes one line. -/
  | line (line : Line)
  /-- Writes the lines of a block. -/
  | block (level : Int) (key node : Value)
  /-- Writes the line of a declaration. -/
  | declaration (level : Int) (key value : Value)

/-- The outcome of a step. -/
def perform : Step → Run (Writer ω) Unit
  | .sheet node => do
    modify fun writer => { writer with started := false }
    putLines (node.lines 0)
  | .raw value => putValue value
  | .line line => putLine line
  | .block level key node => putLines (Line.block level key (node.lines (level + 1)))
  | .declaration level key value => putLines [Line.declaration level key value]

end Writer

/-- The text of a sheet. -/
def format (indent : Nat) (node : Value) : Except Fault String :=
  match (Writer.perform (.sheet node)).run.run (Writer.new indent) with
  | (.ok _, writer) => .ok writer.out
  | (.error fault, _) => .error fault

end Stylesheet
