import Stylesheet.Proofs.Block.MapValues
import Stylesheet.Untyped.Sheet

/-!
# Sorting a sheet as a value

Sorting a value fails if it is no mapping or if a key in it is no text.  Neither is so of a sheet,
and what sorting gives for the value that a sheet is, is the sorted sheet.

## Main statements

* `Block.ofEntries?_entries` — a sheet is read back from its entries.
* `Untyped.sorted_toValue` — sorting the value that a sheet is.
-/

namespace Stylesheet

namespace Block

/-- A block with texts for values is read back from its entries. -/
theorem ofEntries?_entries (b : Block String String) :
    ofEntries? (entries .text .text b) = some (b.mapValues .text) := by
  induction b with
  | empty => rfl
  | declare key a rest ih =>
    rw [entries, ofEntries?, ih]
    rfl
  | nest key body rest ihBody ihRest =>
    rw [entries, ofEntries?, entryOf?, ihBody, ihRest]
    rfl

end Block

/-- Sorting the value that a sheet is does not fail, and gives the sorted sheet. -/
theorem Untyped.sorted_toValue (sheet : Sheet) :
    Untyped.sorted sheet.toValue = .ok (Sheet.toValue sheet.sorted) := by
  have hread : Block.ofEntries? (Block.entries .text .text sheet) = some (sheet.mapValues .text) :=
    Block.ofEntries?_entries sheet
  simp only [Untyped.sorted, Sheet.toValue, Value.entries?, hread, Block.sorted_mapValues,
    Block.entries_mapValues]

end Stylesheet
