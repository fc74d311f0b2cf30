import Stylesheet.Block.AsValue
import Stylesheet.Block.Sorting
import Stylesheet.Declaration
import Stylesheet.Property

/-!
# Sheets

A sheet is a block of properties and their finished texts, with nested blocks under composed
selectors.  It is built from composed declarations one by one: a later declaration of a property in
the same block replaces an earlier one, and a place that holds a property can hold no block.

## Main definitions

* `Sheet` — the sheets.
* `Sheet.add` — one declaration more.
* `Sheet.ofDeclarations` — the sheet of a list of declarations.
* `Sheet.toValue` — a sheet as a value.
-/

namespace Stylesheet

/-- A block of properties and their texts, and of blocks under selectors. -/
abbrev Sheet := Block String String

namespace Sheet

/-- The fault of a clash at a path. -/
def clashFault (path : List String) : Fault :=
  .conflict path.dropLast path.getLast?

/-- The outcome of a change of a sheet. -/
def ofClash (result : Block.Clash String Sheet) : Except Fault Sheet :=
  match result with
  | .ok sheet => .ok sheet
  | .error path => .error (clashFault path)

/-- The sheet with one declaration more.  The blocks it stands in are opened even if its value is
empty. -/
def add (o : Options) (sheet : Sheet) (d : Declaration) : Except Fault Sheet := do
  let opened ← ofClash (sheet.descend .ok d.selector)
  let name := Property.name o.isCustom d.property
  match ← Property.value o.unit name d.value with
  | some text => ofClash (opened.descend (Block.assign name text) d.selector)
  | none => return opened

/-- The sheet of a list of composed declarations. -/
def ofDeclarations (o : Options) (ds : List Declaration) : Except Fault Sheet :=
  ds.foldlM (add o) .empty

/-- The sheet with its keys in the order in which the options want them. -/
def arranged (o : Options) (sheet : Sheet) : Sheet :=
  if o.sort then sheet.sorted else sheet

/-- A sheet as a value. -/
def toValue (sheet : Sheet) : Value :=
  .mapping .plain (Block.entries .text .text sheet)

end Sheet

end Stylesheet
