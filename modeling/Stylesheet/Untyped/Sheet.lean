import Stylesheet.Sheet
import Stylesheet.Untyped.Selector

/-!
# Sheets from declarations given as values

Declarations may be given with any values for selector, property and value.  A selector then is
anything that has elements, which are the keys of the blocks it stands for.

## Main definitions

* `Untyped.Declaration` — declarations of values.
* `Untyped.sheet` — the sheet of a list of such declarations.
* `Untyped.sorted` — a sheet that is given as a value, with its keys in order.
-/

namespace Stylesheet.Untyped

/-- The declaration of a value for a property under a selector, all of which may be anything. -/
structure Declaration where
  selector : Value
  property : Value
  value : Value
  deriving Inhabited

namespace Declaration

/-- The form in which messages show a declaration. -/
def shown (d : Declaration) : Except Fault String := do
  return "<Record " ++ (← d.selector.asText) ++ " " ++ (← d.property.asText) ++ "=" ++
    (← d.value.shown) ++ ">"

/-- Equality of declarations. -/
def same (a b : Declaration) : Bool :=
  a.selector.same b.selector && a.property.same b.property && a.value.same b.value

end Declaration

/-- Whether a selector can be cut off after some of its elements, which is how the place of a clash
on the way is told. -/
def isCuttable : Value → Bool
  | .mapping _ _ | .set _ _ | .stream _ _ _ _ => false
  | _ => true

/-- The fault of a clash.  The place can be told only if all keys on the way are texts. -/
def clashFault (path : List Value) : Fault :=
  match path.mapM (textOr fun _ => .wrongType) with
  | .ok texts => Sheet.clashFault texts
  | .error fault => fault

/-- The sheet with one declaration more. -/
def add (o : Options) (sheet : Block Value String) (d : Declaration) :
    Except Fault (Block Value String) := do
  let keys ← elements d.selector
  let usable := keys.takeWhile Value.isHashable
  let opened ← match sheet.descend .ok usable with
    | .ok opened => pure opened
    | .error path => throw (if isCuttable d.selector then clashFault path else .wrongType)
  if usable.length < keys.length then throw .wrongType
  let name := Property.name o.isCustom (← d.property.asText)
  match ← Property.value o.unit name d.value with
  | some text =>
    match opened.descend (Block.assign (.text name) text) keys with
    | .ok sheet => return sheet
    | .error path => throw (clashFault path)
  | none => return opened

/-- The sheet of a list of declarations, as a value. -/
def sheet (o : Options) (ds : List Declaration) : Except Fault Value := do
  let sheet ← ds.foldlM (add o) .empty
  return .mapping .plain (Block.entries id .text sheet)

/-- A sheet that is given as a value, with its keys in order.  Only plain mappings in it are sorted
as well. -/
def sorted (node : Value) : Except Fault Value :=
  match node.entries? with
  | some entries => match Block.ofEntries? entries with
    | some block => .ok (.mapping .plain (Block.entries .text id block.sorted))
    | none => .error .wrongType
  | none => .error .noOperation

end Stylesheet.Untyped
