import Stylesheet.Text.Blank
import Stylesheet.Text.Lowercase
import Stylesheet.Value.Kind
import Stylesheet.Value.Written

/-!
# Properties

The name of a declaration is written with dashes whichever way its key is spelled, and its value is
written with the unit of lengths unless the property takes bare numbers.

## Main definitions

* `Property.cssName`, `Property.name` — the name of a property as it is written.
* `Property.isUnitless` — whether a property takes bare numbers.
* `Property.number`, `Property.written` — a number, and a finished value, as text.
* `Property.value` — the text of the value of a declaration.
-/

namespace Stylesheet.Property

open Value (asText shown showInt)

/-! ## Names -/

/-- A dash in front of every capital letter of ASCII, and dashes for underscores. -/
def dashed (cs : List Char) : List Char :=
  cs.flatMap fun c => if c.isUpper then ['-', c] else if c = '_' then ['-'] else [c]

/-- A name with dashes between its words, in lower case. -/
def cssName (key : String) : String :=
  String.ofList (Text.lower (dashed key.toList))

/-- The name of the property with the given key.  A key that starts with a dash is a name already.
Custom names get two dashes in front. -/
def name (isCustom : String → Bool) (key : String) : String :=
  if key.toList.head? = some '-' then key
  else if isCustom (cssName key) then "--" ++ cssName key
  else cssName key

/-- The vendors whose variants of properties are known. -/
def vendors : List String := ["webkit", "moz", "ms", "o"]

/-- The properties that take bare numbers. -/
def unitlessNames : List String :=
  ["animation-iteration-count", "border-image-outset", "border-image-slice", "border-image-width",
   "box-flex", "box-flex-group", "box-ordinal-group", "column-count", "fill-opacity", "flex",
   "flex-grow", "flex-negative", "flex-order", "flex-positive", "flex-shrink", "flood-opacity",
   "font-weight", "grid-column", "grid-row", "line-clamp", "line-height", "opacity", "order",
   "orphans", "stop-opacity", "stroke-dasharray", "stroke-dashoffset", "stroke-miterlimit",
   "stroke-opacity", "stroke-width", "tab-size", "widows", "z-index", "zoom"]

/-- Whether the property of the given name, or the one it is a vendor's variant of, takes bare
numbers. -/
def isUnitless (name : String) : Bool :=
  unitlessNames.contains name ||
    vendors.any fun vendor => unitlessNames.any fun plain => name == "-" ++ vendor ++ "-" ++ plain

/-! ## Values -/

/-- A truth value as text. -/
def boolean (b : Bool) : String :=
  if b then "true" else "false"

/-- A number as text.  A floating-point number that is an integer is written as one. -/
def number : Value → Except Fault String
  | .float (.finite x) => if x.isIntegral then showInt x.truncate else .ok x.write
  | value => asText value

/-- A value of a finished sheet as text. -/
def written : Value → Except Fault String
  | .bool b => .ok (boolean b)
  | value => number value

/-- The text of an empty text, which would not be seen otherwise. -/
def visible (s : String) : String :=
  if s = "" then "''" else s

/-- The text of a scalar as, or as a word in, the value of a property.  The unit follows a number
other than zero. -/
def scalar (unit name : String) : Value → Except Fault String
  | .text s => .ok (visible s)
  | .bool b => .ok (boolean b)
  | value => do
    let text ← number value
    return if value.isTrue && !isUnitless name then text ++ unit else text

/-- The text of the value of the property with the given name, and `none` for an empty value. -/
def value (unit name : String) (value : Value) : Except Fault (Option String) :=
  match value.kind, value with
  | .empty, _ => .ok none
  | .simpleList, .seq _ items => do
    let words ← items.mapM (scalar unit name)
    return visible (String.ofList (Text.trim (" ".intercalate words).toList))
  | .boolean, _ | .number, _ | .string, _ => some <$> scalar unit name value
  | _, _ => do throw (.unsupportedFor name (← shown value))

end Stylesheet.Property
