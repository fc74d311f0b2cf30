import Stylesheet.Value.Basic

/-!
# Kinds of values

How a conversion treats a value depends on its kind alone.

## Main definitions

* `Kind` — the kinds, with their names.
* `Value.kind` — the kind of a value.
-/

namespace Stylesheet

/-- The kinds of values that a conversion tells apart. -/
inductive Kind where
  /-- Nothing, or an empty container. -/
  | empty
  | boolean
  | number
  | string
  /-- Something that can be called with the options. -/
  | function
  | mapping
  /-- A sequence of scalars, which is one value of several words. -/
  | simpleList
  /-- Any other sequence, whose elements stand side by side. -/
  | list
  /-- Something that no rule is known for. -/
  | symbol
  deriving DecidableEq, Repr

namespace Kind

/-- The name of a kind. -/
def name : Kind → String
  | empty => "empty"
  | boolean => "boolean"
  | number => "number"
  | string => "string"
  | function => "function"
  | mapping => "mapping"
  | simpleList => "simple-list"
  | list => "list"
  | symbol => "symbol"

/-- Whether values of a kind are the values of declarations. -/
def isLeaf : Kind → Bool
  | boolean | number | string | simpleList => true
  | _ => false

end Kind

/-- The kind of a value. -/
def Value.kind : Value → Kind
  | none => .empty
  | seq _ items =>
    if items.isEmpty then .empty else if items.all isScalar then .simpleList else .list
  | mapping _ entries => if entries.isEmpty then .empty else .mapping
  | bool _ => .boolean
  | int _ | float _ => .number
  | text _ => .string
  | deferred _ _ | method _ _ => .function
  | bytes _ | set _ _ | symbol _ _ | stream _ _ _ _ => .symbol

/-- The values of kind `function` are those that can be called. -/
theorem Value.kind_eq_function_iff {value : Value} :
    value.kind = .function ↔ value.isCallable = true := by
  cases value <;> grind [kind, isCallable]

end Stylesheet
