import Stylesheet.Value.Equality

/-!
# Conversion options

The options of a conversion are four settings that the library reads itself, and any number of other
entries that deferred values of the rules may read.  As a value, options are a mapping that holds
the four settings first.

## Main definitions

* `Options` — the options.
* `Options.entries`, `Options.toValue` — options as a mapping.
* `Options.ofValue?` — the options that a value is.
-/

namespace Stylesheet

/-- Conversion options. -/
structure Options where
  /-- What follows a number that is a length. -/
  unit : String
  /-- Whether the keys of the sheet are sorted. -/
  sort : Bool
  /-- The number of spaces that a block is indented by. -/
  indent : Nat
  /-- The names of custom properties, all different, if there is a set of them. -/
  customs : Option (List Value)
  /-- The other entries, in the order in which their keys were first given. -/
  extras : List (Value × Value)
  deriving Inhabited

namespace Options

/-- The options of a conversion for which nothing is set. -/
def default : Options := ⟨"px", false, 4, none, []⟩

/-- Whether a name is one of a custom property. -/
def isCustom (o : Options) (name : String) : Bool :=
  o.customs.any fun names => names.any (Value.text name).same

/-- The names of custom properties as a value: a set, or nothing if there is none. -/
def customsValue (o : Options) : Value :=
  match o.customs with
  | none => .none
  | some names => .set true names

/-- The entries of the options as a mapping. -/
def entries (o : Options) : List (Value × Value) :=
  (.text "unit", .text o.unit) :: (.text "sort", .bool o.sort) ::
    (.text "indent", .int o.indent) :: (.text "customs", o.customsValue) :: o.extras

/-- Options as a value. -/
def toValue (o : Options) : Value :=
  .mapping .options o.entries

/-- The set of names of custom properties that a value stands for, or nothing. -/
def readCustoms? : Value → Option (Option (List Value))
  | .none => some none
  | .set true names => some (some names)
  | _ => none

/-- The options whose entries these are: exactly those that `Options.entries` gives for some
options are accepted. -/
def ofEntries? : List (Value × Value) → Option Options
  | (.text unitKey, .text unit) :: (.text sortKey, .bool sort) :: (.text indentKey, .int indent) ::
      (.text customsKey, customs) :: extras =>
    if unitKey = "unit" ∧ sortKey = "sort" ∧ indentKey = "indent" ∧ customsKey = "customs" ∧
        0 ≤ indent then
      (readCustoms? customs).map fun names => ⟨unit, sort, indent.toNat, names, extras⟩
    else none
  | _ => none

/-- The options that a value is. -/
def ofValue? : Value → Option Options
  | .mapping .options entries => ofEntries? entries
  | _ => none

/-- Options are read back from their entries. -/
@[simp] theorem ofEntries?_entries (o : Options) : ofEntries? o.entries = some o := by
  obtain ⟨unit, sort, indent, customs, extras⟩ := o
  cases customs <;> simp [entries, ofEntries?, customsValue, readCustoms?]

/-- Options are read back from the value that they are. -/
@[simp] theorem ofValue?_toValue (o : Options) : ofValue? o.toValue = some o :=
  o.ofEntries?_entries

end Options

end Stylesheet
