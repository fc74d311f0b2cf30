import Stylesheet.Options.Build
import Stylesheet.Value.Kind

/-!
# Reading options

Options are read as a mapping and by attributes.  They are read-only: every attempt to change them
is refused.  A handle on options that have not been set up refuses reading as well.

## Main definitions

* `Options.Handle.attr`, `Options.item`, `Options.getD` — single entries.
* `Options.Access` — the ways in which the holder of options can use them.
* `Options.access`, `Options.Handle.access` — their outcome.
-/

namespace Stylesheet.Options

open Value (lookup? field? shown)

/-- A handle on options, which may not have been set up. -/
abbrev Handle := Option Options

/-- What tells a reader of the options about them. -/
def description : String :=
  "The read-only options of a conversion. The known keys are `unit`,\n\t" ++
  "`sort`, `indent` and `customs`, any other key is preserved so that\n\t" ++
  "functions embedded in the rules can read it, either as an attribute\n\t" ++
  "(`options.COLOR`) or as an item (`options[\"COLOR\"]`).\n\n\t" ++
  "Keys named like the mapping methods (`keys`, `values`, `items`, `get`)\n\t" ++
  "or that are not identifiers must be read as items: `options[\"values\"]`."

namespace Handle

/-- The entries of the options, under the name by which the options hold them. -/
def innards (handle : Handle) : List (Value × Value) :=
  (handle.map fun o => (Value.text "_values", Value.mapping .plain o.entries)).toList

/-- The attributes that are not methods and that options have whatever their entries. -/
def plainAttr? (handle : Handle) (name : String) : Option Value :=
  match name with
  | "DEFAULTS" => some (.mapping .plain default.entries)
  | "__dict__" => some (.mapping .plain handle.innards)
  | "__doc__" => some (.text description)
  | "__module__" => some (.text "nestedcss.model")
  | "__slots__" => some (.seq .tuple [])
  | "__abstractmethods__" => some (.set true [])
  | "__hash__" | "__reversed__" | "__weakref__" => some .none
  | name => field? handle.innards name

/-- The attributes that options have whatever their entries: methods, and what stands beside
them. -/
def sharedAttr? (handle : Handle) (name : String) : Option Value :=
  match Method.ofName? name with
  | some method => some (.method method ((handle.map toValue).getD .none))
  | none => handle.plainAttr? name

/-- An attribute: one that options have in any case, which hides an entry of the same name, or else
the entry under the name.  Names that start with two underscores are no entries. -/
def attr (handle : Handle) (name : String) : Except Fault Value :=
  match handle.sharedAttr? name with
  | some value => .ok value
  | none =>
    if "__".toList.isPrefixOf name.toList then .error (.noAttribute name)
    else match handle with
      | none => .error (.noAttribute "_values")
      | some o => match field? o.entries name with
        | some value => .ok value
        | none => .error (.noAttribute name)

end Handle

/-- The handle on the options that a handle and keywords stand for.  Without keywords it is the same
handle, also if its options have not been set up. -/
def Handle.ensure (handle : Handle) (keywords : List (String × Value)) : Except Fault Handle :=
  match handle with
  | some o => some <$> Options.ensure o.toValue keywords
  | none =>
    if keywords.any fun keyword => reserved.contains keyword.1 then .error .wrongType
    else if keywords.isEmpty then .ok none
    else .error (.noAttribute "_values")

/-- An attribute of options. -/
def attr (o : Options) (name : String) : Except Fault Value :=
  Handle.attr (some o) name

/-- The value under a key, if there is one. -/
def find? (o : Options) (key : Value) : Except Fault (Option Value) :=
  if key.isHashable then .ok (lookup? o.entries key) else .error .wrongType

/-- The value under a key. -/
def item (o : Options) (key : Value) : Except Fault Value := do
  match ← o.find? key with
  | some value => return value
  | none => throw (.noEntry (← shown key))

/-- The value under a key, or a default. -/
def getD (o : Options) (key fallback : Value) : Except Fault Value :=
  (·.getD fallback) <$> o.find? key

/-- The ways in which the holder of options can use them. -/
inductive Access where
  | attr (name : String)
  | item (key : Value)
  | contains (key : Value)
  | get (key fallback : Value)
  | setAttr (name : String)
  | setItem
  | deleteAttr (name : String)
  | deleteItem
  | size
  | keys
  | values
  | items
  | display
  | hash
  | kind
  | equals (other : Value)
  /-- Options with keywords put in, and whether they are the same object. -/
  | derive (keywords : List (String × Value))

/-- The outcome of a use of options. -/
def access (o : Options) : Access → Except Fault Value
  | .attr name => o.attr name
  | .item key => o.item key
  | .contains key => (.bool ·.isSome) <$> o.find? key
  | .get key fallback => o.getD key fallback
  | .setAttr name => .error (.readOnlySet name)
  | .deleteAttr name => .error (.readOnlyDelete name)
  | .setItem | .deleteItem | .hash => .error .wrongType
  | .size => .ok (.int o.entries.length)
  | .keys => .ok (.seq .list (o.entries.map Prod.fst))
  | .values => .ok (.seq .list (o.entries.map Prod.snd))
  | .items => .ok (.seq .list (o.entries.map fun entry => .seq .list [entry.1, entry.2]))
  | .display => .text <$> shown o.toValue
  | .kind => .ok (.text o.toValue.kind.name)
  | .equals other => .ok (.bool (o.toValue.same other))
  | .derive keywords => do
    let derived ← ensure o.toValue keywords
    return .seq .list [.bool keywords.isEmpty, derived.toValue]

/-- The outcome of a use of a handle.  Without options there are the shared attributes only, and
nothing but a mapping is ever compared with. -/
def Handle.access : Handle → Access → Except Fault Value
  | some o, use => o.access use
  | none, .attr name => Handle.attr none name
  | none, .setAttr name => .error (.readOnlySet name)
  | none, .deleteAttr name => .error (.readOnlyDelete name)
  | none, .setItem | none, .deleteItem | none, .hash => .error .wrongType
  | none, .equals other =>
    if other.isMapping then .error (.noAttribute "_values") else .ok (.bool false)
  | none, .derive keywords => do
    -- Without keywords there is a handle, but what is asked for are its entries.
    let _ ← Handle.ensure none keywords
    throw (.noAttribute "_values")
  | none, _ => .error (.noAttribute "_values")

end Stylesheet.Options
