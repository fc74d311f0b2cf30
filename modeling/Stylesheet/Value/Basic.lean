import Stylesheet.Fault
import Stylesheet.Method
import Stylesheet.Number.Binary64

/-!
# Values

What stands in a rule tree: nothing, scalars, sequences, mappings, and what the caller put there
without the library knowing more about it than its name.  Keys of mappings are values as well.

## Main definitions

* `Value` — the values.
* `Value.isScalar`, `Value.isTrue`, `Value.isHashable` — properties of values.
* `Value.entries?`, `Value.elements?` — a value as a mapping, and as a sequence.
* `Value.spent` — a value after it has been gone through.
-/

namespace Stylesheet

/-- The kinds of sequence. -/
inductive SeqKind where
  | list
  | tuple
  /-- A list that computations know by its identity.  They may change it at any time, so its
  elements are those that it has when it is found. -/
  | shared (id : Nat)
  deriving DecidableEq, Repr

/-- Whether sequences of a kind are tuples.  These are never equal to lists, and never change. -/
def SeqKind.isTuple : SeqKind → Bool
  | tuple => true
  | list | shared _ => false

/-- The kinds of mapping: one that its holder may change, a read-only view of one, and conversion
options. -/
inductive MappingKind where
  | plain
  | view
  | options
  deriving DecidableEq, Repr

/-- The values of a rule tree. -/
inductive Value where
  | none
  | bool (b : Bool)
  | int (i : Int)
  | float (x : Binary64)
  | text (s : String)
  | bytes (b : ByteArray)
  | seq (kind : SeqKind) (items : List Value)
  /-- The entries stand in the order in which their keys were first given. -/
  | mapping (kind : MappingKind) (entries : List (Value × Value))
  /-- The elements are distinct; their order has no meaning. -/
  | set (frozen : Bool) (items : List Value)
  /-- An opaque thing, known by its identity and by the text that it is shown by. -/
  | symbol (id : Nat) (shown : String)
  /-- An opaque thing that can be gone through, and the elements that it gives when that is done
  next.  They may be used up by it. -/
  | stream (id : Nat) (shown : String) (once : Bool) (items : List Value)
  /-- A computation that gives a value when it is called with the options.  To show it may fail. -/
  | deferred (id : Nat) (shown : Except Fault String)
  /-- A method of conversion options, which can be called as well, and the options that it was read
  from, or nothing if those have not been set up. -/
  | method (method : Method) (owner : Value)
  deriving Inhabited

namespace Value

/-- An empty mapping. -/
def emptyMapping : Value := mapping .plain []

/-- Whether a value is a truth value, a number or a text. -/
def isScalar : Value → Bool
  | bool _ | int _ | float _ | text _ => true
  | _ => false

/-- Whether a value can be called. -/
def isCallable : Value → Bool
  | deferred _ _ | method _ _ => true
  | _ => false

/-- Whether a value is a mapping, of any kind. -/
def isMapping : Value → Bool
  | mapping _ _ => true
  | _ => false

/-- Whether a value is a text. -/
def isText : Value → Bool
  | text _ => true
  | _ => false

/-- The entries of a mapping. -/
def entries? : Value → Option (List (Value × Value))
  | mapping _ entries => some entries
  | _ => Option.none

/-- Whether a value counts as true: zeros, empty texts and empty containers do not. -/
def isTrue : Value → Bool
  | none => false
  | bool b => b
  | int i => i != 0
  | float x => !x.isZero
  | text s => s != ""
  | bytes b => b.size != 0
  | seq _ items => !items.isEmpty
  | mapping _ entries => !entries.isEmpty
  | set _ items => !items.isEmpty
  | symbol _ _ | stream _ _ _ _ | deferred _ _ | method _ _ => true

/-- The elements that a value gives when it is gone through: the characters of a text, the numbers
of bytes, the keys of a mapping. -/
def elements? : Value → Option (List Value)
  | text s => some (s.toList.map fun c => text (String.ofList [c]))
  | bytes b => some (b.data.toList.map fun n => int n.toNat)
  | seq _ items => some items
  | mapping _ entries => some (entries.map Prod.fst)
  | set _ items | stream _ _ _ items => some items
  | _ => Option.none

/-- What a value is after it has been gone through. -/
def spent : Value → Value
  | stream id shown true _ => stream id shown true []
  | value => value

mutual

/-- Whether a value can be a key of a mapping or an element of a set: what its holder may change
cannot. -/
def isHashable : Value → Bool
  | seq kind items => kind.isTuple && allHashable items
  | mapping _ _ => false
  | set frozen _ => frozen
  | method m _ => m.form != .synonym
  | _ => true

/-- Whether all values of a list can be keys. -/
def allHashable : List Value → Bool
  | [] => true
  | value :: rest => isHashable value && allHashable rest

end

end Value

end Stylesheet
