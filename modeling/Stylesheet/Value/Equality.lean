import Stylesheet.Value.Basic

/-!
# Equality of values

Truth values, integers and floating-point numbers are equal if they are the same number.  Sequences
are equal if both or none of them are tuples and they are equal element by element; mappings of all
kinds, and sets of both, are equal whatever the order of their members.  Opaque and deferred values,
and floating-point values that are not numbers, are equal only to themselves.

## Main definitions

* `Value.same` — equality.
* `Value.lookup?` — the value under a key.
* `Value.putEntry` — a mapping with one entry replaced or added.
-/

namespace Stylesheet.Value

/-- Whether a value is the given integer. -/
def sameInt (i : Int) : Value → Bool
  | bool b => i == if b then 1 else 0
  | int j => i == j
  | float (.finite x) => x.isInt i
  | _ => false

/-- Whether a value is the given floating-point number. -/
def sameFloat (x : Binary64) : Value → Bool
  | float y => x.same y
  | value => match x with
    | .finite x => match value with
      | bool b => x.isInt (if b then 1 else 0)
      | int i => x.isInt i
      | _ => false
    | _ => false

mutual

/-- Equality of values. -/
def same (a b : Value) : Bool :=
  match a with
  | none => match b with | none => true | _ => false
  | bool p => b.sameInt (if p then 1 else 0)
  | int i => b.sameInt i
  | float x => b.sameFloat x
  | text s => match b with | text t => s == t | _ => false
  | bytes s => match b with | bytes t => s == t | _ => false
  | seq kind items => match b with
    | seq kind' items' => kind.isTuple == kind'.isTuple && sameItems items items'
    | _ => false
  | mapping _ entries => match b with
    | mapping _ entries' => entries.length == entries'.length && entriesAmong entries entries'
    | _ => false
  | set _ items => match b with
    | set _ items' => items.length == items'.length && itemsAmong items items'
    | _ => false
  | symbol id _ => match b with | symbol id' _ => id == id' | _ => false
  | stream id _ _ _ => match b with | stream id' _ _ _ => id == id' | _ => false
  | deferred id _ => match b with | deferred id' _ => id == id' | _ => false
  | method m owner => match b with
    | method m' owner' => m == m' && same owner owner'
    | _ => false
termination_by structural a

/-- Equality of sequences, element by element. -/
def sameItems (as bs : List Value) : Bool :=
  match as, bs with
  | [], [] => true
  | a :: as, b :: bs => same a b && sameItems as bs
  | _, _ => false

/-- Whether every entry of one mapping is one of another. -/
def entriesAmong (as bs : List (Value × Value)) : Bool :=
  match as with
  | [] => true
  | (key, value) :: as =>
    (bs.any fun entry => same key entry.1 && same value entry.2) && entriesAmong as bs

/-- Whether every element of one set is one of another. -/
def itemsAmong (as bs : List Value) : Bool :=
  match as with
  | [] => true
  | a :: as => (bs.any fun b => same a b) && itemsAmong as bs

end

instance : BEq Value := ⟨same⟩

/-- The value that a list of entries has under a key. -/
def lookup? (entries : List (Value × Value)) (key : Value) : Option Value :=
  (entries.find? fun entry => entry.1.same key).map Prod.snd

/-- The value that a list of entries has under a text. -/
def field? (entries : List (Value × Value)) (name : String) : Option Value :=
  lookup? entries (text name)

/-- The entries with a value put under a key.  A key that is there keeps its place, and a new one
comes last. -/
def putEntry : List (Value × Value) → Value → Value → List (Value × Value)
  | [], key, value => [(key, value)]
  | (key', value') :: rest, key, value =>
    if key'.same key then (key', value) :: rest else (key', value') :: putEntry rest key value

/-- The entries with all of others put in, one after the other. -/
def putEntries (entries others : List (Value × Value)) : List (Value × Value) :=
  others.foldl (fun entries entry => putEntry entries entry.1 entry.2) entries

/-- The elements of a list without those that are equal to an earlier one. -/
def distinct (items : List Value) : List Value :=
  items.foldl (fun kept item => if kept.any item.same then kept else kept ++ [item]) []

end Stylesheet.Value
