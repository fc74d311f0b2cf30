import Stylesheet.Options.Access
import Stylesheet.Run

/-!
# Deferred values

A deferred value stands for the value that it gives when it is called with the options, which may be
another deferred value.  Calls can have effects on one another, so they are made in a run.

## Main definitions

* `Argument`, `Caller` — what deferred values are called with, and how, and the lists that they
  change.
* `Value.call` — calls a value with options; `Value.ask` asks one about a text.
* `resolve` — calls a value until it is no longer one that can be called.
* `Computation`, `Ledger`, `Ledger.call` — deferred values that are described by data.
-/

namespace Stylesheet

/-- What a deferred value is called with: the options of a conversion or, where it is asked to
compare, a text. -/
inductive Argument where
  | options (o : Options)
  | text (s : String)

namespace Argument

/-- The character of a text at a place.  Negative places count from the end. -/
def character (s : String) (place : Int) : Except Fault Value :=
  let cs := s.toList
  let place := if place < 0 then place + cs.length else place
  if place < 0 then .error .noCharacter
  else match cs[place.toNat]? with
    | some c => .ok (.text (String.ofList [c]))
    | none => .error .noCharacter

/-- What stands under a key, or at a place. -/
def item : Argument → Value → Except Fault Value
  | options o, key => o.item key
  | text s, .int place => character s place
  | text s, .bool b => character s (if b then 1 else 0)
  | text _, _ => .error .wrongType

/-- An attribute, which only options have. -/
def attr : Argument → String → Except Fault Value
  | options o, name => o.attr name
  | text _, _ => .error .noOperation

/-- What stands under a key, or a default. -/
def getD : Argument → Value → Value → Except Fault Value
  | options o, key, fallback => o.getD key fallback
  | text _, _, _ => .error .noOperation

/-- The texts of the keys, or the characters. -/
def keys : Argument → Except Fault (List String)
  | options o => o.entries.mapM fun entry => entry.1.asText
  | text s => .ok (s.toList.map fun c => String.ofList [c])

end Argument

/-- How deferred values are called, and what becomes of the lists that they know. -/
structure Caller (σ : Type) where
  /-- Calls the deferred value with a given identity. -/
  call : Argument → Nat → Run σ Value
  /-- The elements of the list with a given identity, if it has been changed. -/
  changed? : σ → Nat → Option (List Value)

variable {σ : Type}

instance : CoeFun (Caller σ) fun _ => Argument → Nat → Run σ Value := ⟨Caller.call⟩

namespace Value

/-- Asks a value a question about a text by its deferred entry of that name.  Only options let their
entries be asked in this way. -/
def ask (caller : Caller σ) (question s : String) : Value → Run σ Bool
  | mapping .options entries =>
    match field? entries question with
    | some (deferred id _) => isTrue <$> caller (.text s) id
    | some _ => throw .wrongType
    | Option.none => throw (.noAttribute question)
  | bytes _ => throw .wrongType
  | _ => throw .noOperation

/-- What a comparison comes to of things that have no order. -/
def undecided : Value := symbol 0 "NotImplemented"

/-- Calls a method of an owner with options. -/
def callMethod (caller : Caller σ) (m : Method) (owner : Value) (o : Options) : Run σ Value :=
  match m.effect with
  | .argument => pure o.toValue
  | .renewal => pure o.renewed.toValue
  | .naming => pure (method .aliased o.toValue)
  | .nothing => pure none
  | .equality expected => pure (bool (owner.same o.toValue == expected))
  | .deletion => do throw (.readOnlyDelete (← Run.ofExcept o.toValue.asText))
  | .entry => do
    if ← ask caller "startswith" "__" o.toValue then
      throw (.noAttribute (← Run.ofExcept o.toValue.asText))
    else throw .wrongType
  | .comparison => pure undecided
  | .refusal => throw .wrongType

/-- Calls a value with options. -/
def call (caller : Caller σ) (o : Options) : Value → Run σ Value
  | deferred id _ => caller (.options o) id
  | method m owner => callMethod caller m owner o
  | _ => throw .wrongType

end Value

/-- The number of calls after which a value is given up. -/
def maxCalls : Nat := 64

/-- Calls a value, and what it gives, as long as that can be called, up to a number of times. -/
def resolveWithin (caller : Caller σ) (o : Options) : Nat → Value → Run σ Value
  | 0, value =>
    if value.isCallable then do throw (.unresolved maxCalls (← Run.ofExcept value.shown))
    else pure value
  | calls + 1, value =>
    if value.isCallable then do resolveWithin caller o calls (← value.call caller o)
    else pure value

/-- The value that a value stands for. -/
def resolve (caller : Caller σ) (o : Options) (value : Value) : Run σ Value :=
  resolveWithin caller o maxCalls value

/-! ## Computations -/

/-- Deferred values that are described by data. -/
inductive Computation where
  /-- Gives a value. -/
  | give (value : Value)
  /-- Gives the entry of its argument under a key. -/
  | item (key : Value)
  /-- Gives an attribute of its argument. -/
  | attr (name : String)
  /-- Gives the entry of its argument under a key, or a default. -/
  | get (key fallback : Value)
  /-- Gives itself. -/
  | itself
  /-- Gives the texts of the keys of its argument. -/
  | keys
  /-- Gives one value after the other, and the last one ever after. -/
  | inTurn (values : List Value)
  /-- Gives a value after a number of calls. -/
  | chain (calls : Int) (value : Value)
  /-- Fails. -/
  | signal (kind : SignalKind) (text : String)
  /-- Changes the elements of a list, and gives nothing. -/
  | change (list : Nat) (items : List Value)

/-- The deferred values there are, each at the place of its identity, the calls made so far, and the
lists that have been changed with their elements, both latest first. -/
structure Ledger where
  computations : Array Computation
  calls : List Nat
  changes : List (Nat × List Value)

namespace Ledger

/-- Deferred values of which none has been called. -/
def of (computations : Array Computation) : Ledger := ⟨computations, [], []⟩

/-- No deferred values. -/
def empty : Ledger := of #[]

/-- The deferred value with a given identity.  All of them are shown alike. -/
def entered (id : Nat) : Value := .deferred id (.ok "<fn>")

/-- Enters a deferred value. -/
def enter (ledger : Ledger) (computation : Computation) : Value × Ledger :=
  (entered ledger.computations.size,
   { ledger with computations := ledger.computations.push computation })

/-- The outcome of a computation of the given identity, called as often as the ledger says. -/
def perform (argument : Argument) (id : Nat) : Computation → Run Ledger Value
  | .give value => pure value
  | .item key => Run.ofExcept (argument.item key)
  | .attr name => Run.ofExcept (argument.attr name)
  | .get key fallback => Run.ofExcept (argument.getD key fallback)
  | .itself => pure (entered id)
  | .keys => Run.ofExcept do return .seq .list ((← argument.keys).map .text)
  | .inTurn values => do
    let calls := (← get).calls.count id
    match values[calls - 1]?, values.getLast? with
    | some value, _ => pure value
    | none, some last => pure last
    | none, none => throw .wrongType
  | .chain calls value =>
    if calls ≤ 1 then pure value
    else modifyGet (·.enter (.chain (calls - 1) value))
  | .signal kind text => throw (.signalled kind text)
  | .change list items => do
    modify fun ledger => { ledger with changes := (list, items) :: ledger.changes }
    return .none

/-- Calls the deferred value of the given identity, and enters the call. -/
def callEntered (argument : Argument) (id : Nat) : Run Ledger Value := do
  modify fun ledger => { ledger with calls := id :: ledger.calls }
  match (← get).computations[id]? with
  | some computation => perform argument id computation
  | none => throw .wrongType

/-- How the deferred values of a ledger are called. -/
def call : Caller Ledger where
  call := callEntered
  changed? ledger list := ledger.changes.lookup list

end Ledger

end Stylesheet
