import Stylesheet.Value.Equality

/-!
# The order of a set

The order of the elements of a set has no meaning, but a set that is shown or gone through has one
all the same.  Numbers have places, which do not depend on their type, and come in the order of
their places; small numbers are thus in ascending order.  Other elements stay as they were given.

## Main definitions

* `Value.place?` — the place of a number among so many.
* `Value.setElements` — the elements of the set of some values, in order.
-/

namespace Stylesheet.Value

/-- The modulus at which numbers are told apart by their places. -/
def placeModulus : Nat := 2305843009213693951

/-- A magnitude below the modulus, with a sign.  One below zero shares its place with two below. -/
def reduced (negative : Bool) (magnitude : Nat) : Int :=
  let r : Int := (magnitude % placeModulus : Nat)
  if negative then (if r = 1 then -2 else -r) else r

/-- The number that the place of a value depends on: equal numbers of all types have the same one.
A power of two has the same remainder as the one whose exponent is less by 61. -/
def reduced? : Value → Option Int
  | bool b => some (if b then 1 else 0)
  | int i => some (reduced (i < 0) i.natAbs)
  | float (.finite x) => some (reduced x.negative (x.mantissa * Nat.pow 2 (x.exponent % 61).toNat))
  | float (.infinite negative) => some (if negative then -314159 else 314159)
  | _ => Option.none

/-- The number of places that there are for so many elements. -/
def placesFor (count : Nat) : Nat :=
  if count < 5 then 8 else if count < 19 then 32 else if count < 77 then 128 else 512

/-- The place of a number among so many elements. -/
def place? (count : Nat) (value : Value) : Option Nat :=
  (reduced? value).map fun r : Int => (r % (placesFor count : Int)).toNat

/-- Puts an element in front of the first one whose place is not before its own. -/
def insertPlaced (place : Nat) (value : Value) : List (Nat × Value) → List (Nat × Value)
  | [] => [(place, value)]
  | (place', value') :: rest =>
    if place ≤ place' then (place, value) :: (place', value') :: rest
    else (place', value') :: insertPlaced place value rest

/-- Numbers in the order of their places, and other elements as they were given. -/
def arranged (items : List Value) : List Value :=
  match items.mapM (place? items.length) with
  | some places =>
    ((places.zip items).foldr (fun entry => insertPlaced entry.1 entry.2) []).map Prod.snd
  | Option.none => items

/-- The elements of the set of some values, in order. -/
def setElements (items : List Value) : List Value :=
  arranged (distinct items)

/-- Putting in an element adds it and nothing else. -/
theorem insertPlaced_perm (place : Nat) (value : Value) (entries : List (Nat × Value)) :
    (insertPlaced place value entries).Perm ((place, value) :: entries) := by
  induction entries with
  | nil => exact .refl _
  | cons entry rest ih =>
    obtain ⟨place', value'⟩ := entry
    by_cases h : place ≤ place'
    · simp [insertPlaced, h]
    · simpa [insertPlaced, h] using (ih.cons (place', value')).trans (.swap ..)

end Stylesheet.Value
