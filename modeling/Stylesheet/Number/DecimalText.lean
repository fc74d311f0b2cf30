import Stylesheet.Number.Binary64
import Stylesheet.Number.IntegerText

/-!
# Binary numbers as text

A number is written with the fewest decimal digits that read back as the same number, and of those
with the ones nearest to it.  It is written positionally if it is neither very small nor very
large, and in powers of ten otherwise.

## Main definitions

* `Binary64.Finite.shortest` — the shortest decimal that reads back as a number.
* `DecimalStyle` — how the digits of a decimal are laid out.
* `Binary64.write` — a number as text.
* `Binary64.read?` — the number that a text stands for.
-/

namespace Stylesheet

namespace Binary64.Finite

/-- The distance of a decimal `coefficient * 10 ^ power` and of a multiple of a quarter of the last
mantissa bit are compared on a common scale: the first component is the decimal, the second one the
multiple of the quarter. -/
def onScale (x : Finite) (power : Int) (coefficient quarters : Nat) : Nat × Nat :=
  let quarter := x.exponent - 2
  (coefficient * Nat.pow 10 power.toNat * Nat.pow 2 (-quarter).toNat,
   quarters * Nat.pow 2 quarter.toNat * Nat.pow 10 (-power).toNat)

/-- The quarters of the last mantissa bit from a number down to the middle between it and the number
below: one at the least mantissa of an exponent, where the numbers below are twice as dense. -/
def quartersBelow (x : Finite) : Nat :=
  if x.mantissa = leastNormal ∧ -1074 < x.exponent then 1 else 2

/-- Whether the decimal `coefficient * 10 ^ power` reads back as the magnitude of the number: it
lies between the middles to the two neighbours, which themselves go to an even mantissa. -/
def readsBack (x : Finite) (power : Int) (coefficient : Nat) : Bool :=
  let low := x.onScale power coefficient (4 * x.mantissa - x.quartersBelow)
  let high := x.onScale power coefficient (4 * x.mantissa + 2)
  if x.mantissa % 2 = 0 then low.2 ≤ low.1 && high.1 ≤ high.2
  else low.2 < low.1 && high.1 < high.2

/-- The decimal with the given power of ten that reads back as the magnitude of the number and is
nearest to it, a tie going to the even coefficient. -/
def decimalAt? (x : Finite) (power : Int) : Option Nat :=
  let (unit, value) := x.onScale power 1 (4 * x.mantissa)
  let below := value / unit
  let nearest := roundHalfEven value unit
  let other := if nearest = below then below + 1 else below
  if x.readsBack power nearest then some nearest
  else if x.readsBack power other then some other
  else none

/-- The first of `count` powers of ten, going down from `power`, with a decimal that reads back. -/
def shortestFrom (x : Finite) (power : Int) : Nat → Nat × Int
  | 0 => (0, 0)
  | count + 1 =>
    match x.decimalAt? power with
    | some coefficient => (coefficient, power)
    | none => x.shortestFrom (power - 1) count

/-- The shortest decimal `coefficient * 10 ^ power` that reads back as the magnitude of the number.

The coarser the grid of a power of ten, the fewer digits its points have near the number, so the
first grid with a point that reads back has the shortest one.  Every number has such a point on the
grid of its own last bit, at the latest. -/
def shortest (x : Finite) : Nat × Int :=
  if x.isZero then (0, 0) else x.shortestFrom 309 1384

end Binary64.Finite

/-- The layout of a decimal: where positional notation begins and ends, by the power of ten of the
first digit, and the least number of digits of an exponent. -/
structure DecimalStyle where
  leastPositional : Int
  positionalEnd : Int
  exponentDigits : Nat

/-- Numbers from a ten-thousandth up to below `10 ^ 16` are written positionally. -/
def DecimalStyle.standard : DecimalStyle := ⟨-4, 16, 2⟩

/-- The digits of a decimal `coefficient * 10 ^ power`, laid out.  A positional text has at least
one digit on either side of the point. -/
def DecimalStyle.layout (style : DecimalStyle) (coefficient : Nat) (power : Int) : List Char :=
  let digits := Nat.toDigits 10 coefficient
  let first := power + digits.length - 1
  if style.leastPositional ≤ first ∧ first < style.positionalEnd then
    if first < 0 then
      '0' :: '.' :: List.replicate (-first - 1).toNat '0' ++ digits
    else
      let whole := (first + 1).toNat
      let fraction := digits.drop whole
      digits.take whole ++ List.replicate (whole - digits.length) '0' ++
        '.' :: (if fraction.isEmpty then ['0'] else fraction)
  else
    let exponent := Nat.toDigits 10 first.natAbs
    digits.take 1 ++ (if digits.length ≤ 1 then [] else '.' :: digits.drop 1) ++
      'e' :: (if first < 0 then '-' else '+') ::
        List.replicate (style.exponentDigits - exponent.length) '0' ++ exponent

namespace Binary64

/-- A finite number as text. -/
def Finite.write (x : Finite) : String :=
  let (coefficient, power) := x.shortest
  let magnitude := String.ofList (DecimalStyle.standard.layout coefficient power)
  if x.negative then "-" ++ magnitude else magnitude

/-- A number as text. -/
def write : Binary64 → String
  | nan _ => "nan"
  | infinite negative => if negative then "-inf" else "inf"
  | finite x => x.write

/-- A numeral without its sign, and whether that is a minus sign. -/
def splitSign : List Char → Bool × List Char
  | '-' :: rest => (true, rest)
  | '+' :: rest => (false, rest)
  | cs => (false, cs)

/-- Whether a character stands before an exponent of ten. -/
def isExponentMark (c : Char) : Bool :=
  c = 'e' || c = 'E'

/-- The digits before or after a point, of which there may be none. -/
def partDigits? (cs : List Char) : Option (List Nat) :=
  if cs.isEmpty then some [] else IntegerText.digits? cs

/-- The exponent of ten that stands at the end of a decimal, after its mark. -/
def readExponent? (cs : List Char) : Option Int :=
  let (negative, cs) := splitSign cs
  (IntegerText.digits? cs).map fun ds =>
    if negative then -(IntegerText.ofDigits ds : Int) else IntegerText.ofDigits ds

/-- The number that an unsigned decimal stands for: digits with at most one point before, among or
after them, and possibly an exponent. -/
def readMagnitude? (negative : Bool) (cs : List Char) : Option Binary64 := do
  let mantissa := cs.takeWhile fun c => !isExponentMark c
  let whole ← partDigits? (mantissa.takeWhile (· != '.'))
  let fraction ← partDigits? ((mantissa.dropWhile (· != '.')).drop 1)
  let exponent ← match cs.dropWhile fun c => !isExponentMark c with
    | [] => some 0
    | _ :: exponent => readExponent? exponent
  let coefficient := IntegerText.ofDigits (whole ++ fraction)
  if whole.isEmpty && fraction.isEmpty then none
  else return ofDecimal negative coefficient (exponent - fraction.length)

/-- A text with the capital letters of ASCII made small. -/
def smallLetters (cs : List Char) : List Char :=
  cs.map Char.toLower

/-- The number that a text stands for, which white space may surround.  The tag is given to what is
not a number. -/
def read? (tag : Nat) (s : String) : Option Binary64 :=
  let (negative, cs) := splitSign (IntegerText.unpadded s.toList)
  if smallLetters cs = "nan".toList then some (nan tag)
  else if smallLetters cs ∈ ["inf".toList, "infinity".toList] then some (infinite negative)
  else readMagnitude? negative cs

end Binary64

end Stylesheet
