/-!
# Binary floating-point numbers

The numbers of the binary64 interchange format, held exactly: a finite number is a sign, a mantissa
of at most 53 bits and a power of two, in the one form that the format allows.

## Main definitions

* `Binary64` — a finite number, an infinity, or something that is not a number.
* `Binary64.ofDecimal` — the number nearest to a decimal.
* `Binary64.Finite.truncate`, `Binary64.Finite.isIntegral` — the integer part, and whether it is
  all of the number.
* `Binary64.same` — equality of numbers.
-/

namespace Stylesheet

/-- The least mantissa of 53 bits. -/
def Binary64.leastNormal : Nat := 4503599627370496

/-- The form that a mantissa and an exponent of two have in the format: 53 bits of mantissa, or
fewer at the least exponent. -/
def Binary64.IsCanonical (mantissa : Nat) (exponent : Int) : Prop :=
  mantissa < 2 * leastNormal ∧ -1074 ≤ exponent ∧ exponent ≤ 971 ∧
    (leastNormal ≤ mantissa ∨ exponent = -1074)

instance (mantissa : Nat) (exponent : Int) : Decidable (Binary64.IsCanonical mantissa exponent) :=
  inferInstanceAs (Decidable (_ ∧ _ ∧ _ ∧ (_ ∨ _)))

/-- A finite number: `mantissa * 2 ^ exponent`, negated if `negative`. -/
structure Binary64.Finite where
  negative : Bool
  mantissa : Nat
  exponent : Int
  canonical : IsCanonical mantissa exponent

/-- A number of the binary64 format.  What is not a number carries a tag, since two such things are
the same only if they are one and the same thing. -/
inductive Binary64 where
  | nan (tag : Nat)
  | infinite (negative : Bool)
  | finite (x : Binary64.Finite)

/-- The integer nearest to `numerator / denominator`; of two equally near ones, the even one. -/
def roundHalfEven (numerator denominator : Nat) : Nat :=
  let quotient := numerator / denominator
  let remainder := numerator % denominator
  if 2 * remainder < denominator ∨ (2 * remainder = denominator ∧ quotient % 2 = 0) then quotient
  else quotient + 1

namespace Binary64

namespace Finite

/-- Zero, of either sign. -/
def isZero (x : Finite) : Bool :=
  x.mantissa == 0

/-- The integer part of the magnitude. -/
def integerPart (x : Finite) : Nat :=
  if 0 ≤ x.exponent then x.mantissa * Nat.pow 2 x.exponent.toNat
  else x.mantissa / Nat.pow 2 (-x.exponent).toNat

/-- The number with its fractional part cut off. -/
def truncate (x : Finite) : Int :=
  if x.negative then -(x.integerPart : Int) else x.integerPart

/-- Whether the number is an integer. -/
def isIntegral (x : Finite) : Bool :=
  0 ≤ x.exponent || x.mantissa % Nat.pow 2 (-x.exponent).toNat == 0

/-- Equality of finite numbers.  The two zeros are equal, and otherwise a number has one form. -/
def same (x y : Finite) : Bool :=
  (x.isZero && y.isZero) ||
    (x.negative == y.negative && x.mantissa == y.mantissa && x.exponent == y.exponent)

/-- Whether the number is the given integer. -/
def isInt (x : Finite) (i : Int) : Bool :=
  x.isIntegral && x.truncate == i

end Finite

/-- Equality of numbers.  What is not a number is the same only as itself. -/
def same : Binary64 → Binary64 → Bool
  | nan a, nan b => a == b
  | infinite a, infinite b => a == b
  | finite x, finite y => x.same y
  | _, _ => false

/-- Whether the number is zero. -/
def isZero : Binary64 → Bool
  | finite x => x.isZero
  | _ => false

/-- The multiple of `2 ^ exponent` nearest to `numerator / denominator`, as a number of times. -/
def roundAt (numerator denominator : Nat) (exponent : Int) : Nat :=
  roundHalfEven (numerator * Nat.pow 2 (-exponent).toNat) (denominator * Nat.pow 2 exponent.toNat)

/-- The number nearest to `numerator / denominator`, a half going to the even mantissa.

The first exponent tried leaves at least 53 bits; if rounding there needs more, one of the next two
leaves exactly 53.  A magnitude for which none is in range is an infinity. -/
def ofQuotient (negative : Bool) (numerator denominator : Nat) : Binary64 :=
  let first := max ((numerator.log2 : Int) - denominator.log2 - 53) (-1074)
  let candidate (exponent : Int) : Option Finite :=
    if h : IsCanonical (roundAt numerator denominator exponent) exponent then
      some ⟨negative, _, exponent, h⟩
    else none
  match [first, first + 1, first + 2].findSome? candidate with
  | some x => finite x
  | none => infinite negative

/-- The zero of the given sign. -/
def signedZero (negative : Bool) : Finite :=
  ⟨negative, 0, -1074, by decide⟩

/-- The number nearest to `coefficient * 10 ^ exponent`.  Decimals far above the largest number are
infinite and those far below the least one are zero, whatever their digits. -/
def ofDecimal (negative : Bool) (coefficient : Nat) (exponent : Int) : Binary64 :=
  let size := (Nat.toDigits 10 coefficient).length + exponent
  if coefficient = 0 ∨ size < -400 then finite (signedZero negative)
  else if 400 < size then infinite negative
  else ofQuotient negative (coefficient * Nat.pow 10 exponent.toNat)
    (Nat.pow 10 (-exponent).toNat)

end Binary64

end Stylesheet
