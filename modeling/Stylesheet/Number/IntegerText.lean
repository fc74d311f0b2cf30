import Stylesheet.Text.CodeRange
import Stylesheet.Text.DecimalDigit

/-!
# Integers as text

Integers are written in plain decimal notation and read back from a more liberal form: white space
around them, a sign, the digits of any script, and single underscores between two digits.  Both
directions refuse numbers of more than `maxDigits` digits.

## Main definitions

* `IntegerText.write?` — the decimal text of an integer.
* `IntegerText.read?` — the integer that a text stands for.
-/

namespace Stylesheet.IntegerText

open Text (decimalDigit?)

/-- The largest number of digits that is read or written. -/
def maxDigits : Nat := 4300

/-- The decimal digits of an integer, with a minus sign in front of a negative one. -/
def digits (i : Int) : String :=
  let magnitude := String.ofList (Nat.toDigits 10 i.natAbs)
  if i < 0 then "-" ++ magnitude else magnitude

/-- The decimal text of an integer, unless it has more than `maxDigits` digits. -/
def write? (i : Int) : Option String :=
  if i.natAbs < Nat.pow 10 maxDigits then some (digits i) else none

/-- The white space that may surround a number.  The information separators, which separate
words elsewhere, are not part of it. -/
def paddingRanges : Text.CodeRanges :=
  [(0x09, 0x0d), (0x20, 0x20), (0x85, 0x85), (0xa0, 0xa0), (0x1680, 0x1680), (0x2000, 0x200a),
   (0x2028, 0x2029), (0x202f, 0x202f), (0x205f, 0x205f), (0x3000, 0x3000)]

/-- Whether a character may surround a number. -/
def isPadding (c : Char) : Bool :=
  paddingRanges.has c

/-- A text without what may surround a number. -/
def unpadded (cs : List Char) : List Char :=
  ((cs.dropWhile isPadding).reverse.dropWhile isPadding).reverse

/-- The values of the digits that follow a digit. -/
def moreDigits? : List Char → Option (List Nat)
  | [] => some []
  | '_' :: c :: rest => do return (← decimalDigit? c) :: (← moreDigits? rest)
  | c :: rest => do return (← decimalDigit? c) :: (← moreDigits? rest)

/-- The values of the digits of a numeral, which is not empty, neither starts nor ends with an
underscore, and has no two underscores in a row. -/
def digits? : List Char → Option (List Nat)
  | [] => none
  | c :: rest => do return (← decimalDigit? c) :: (← moreDigits? rest)

/-- The number with the given digits, the most significant one first. -/
def ofDigits (ds : List Nat) : Nat :=
  ds.foldl (fun n d => 10 * n + d) 0

/-- The number that an unsigned numeral stands for.  Zeros in front count as digits. -/
def magnitude? (cs : List Char) : Option Nat := do
  let ds ← digits? cs
  if ds.length ≤ maxDigits then some (ofDigits ds) else none

/-- The integer that a text stands for, and `none` if it stands for no integer. -/
def read? (cs : List Char) : Option Int :=
  match unpadded cs with
  | '-' :: rest => (magnitude? rest).map fun n => -(n : Int)
  | '+' :: rest => (magnitude? rest).map fun n => (n : Int)
  | cs => (magnitude? cs).map fun n => (n : Int)

end Stylesheet.IntegerText
