import Stylesheet.Fault
import Stylesheet.Number.IntegerText
import Stylesheet.Value.Basic

/-!
# Values as whole numbers

An indentation may be given as a number, as a truth value, or as a text or bytes that a number can
be read from.

## Main definitions

* `Value.wholeNumber` — the integer that a value stands for.
* `Value.spaces` — the number of spaces that a value stands for.
-/

namespace Stylesheet.Value

/-- The characters of bytes that may stand for an integer.  None beyond ASCII may. -/
def asciiChars (b : ByteArray) : List Char :=
  b.data.toList.map fun n => if n < 0x80 then Char.ofNat n.toNat else '\ufffd'

/-- The integer that a text stands for. -/
def parseInteger (cs : List Char) : Except Fault Int :=
  match IntegerText.read? cs with
  | some i => .ok i
  | Option.none => .error .notAnInteger

/-- The integer that a value stands for.  Numbers lose their fractional part. -/
def wholeNumber : Value → Except Fault Int
  | bool b => .ok (if b then 1 else 0)
  | int i => .ok i
  | float (.finite x) => .ok x.truncate
  | float (.infinite _) => .error .tooLarge
  | float (.nan _) => .error .notAnInteger
  | text s => parseInteger s.toList
  | bytes b => parseInteger (asciiChars b)
  | _ => .error .wrongType

/-- The number of spaces that a value stands for.  What does not count as true stands for none, and
so does a negative number. -/
def spaces (value : Value) : Except Fault Nat :=
  if value.isTrue then Int.toNat <$> wholeNumber value else .ok 0

end Stylesheet.Value
