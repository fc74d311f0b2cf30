import Stylesheet.Text.Printable

/-!
# Quoted texts

The form in which messages show a text or a string of bytes: between quotes, with escapes for what
does not print.  Apostrophes are the usual quotes; a text that holds an apostrophe and no double
quote is put between double quotes instead, so that nothing in it needs an escape.

## Main definitions

* `quote` — a text between quotes.
* `quoteBytes` — a string of bytes between quotes.
-/

namespace Stylesheet.Text

/-- A number in lower-case hexadecimal, with zeros in front up to the width. -/
def hex (width n : Nat) : List Char :=
  let digits := Nat.toDigits 16 n
  List.replicate (width - digits.length) '0' ++ digits

/-- The quote that a text is put between. -/
def quoteMark (hasApostrophe hasQuote : Bool) : Char :=
  if hasApostrophe && !hasQuote then '"' else '\''

/-- A character as it stands in a text between quotes. -/
def escapeChar (mark c : Char) : List Char :=
  if c = mark || c = '\\' then ['\\', c]
  else if c = '\n' then ['\\', 'n']
  else if c = '\r' then ['\\', 'r']
  else if c = '\t' then ['\\', 't']
  else if isPrintable c then [c]
  else if c.toNat < 0x100 then '\\' :: 'x' :: hex 2 c.toNat
  else if c.toNat < 0x10000 then '\\' :: 'u' :: hex 4 c.toNat
  else '\\' :: 'U' :: hex 8 c.toNat

/-- A text between quotes. -/
def quote (cs : List Char) : List Char :=
  let mark := quoteMark (cs.contains '\'') (cs.contains '"')
  mark :: cs.flatMap (escapeChar mark) ++ [mark]

/-- A byte as it stands in a string of bytes between quotes: only the printable characters of ASCII
stand for themselves. -/
def escapeByte (mark : Char) (b : UInt8) : List Char :=
  if b < 0x80 then escapeChar mark (Char.ofNat b.toNat) else '\\' :: 'x' :: hex 2 b.toNat

/-- A string of bytes between quotes, with a `b` in front. -/
def quoteBytes (bytes : List UInt8) : List Char :=
  let mark := quoteMark (bytes.contains 0x27) (bytes.contains 0x22)
  'b' :: mark :: bytes.flatMap (escapeByte mark) ++ [mark]

end Stylesheet.Text
