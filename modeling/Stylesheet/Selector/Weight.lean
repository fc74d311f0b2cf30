/-!
# The order of selectors

In a sorted sheet the universal selector comes first, then identifiers, classes, attributes, all
other keys, and at-rules last.  The first character of a key tells which of these it is, and keys of
one group are ordered by their characters.

## Main definitions

* `Selector.weight` — the group of a key.
* `Selector.rank` — the text by which keys are ordered.
-/

namespace Stylesheet.Selector

/-- The weight of a key that starts with the given character. -/
def charWeight : Char → String
  | '*' => "10"
  | '#' => "20"
  | '.' => "30"
  | '[' => "40"
  | '@' => "90"
  | _ => "15"

/-- The weight of a key.  The empty key comes first. -/
def weight (key : String) : String :=
  match key.toList with
  | [] => "00"
  | c :: _ => charWeight c

/-- The text by which keys are ordered. -/
def rank (key : String) : String :=
  weight key ++ key

end Stylesheet.Selector
