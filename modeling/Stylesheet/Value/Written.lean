import Stylesheet.Fault
import Stylesheet.Number.DecimalText
import Stylesheet.Value.Basic

/-!
# Values as text

Messages show a value in a form that tells its type: texts are quoted and containers are bracketed.
Where a text is asked for, as for a key, a text stands for itself, a view stands for what it is a
view of, and any other value for its shown form.  All of this fails if an integer in the value is
too long to be written, or if something in it that can be called cannot be shown.

## Main definitions

* `Value.shown` — the form in which messages show a value.
* `Value.asText` — the text that a value stands for.
-/

namespace Stylesheet.Value

/-- A text between two others. -/
def between (opening : String) (body : String) (closing : String) : String :=
  opening ++ body ++ closing

/-- The members of a container, with commas between them. -/
def commaList (members : List String) : String :=
  ", ".intercalate members

/-- A sequence from its shown elements.  A comma tells a tuple of one element from its element. -/
def showSeq : SeqKind → List String → String
  | .tuple, [item] => between "(" item ",)"
  | .tuple, items => between "(" (commaList items) ")"
  | .list, items | .shared _, items => between "[" (commaList items) "]"

/-- A mapping from its shown entries. -/
def showMapping (kind : MappingKind) (entries : List String) : String :=
  let body := between "\x7b" (commaList entries) "\x7d"
  match kind with
  | .plain => body
  | .view => between "mappingproxy(" body ")"
  | .options => between "<Options " body ">"

/-- A set from its shown elements. -/
def showSet (frozen : Bool) (items : List String) : String :=
  let body := between "\x7b" (commaList items) "\x7d"
  match frozen, items with
  | false, [] => "set()"
  | true, [] => "frozenset()"
  | false, _ => body
  | true, _ => between "frozenset(" body ")"

/-- An integer as text. -/
def showInt (i : Int) : Except Fault String :=
  match IntegerText.write? i with
  | some s => .ok s
  | Option.none => .error .tooManyDigits

mutual

/-- The form in which messages show a value. -/
def shown : Value → Except Fault String
  | none => .ok "None"
  | bool b => .ok (if b then "True" else "False")
  | int i => showInt i
  | float x => .ok x.write
  | text s => .ok (String.ofList (Text.quote s.toList))
  | bytes b => .ok (String.ofList (Text.quoteBytes b.data.toList))
  | seq kind items => return showSeq kind (← shownItems items)
  | mapping kind entries => return showMapping kind (← shownEntries entries)
  | set frozen items => return showSet frozen (← shownItems items)
  | symbol _ shown | stream _ shown _ _ => .ok shown
  | deferred _ shown => shown
  | method m owner => m.describe (shown owner)

/-- The shown forms of the elements of a list. -/
def shownItems : List Value → Except Fault (List String)
  | [] => .ok []
  | item :: rest => return (← shown item) :: (← shownItems rest)

/-- The shown forms of the entries of a mapping. -/
def shownEntries : List (Value × Value) → Except Fault (List String)
  | [] => .ok []
  | (key, value) :: rest => do
    return ((← shown key) ++ ": " ++ (← shown value)) :: (← shownEntries rest)

end

/-- The text that a value stands for. -/
def asText : Value → Except Fault String
  | text s => .ok s
  | mapping .view entries => shown (mapping .plain entries)
  | value => shown value

@[simp] theorem asText_text (s : String) : asText (text s) = .ok s := rfl

end Stylesheet.Value
