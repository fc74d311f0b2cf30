import Stylesheet.Options.Basic
import Stylesheet.Value.SetOrder
import Stylesheet.Value.WholeNumber
import Stylesheet.Value.Written

/-!
# Building options

Options are built from the entries of a mapping and from keywords, which come after them.  The four
settings are brought to their proper types: a unit is a text, sorting is a truth value, an
indentation that is not a number of spaces is none, and custom names are gathered into a set.

## Main definitions

* `Options.build` — the options with the given entries.
* `Options.ensure` — the options that a mapping, or nothing, and keywords stand for.
* `Options.ofArguments` — the options that arguments stand for, where a keyword may take the place
  of the mapping.
* `Options.ofPairs` — the options with the entries that any value stands for.
-/

namespace Stylesheet.Options

open Value (asText shown field? putEntries)

/-- The four settings that the library reads itself. -/
def settings : List String := ["unit", "sort", "indent", "customs"]

/-- Whether a key is that of a setting. -/
def isSetting (key : Value) : Bool :=
  settings.any fun name => key.same (.text name)

/-- The indentation that a value sets: what is not a number sets none. -/
def readIndent (value : Value) : Except Fault Nat :=
  match value.spaces with
  | .error .wrongType | .error .notAnInteger => .ok 0
  | result => result

/-- The unit that a value sets: its text, or none. -/
def readUnit : Value → Except Fault String
  | .none => .ok ""
  | value => asText value

/-- The custom names that a value sets: a text is one name, and anything else that counts as true
gives its elements.  There may be none of these, since what is gone through may count as true
without giving any. -/
def readCustoms (value : Value) : Except Fault (Option (List Value)) :=
  if value.isText then .ok (some [value])
  else if value.isTrue then
    match value.elements? with
    | some items =>
      if Value.allHashable items then .ok (some (Value.setElements items)) else .error .wrongType
    | none => .error .wrongType
  else .ok none

/-- The options with the given entries, whose keys are distinct. -/
def build (entries : List (Value × Value)) : Except Fault Options := do
  let setting (name : String) (initial : Value) : Value := (field? entries name).getD initial
  let indent ← readIndent (setting "indent" (.int default.indent))
  let unit ← readUnit (setting "unit" (.text default.unit))
  let sort := (setting "sort" (.bool default.sort)).isTrue
  let customs ← readCustoms (setting "customs" default.customsValue)
  return ⟨unit, sort, indent, customs, entries.filter fun entry => !isSetting entry.1⟩

/-- Keywords that are no entries, since they name the arguments of building options. -/
def reserved : List String := ["cls", "options"]

/-- Keywords as entries of a mapping. -/
def keywordEntries (keywords : List (String × Value)) : List (Value × Value) :=
  keywords.map fun keyword => (.text keyword.1, keyword.2)

/-- The options that a mapping, or nothing, and keywords stand for.  Options without keywords stay
as they are. -/
def ensure (given : Value) (keywords : List (String × Value)) : Except Fault Options :=
  if keywords.any fun keyword => reserved.contains keyword.1 then .error .wrongType
  else
    match if keywords.isEmpty then ofValue? given else none with
    | some o => .ok o
    | none =>
      match given, given.entries? with
      | .none, _ => build (putEntries [] (keywordEntries keywords))
      | _, some entries => build (putEntries entries (keywordEntries keywords))
      | _, none => do throw (.notAMapping (← shown given))

/-- The options that arguments stand for.  What the options are built from is given in its own place
or by a keyword, but not in both ways. -/
def ofArguments (given : Option Value) (keywords : List (String × Value)) : Except Fault Options :=
  match given, keywords.lookup "options" with
  | none, some value => ensure value (keywords.filter fun keyword => keyword.1 != "options")
  | _, _ => ensure (given.getD .none) keywords

/-- The entry that an element of a sequence of pairs stands for. -/
def pairEntry (element : Value) : Except Fault (Value × Value) :=
  match element.elements? with
  | some [key, value] => if key.isHashable then .ok (key, value) else .error .wrongType
  | some _ => .error .notAPair
  | none => .error .wrongType

/-- The entries that a value stands for: those of a mapping, or the pairs of a sequence of pairs. -/
def pairEntries (given : Value) : Except Fault (List (Value × Value)) :=
  match given.entries?, given.elements? with
  | some entries, _ => .ok entries
  | none, some elements => elements.mapM pairEntry
  | none, none => .error .wrongType

/-- The options with the entries that any value stands for.  What does not count as true has
none. -/
def ofPairs (given : Value) : Except Fault Options := do
  let entries ← if given.isTrue then pairEntries given else .ok []
  build (putEntries [] entries)

/-- Options made anew from options.  An empty set of custom names does not count as true. -/
def renewed (o : Options) : Options :=
  { o with customs := o.customs.filter (!·.isEmpty) }

/-- Options without keywords stay as they are. -/
theorem ensure_toValue (o : Options) : ensure o.toValue [] = .ok o := by
  simp [ensure]

end Stylesheet.Options
