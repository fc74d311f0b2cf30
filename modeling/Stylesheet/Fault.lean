import Stylesheet.Text.Quoted

/-!
# Faults

Why an operation of the library gives no result.  A fault names its cause together with the texts
that its message shows.

## Main definitions

* `Fault` — the causes.
* `Fault.message?` — the wording, where the library has one.
* `Fault.isConversion` — whether a fault is a failed conversion, which the log reports.
-/

namespace Stylesheet

/-- The kinds of failure that a deferred value can signal by itself. -/
inductive SignalKind where
  | value
  | key
  | type
  | conversion
  | caller
  deriving DecidableEq, Repr

/-- The causes for which an operation gives no result.  Values appear by the text that messages show
for them. -/
inductive Fault where
  /-- Options were asked of something that is neither absent nor a mapping. -/
  | notAMapping (got : String)
  /-- A deferred value still stood for another one after the given number of calls. -/
  | unresolved (calls : Nat) (value : String)
  /-- A leaf stands at the root of the rules, so no key names its property. -/
  | bareValue (value : String)
  /-- Something that is neither a leaf nor a container stands in the rules. -/
  | unsupportedAt (path : List String) (value : String)
  /-- Something other than a leaf is given as the value of a property. -/
  | unsupportedFor (property value : String)
  /-- A path is used both for a declaration and for a block. -/
  | conflict (path : List String) (key : Option String)
  /-- Something that is neither text nor bytes nor a sequence of them is to be written. -/
  | unwritable (value : String)
  /-- An assignment to options, which are read-only. -/
  | readOnlySet (name : String)
  /-- A deletion from options, which are read-only. -/
  | readOnlyDelete (name : String)
  /-- Options have no attribute of this name. -/
  | noAttribute (name : String)
  /-- A mapping has no entry under this key. -/
  | noEntry (key : String)
  /-- A text has no character at the place asked for. -/
  | noCharacter
  /-- An element of a sequence of pairs has another length than two. -/
  | notAPair
  /-- A deferred value failed by itself. -/
  | signalled (kind : SignalKind) (text : String)
  /-- A value lacks the operation that is asked of it. -/
  | noOperation
  /-- An operation is asked of values of the wrong type. -/
  | wrongType
  /-- A text stands for no integer, or a number has no integer part. -/
  | notAnInteger
  /-- An integer has too many digits to be written. -/
  | tooManyDigits
  /-- A number has no integer small enough for the use that is made of it. -/
  | tooLarge
  /-- A text is too long to be held. -/
  | outOfMemory
  /-- Bytes are no text. -/
  | notText
  /-- Deferred values keep giving containers of deferred values. -/
  | tooDeep
  deriving DecidableEq, Repr

namespace Fault

/-- The place of a conflict, outermost key first. -/
def place (path : List String) (key : Option String) : String :=
  let place := " > ".intercalate (path ++ key.toList)
  if place = "" then "<root>" else place

/-- The wording of a fault, and `none` where its kind says all there is to say. -/
def message? : Fault → Option String
  | notAMapping got => "Options must be a mapping, got: " ++ got
  | unresolved calls value =>
    "Function did not resolve after " ++ toString calls ++ " calls: " ++ value
  | bareValue value => "Value given without a property name: " ++ value
  | unsupportedAt path value =>
    "Unsupported value at `" ++ " > ".intercalate path ++ "`: " ++ value
  | unsupportedFor property value =>
    "Unsupported value for property `" ++ property ++ "`: " ++ value
  | conflict path key => "Nesting conflict at `" ++ place path key ++ "`"
  | unwritable value => "Does not know how to write value: `" ++ value ++ "`"
  | readOnlySet name => "Options are read-only: cannot set `" ++ name ++ "`"
  | readOnlyDelete name => "Options are read-only: cannot delete `" ++ name ++ "`"
  | noAttribute name => name
  | noEntry key => key
  | noCharacter => "string index out of range"
  | signalled .key text => String.ofList (Text.quote text.toList)
  | signalled .type _ => none
  | signalled _ text => text
  | outOfMemory => ""
  | notAPair | noOperation | wrongType | notAnInteger | tooManyDigits | tooLarge | notText
  | tooDeep => none

/-- Whether a fault is a failed conversion: the rules or the options are not what they have to be,
or a deferred value says so. -/
def isConversion : Fault → Bool
  | notAMapping _ | unresolved _ _ | bareValue _ | unsupportedAt _ _ | unsupportedFor _ _
  | conflict _ _ | signalled .conversion _ | signalled .caller _ => true
  | _ => false

/-- A failed conversion has a wording. -/
theorem isSome_message?_of_isConversion {fault : Fault} (h : fault.isConversion = true) :
    fault.message?.isSome = true := by
  cases fault <;> simp_all [isConversion, message?]
  rename_i kind _
  cases kind <;> simp_all

end Fault

end Stylesheet
