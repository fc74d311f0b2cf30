/-!
# Methods

What can be called on conversion options, and is read from them as an attribute, without being one
of their entries.  A method is known by its name.  The library calls it only as it calls every
deferred value, with one argument; most methods take another number of them, and refuse.

## Main definitions

* `Method` — a method: its name, its form, and what calling it comes to.
* `Method.ofName?` — the method of a name.
-/

namespace Stylesheet

namespace Method

/-- The forms of methods, which messages tell apart. -/
inductive Form where
  /-- Belongs to the options that it was read from; `definer` is the kind of thing that defines
  it. -/
  | own (definer : String)
  /-- Belongs to all options alike; `definition` is its full name. -/
  | shared (definition : String)
  /-- What makes options. -/
  | maker
  /-- What makes options as well, under another name, which shows the options that it was made
  with. -/
  | synonym
  /-- An operator or a function that everything has. -/
  | general (sort : String)
  deriving DecidableEq, Repr

/-- What calling a method with options comes to. -/
inductive Effect where
  /-- Gives the options that it is called with. -/
  | argument
  /-- Gives options that are made anew from those that it is called with. -/
  | renewal
  /-- Gives another name for what makes options. -/
  | naming
  /-- Gives nothing. -/
  | nothing
  /-- Gives whether its owner and the options that it is called with are equal, or are not. -/
  | equality (expected : Bool)
  /-- Deletes the entry that the options name, which is refused. -/
  | deletion
  /-- Gives the entry that the options name, which no entry is. -/
  | entry
  /-- Compares its owner with what has no order. -/
  | comparison
  /-- Takes other arguments. -/
  | refusal
  deriving DecidableEq, Repr

end Method

/-- A method of conversion options. -/
structure Method where
  name : String
  form : Method.Form
  effect : Method.Effect
  deriving DecidableEq, Repr

namespace Method

/-- A method that its own kind of thing defines and that takes other arguments. -/
def reading (definer name : String) : Method := ⟨name, .own definer, .refusal⟩

/-- What everything has, and what calling it comes to. -/
def inherited (sort : String) (effect : Effect) (name : String) : Method :=
  ⟨name, .general sort, effect⟩

/-- The methods of conversion options. -/
def all : List Method :=
  [⟨"Ensure", .shared "Options.Ensure", .argument⟩, ⟨"__class__", .maker, .renewal⟩,
   ⟨"__init__", .own "Options", .nothing⟩, ⟨"__eq__", .own "Mapping", .equality true⟩,
   ⟨"__ne__", .general "method-wrapper", .equality false⟩,
   ⟨"__getattr__", .own "Options", .entry⟩, ⟨"__delattr__", .own "Options", .deletion⟩,
   ⟨"__class_getitem__", .shared "GenericAlias", .naming⟩,
   ⟨"__subclasshook__", .shared "Collection.__subclasshook__", .comparison⟩] ++
  ["keys", "values", "items", "get", "__contains__"].map (reading "Mapping") ++
  ["__setattr__", "__getitem__", "__iter__", "__len__", "__repr__"].map (reading "Options") ++
  ["__lt__", "__le__", "__gt__", "__ge__"].map (inherited "method-wrapper" .comparison) ++
  ["__str__", "__getattribute__"].map (inherited "method-wrapper" .refusal) ++
  ["__dir__", "__format__", "__getstate__", "__init_subclass__", "__new__", "__reduce__",
   "__reduce_ex__", "__sizeof__"].map (inherited "built-in method" .refusal)

/-- The method of a name. -/
def ofName? (name : String) : Option Method :=
  all.find? fun method => method.name == name

/-- Another name for what makes options.  Its owner is the options that it was made with. -/
def aliased : Method := ⟨"__class_getitem__", .synonym, .renewal⟩

/-- The full name of what makes options. -/
def makerName : String := "nestedcss.model.Options"

/-- The text for what makes options. -/
def makerText : String := "<class '" ++ makerName ++ "'>"

/-- A method as text.  The text of its owner, which may be a fault, counts only where it is
shown. -/
def describe {ε : Type} (method : Method) (owner : Except ε String) : Except ε String :=
  match method.form with
  | .own definer =>
    return "<bound method " ++ definer ++ "." ++ method.name ++ " of " ++ (← owner) ++ ">"
  | .shared definition => return "<bound method " ++ definition ++ " of " ++ makerText ++ ">"
  | .maker => return makerText
  | .synonym => return makerName ++ "[" ++ (← owner) ++ "]"
  | .general sort => return "<" ++ sort ++ " " ++ method.name ++ " of Options object>"

end Method

end Stylesheet
