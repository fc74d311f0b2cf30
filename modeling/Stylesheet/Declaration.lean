import Stylesheet.Deferred
import Stylesheet.Selector.Compose

/-!
# Declarations of a rule tree

A rule tree declares the value of a property at every leaf.  The keys on the way to the leaf are the
fragments of the selector, and the last one is the property.  A key with commas stands for several
keys, one after the other; the elements of a list stand side by side under the key of the list; and
deferred values stand for what they give.

A list that is the value of a declaration is not copied.  A computation that is called later may
still change it, and then the declaration has the changed list.  One that has been changed before it
is found stands in the tree as a deferred value that gives it as it is by then.

## Main definitions

* `Declaration` — a selector, a property and a value.
* `Declaration.reread` — a declaration after computations may have changed its value.
* `Value.declarationsWith` — the declarations of a tree, given those of its deferred values.
* `declarations` — the declarations of a tree, in order.
-/

namespace Stylesheet

/-- The declaration of the value of a property.  Either the selector is the path of fragments on the
way to it, or it is composed. -/
structure Declaration where
  selector : List String
  property : String
  value : Value
  deriving Inhabited

/-- The declaration with its fragments composed. -/
def Declaration.composed (d : Declaration) : Declaration :=
  { d with selector := Selector.compose d.selector }

variable {σ : Type}

/-- The declaration as it is in a state: a list that computations know has the elements that they
have given it by then. -/
def Declaration.reread (caller : Caller σ) (s : σ) (d : Declaration) : Declaration :=
  match d.value with
  | .seq (.shared id) items =>
    { d with value := .seq (.shared id) ((caller.changed? s id).getD items) }
  | _ => d

namespace Value

/-- The declarations of a leaf at the end of a path. -/
def leafDeclarations (path : List String) (value : Value) : Except Fault (List Declaration) :=
  match path.getLast? with
  | some property => .ok [⟨path.dropLast, property, value⟩]
  | Option.none => do throw (.bareValue (← shown value))

/-- The fault of a value that no rule is known for. -/
def refuse {α : Type} (path : List String) (value : Value) : Except Fault α := do
  throw (.unsupportedAt path (← shown value))

/-- The fragments that a key holds. -/
def fragments (key : Value) : Except Fault (List String) :=
  Selector.fragments <$> asText key

mutual

/-- The declarations of a tree at the end of a path, given those of the values in it that can be
called. -/
def declarationsWith (called : Value → List String → Run σ (List Declaration))
    (value : Value) (path : List String) : Run σ (List Declaration) :=
  match value with
  | none => pure []
  | bool b => Run.ofExcept (leafDeclarations path (bool b))
  | int i => Run.ofExcept (leafDeclarations path (int i))
  | float x => Run.ofExcept (leafDeclarations path (float x))
  | text s => Run.ofExcept (leafDeclarations path (text s))
  | bytes b => Run.ofExcept (refuse path (bytes b))
  | seq kind items =>
    if items.isEmpty then pure []
    else if items.all isScalar then Run.ofExcept (leafDeclarations path (seq kind items))
    else declarationsOfItems called items path
  | mapping _ entries => declarationsOfEntries called entries path
  | set frozen items => Run.ofExcept (refuse path (set frozen items))
  | symbol id shown => Run.ofExcept (refuse path (symbol id shown))
  | stream id shown once items => Run.ofExcept (refuse path (stream id shown once items))
  | deferred id shown => called (deferred id shown) path
  | method m owner => called (method m owner) path

/-- The declarations of the elements of a list, all at the end of the same path. -/
def declarationsOfItems (called : Value → List String → Run σ (List Declaration))
    (items : List Value) (path : List String) : Run σ (List Declaration) :=
  match items with
  | [] => pure []
  | item :: rest => do
    let first ← declarationsWith called item path
    return first ++ (← declarationsOfItems called rest path)

/-- The declarations of the entries of a mapping, each as often as its key has fragments. -/
def declarationsOfEntries (called : Value → List String → Run σ (List Declaration))
    (entries : List (Value × Value)) (path : List String) : Run σ (List Declaration) :=
  match entries with
  | [] => pure []
  | (key, child) :: rest => do
    let fragments ← Run.ofExcept key.fragments
    let first ← fragments.mapM fun fragment => declarationsWith called child (path ++ [fragment])
    return first.flatten ++ (← declarationsOfEntries called rest path)

end

end Value

/-- The declarations of a tree at the end of a path, where deferred values may give trees with
deferred values in them up to a number of levels. -/
def declarationsWithin (caller : Caller σ) (o : Options) :
    Nat → Value → List String → Run σ (List Declaration)
  | 0 => Value.declarationsWith fun _ _ => throw .tooDeep
  | levels + 1 => Value.declarationsWith fun value path => do
    declarationsWithin caller o levels (← resolve caller o value) path

/-- The number of levels at which deferred values may stand inside what deferred values give. -/
def maxLevels : Nat := 1000

/-- The declarations of a tree, in the order of its leaves. -/
def declarations (caller : Caller σ) (o : Options) (rules : Value) : Run σ (List Declaration) :=
  declarationsWithin caller o maxLevels rules []

end Stylesheet
