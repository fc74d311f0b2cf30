/-!
# Blocks

A block holds declarations and nested blocks, each under a key of its own, in the order in which
their keys were first used.

## Main definitions

* `Block` — blocks with keys and values of any types.
* `Block.descend` — changes the block at the end of a path.
* `Block.assign` — sets the value under a key.
-/

namespace Stylesheet

/-- A block: its first entry, which is a declaration or a nested block, and its other entries. -/
inductive Block (κ α : Type) where
  | empty
  | declare (key : κ) (value : α) (rest : Block κ α)
  | nest (key : κ) (body : Block κ α) (rest : Block κ α)
  deriving DecidableEq, Repr, Inhabited

namespace Block

variable {κ α β : Type}

/-- The keys of a block, in order. -/
def keys : Block κ α → List κ
  | empty => []
  | declare key _ rest => key :: rest.keys
  | nest key _ rest => key :: rest.keys

/-- A declaration and a block cannot share a place.  An operation that would make them do so gives
the path to that place. -/
abbrev Clash (κ : Type) := Except (List κ)

/-- What happens under a key, seen from outside. -/
def under (key : κ) (result : Clash κ β) : Clash κ β :=
  match result with
  | .ok b => .ok b
  | .error path => .error (key :: path)

/-- Changes the block nested under a key.  If there is none, an empty one is put last first. -/
def within [BEq κ] (key : κ) (change : Block κ α → Clash κ (Block κ α)) :
    Block κ α → Clash κ (Block κ α)
  | empty => return nest key (← under key (change empty)) empty
  | declare key' value rest =>
    if key' == key then .error [key] else return declare key' value (← within key change rest)
  | nest key' body rest =>
    if key' == key then return nest key' (← under key (change body)) rest
    else return nest key' body (← within key change rest)

/-- Changes the block at the end of a path, opening the blocks on the way. -/
def descend [BEq κ] (change : Block κ α → Clash κ (Block κ α)) :
    List κ → Block κ α → Clash κ (Block κ α)
  | [] => change
  | key :: path => within key (descend change path)

/-- Sets the value under a key.  A key that is there keeps its place, and a new one comes last. -/
def assign [BEq κ] (key : κ) (value : α) : Block κ α → Clash κ (Block κ α)
  | empty => return declare key value empty
  | declare key' value' rest =>
    if key' == key then return declare key' value rest
    else return declare key' value' (← assign key value rest)
  | nest key' body rest =>
    if key' == key then .error [key] else return nest key' body (← assign key value rest)

end Block

end Stylesheet
