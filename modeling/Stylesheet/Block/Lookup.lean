import Stylesheet.Block.Basic

/-!
# Looking into blocks

What stands under a key of a block, and at the end of a path.

## Main definitions

* `Block.Item` — what stands under a key: a value or a block.
* `Block.find?` — the item under a key.
* `Block.at?` — the item at the end of a path.
* `Block.bodyAt` — the block nested under a key.
-/

namespace Stylesheet.Block

variable {κ α : Type}

/-- What stands under a key. -/
inductive Item (κ α : Type) where
  | value (a : α)
  | block (body : Block κ α)
  deriving DecidableEq, Repr

variable [BEq κ]

/-- The item under a key. -/
def find? (key : κ) : Block κ α → Option (Item κ α)
  | empty => none
  | declare key' a rest => if key' == key then some (.value a) else find? key rest
  | nest key' body rest => if key' == key then some (.block body) else find? key rest

/-- The item at the end of a path, which is the block itself at the end of the empty path. -/
def at? (b : Block κ α) : List κ → Option (Item κ α)
  | [] => some (.block b)
  | [key] => b.find? key
  | key :: path =>
    match b.find? key with
    | some (.block body) => body.at? path
    | _ => none

/-- The block nested under a key, which is empty if there is none. -/
def bodyAt (key : κ) (b : Block κ α) : Block κ α :=
  match b.find? key with
  | some (.block body) => body
  | _ => empty

@[simp] theorem find?_empty (key : κ) : (empty : Block κ α).find? key = none := rfl

@[simp] theorem at?_nil (b : Block κ α) : b.at? [] = some (.block b) := rfl

@[simp] theorem at?_singleton (b : Block κ α) (key : κ) : b.at? [key] = b.find? key := rfl

variable [LawfulBEq κ]

/-- A key that is not that of the first entry is looked for in the rest. -/
theorem find?_declare_of_ne {key key' : κ} (h : key' ≠ key) (a : α) (rest : Block κ α) :
    (declare key' a rest).find? key = rest.find? key := by
  simp [find?, h]

/-- A key that is not that of the first entry is looked for in the rest. -/
theorem find?_nest_of_ne {key key' : κ} (h : key' ≠ key) (body rest : Block κ α) :
    (nest key' body rest).find? key = rest.find? key := by
  simp [find?, h]

end Stylesheet.Block
