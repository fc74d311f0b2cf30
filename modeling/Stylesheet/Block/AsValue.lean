import Stylesheet.Block.Basic
import Stylesheet.Value.Basic

/-!
# Blocks as values

A block is shown to its users as a mapping.

## Main definitions

* `Block.entries` — the entries of the mapping that a block is.
* `Block.ofEntries?` — the block that the entries of a mapping with texts for keys are.
-/

namespace Stylesheet.Block

variable {κ α : Type}

/-- The entries of the mapping that a block is. -/
def entries (key : κ → Value) (value : α → Value) : Block κ α → List (Value × Value)
  | empty => []
  | declare k a rest => (key k, value a) :: entries key value rest
  | nest k body rest =>
    (key k, .mapping .plain (entries key value body)) :: entries key value rest

mutual

/-- What a value under a key adds to a block: a plain mapping is a nested block, and any other value
is declared as it is. -/
def entryOf? (key : String) : Value → Option (Block String Value → Block String Value)
  | .mapping .plain body => return nest key (← ofEntries? body)
  | value => some (declare key value)

/-- The block that the entries of a mapping are, if all keys are texts. -/
def ofEntries? : List (Value × Value) → Option (Block String Value)
  | [] => some empty
  | (.text key, value) :: rest => return (← entryOf? key value) (← ofEntries? rest)
  | _ => none

end

end Stylesheet.Block
