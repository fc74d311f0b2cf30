import Stylesheet.Block.Basic
import Stylesheet.Selector.Weight

/-!
# Sorted blocks

## Main definitions

* `Block.sorted` — a block with the entries at every level in the order of their ranks.
-/

namespace Stylesheet.Block

open Selector (rank)

variable {α : Type}

/-- Puts an entry in front of the first one that does not rank before it. -/
def insertRanked (key : String) (entry : Block String α → Block String α) :
    Block String α → Block String α
  | empty => entry empty
  | declare key' value rest =>
    if rank key ≤ rank key' then entry (declare key' value rest)
    else declare key' value (insertRanked key entry rest)
  | nest key' body rest =>
    if rank key ≤ rank key' then entry (nest key' body rest)
    else nest key' body (insertRanked key entry rest)

/-- The block with the entries at every level in the order of their ranks. -/
def sorted : Block String α → Block String α
  | empty => empty
  | declare key value rest => insertRanked key (declare key value) rest.sorted
  | nest key body rest => insertRanked key (nest key body.sorted) rest.sorted

end Stylesheet.Block
