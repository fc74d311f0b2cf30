import Stylesheet.Block.Lookup

/-!
# Blocks entry by entry

Declarations and nested blocks are treated alike by everything that does not look into nested
blocks. `Item.entry` makes one case of them, and `entry_induction` is the induction that goes with
it.

The two operations that change a block, `assign` and `within`, first look at what stands under a key
and then either fail or set the item there.  `set` is the second half of both; once `assign_eq` and
`within_eq` have said so, nothing else has to go through a block to find out what they do.

## Main definitions

* `Block.Item.entry` — a block with one entry more in front.
* `Block.set` — a block with an item put under a key.
* `Block.addKey` — the keys of a block after that.

## Main statements

* `Block.assign_eq`, `Block.within_eq` — the two operations in terms of `find?` and `set`.
* `Block.find?_set`, `Block.keys_set`, `Block.at?_set_block` — what setting an item changes.
-/

namespace Stylesheet.Block

variable {κ α : Type}

/-- A block with an item under a key in front of the other entries. -/
def Item.entry (key : κ) : Item κ α → Block κ α → Block κ α
  | value a, rest => declare key a rest
  | block body, rest => nest key body rest

/-- Induction on the entries of a block. -/
@[elab_as_elim]
theorem entry_induction {motive : Block κ α → Prop} (empty : motive empty)
    (entry : ∀ key item rest, motive rest → motive (Item.entry key item rest)) (b : Block κ α) :
    motive b := by
  induction b with
  | empty => exact empty
  | declare key a rest ih => exact entry key (.value a) rest ih
  | nest key body rest _ ih => exact entry key (.block body) rest ih

@[simp] theorem keys_empty : (empty : Block κ α).keys = [] := rfl

@[simp] theorem keys_entry (key : κ) (item : Item κ α) (rest : Block κ α) :
    (item.entry key rest).keys = key :: rest.keys := by
  cases item <;> rfl

variable [DecidableEq κ]

@[simp] theorem find?_entry (k : κ) (item : Item κ α) (rest : Block κ α) (key : κ) :
    (item.entry k rest).find? key = if k = key then some item else rest.find? key := by
  cases item <;> simp [Item.entry, find?]

/-- A key that a block does not have leads nowhere. -/
theorem find?_eq_none_iff {b : Block κ α} {key : κ} : b.find? key = none ↔ key ∉ b.keys := by
  induction b using entry_induction with
  | empty => simp
  | entry k item rest ih =>
    by_cases hkey : k = key
    · simp [hkey]
    · simp [hkey, Ne.symm hkey, ih]

/-! ## Setting an item -/

/-- The block with an item put under a key.  A key that is there keeps its place, and a new one
comes last. -/
def set (key : κ) (item : Item κ α) : Block κ α → Block κ α
  | empty => item.entry key empty
  | declare k a rest => if k = key then item.entry key rest else declare k a (set key item rest)
  | nest k body rest => if k = key then item.entry key rest else nest k body (set key item rest)

/-- The keys of a block once one of them is used, which comes last if it is new. -/
def addKey (keys : List κ) (key : κ) : List κ :=
  if key ∈ keys then keys else keys ++ [key]

@[simp] theorem set_empty (key : κ) (item : Item κ α) :
    set key item empty = item.entry key empty := rfl

@[simp] theorem set_entry (key : κ) (item : Item κ α) (k : κ) (item' : Item κ α)
    (rest : Block κ α) :
    set key item (item'.entry k rest) =
      if k = key then item.entry key rest else item'.entry k (set key item rest) := by
  cases item' <;> rfl

/-- Setting an item changes what is found under its key, and nothing else. -/
theorem find?_set (key : κ) (item : Item κ α) (b : Block κ α) (key' : κ) :
    (b.set key item).find? key' = if key = key' then some item else b.find? key' := by
  induction b using entry_induction with
  | empty => simp
  | entry k item' rest ih =>
    by_cases hkey : k = key
    · by_cases hkey' : key = key' <;> simp [hkey, hkey']
    · by_cases hkey' : k = key'
      · subst hkey'
        simp [hkey, Ne.symm hkey]
      · simp [hkey, hkey', ih]

theorem keys_set (key : κ) (item : Item κ α) (b : Block κ α) :
    (b.set key item).keys = addKey b.keys key := by
  induction b using entry_induction with
  | empty => simp [addKey]
  | entry k item' rest ih =>
    by_cases hkey : k = key
    · simp [hkey, addKey]
    · simp only [set_entry, hkey, if_false, keys_entry, ih, addKey, List.mem_cons,
        Ne.symm hkey, false_or]
      split <;> rfl

/-- Only the last item that is set under a key counts. -/
theorem set_set (key : κ) (item item' : Item κ α) (b : Block κ α) :
    (b.set key item).set key item' = b.set key item' := by
  induction b using entry_induction with
  | empty => simp
  | entry k item₀ rest ih =>
    by_cases hkey : k = key
    · simp [hkey]
    · simp [hkey, ih]

/-! ## The operations on blocks -/

theorem assign_entry_of_ne {k key : κ} (h : k ≠ key) (value : α) (item : Item κ α)
    (rest : Block κ α) :
    assign key value (item.entry k rest) = (assign key value rest).map (item.entry k) := by
  cases item <;> simp only [Item.entry, assign, beq_iff_eq, h, if_false] <;>
    cases assign key value rest <;> rfl

/-- Assigning fails where a block stands, and sets a value otherwise. -/
theorem assign_eq (key : κ) (value : α) (b : Block κ α) :
    assign key value b =
      match b.find? key with
      | some (.block _) => .error [key]
      | _ => .ok (b.set key (.value value)) := by
  induction b using entry_induction with
  | empty => rfl
  | entry k item rest ih =>
    by_cases hkey : k = key
    · cases item <;> simp [hkey, Item.entry, assign, find?, set, pure, Except.pure]
    · rw [assign_entry_of_ne hkey, ih, find?_entry, set_entry, if_neg hkey, if_neg hkey]
      rcases rest.find? key with _ | _ | _ <;> rfl

/-- Assigning fails exactly where a block stands, and the clash is at that key. -/
theorem assign_eq_error_iff {key : κ} {value : α} {b : Block κ α} {path : List κ} :
    assign key value b = .error path ↔ path = [key] ∧ ∃ body, b.find? key = some (.block body) := by
  rw [assign_eq]
  rcases b.find? key with _ | _ | _ <;> simp [eq_comm]

theorem within_entry_of_ne {k key : κ} (h : k ≠ key) (change : Block κ α → Clash κ (Block κ α))
    (item : Item κ α) (rest : Block κ α) :
    within key change (item.entry k rest) = (within key change rest).map (item.entry k) := by
  cases item <;> simp only [Item.entry, within, beq_iff_eq, h, if_false] <;>
    cases within key change rest <;> rfl

/-- A nested block cannot be changed where a value stands.  Otherwise it is set to what the change
makes of it, if the change does not fail. -/
theorem within_eq (key : κ) (change : Block κ α → Clash κ (Block κ α)) (b : Block κ α) :
    within key change b =
      match b.find? key with
      | some (.value _) => .error [key]
      | _ =>
        match change (b.bodyAt key) with
        | .ok body => .ok (b.set key (.block body))
        | .error path => .error (key :: path) := by
  induction b using entry_induction with
  | empty =>
    simp only [within, bodyAt, find?_empty, set_empty]
    cases change empty <;> rfl
  | entry k item rest ih =>
    by_cases hkey : k = key
    · cases item with
      | value a => simp [Item.entry, within, find?, hkey]
      | block body =>
        simp only [Item.entry, within, hkey, beq_self_eq_true, if_true, find?, bodyAt, set]
        cases change body <;> rfl
    · have hbody : (item.entry k rest).bodyAt key = rest.bodyAt key := by simp [bodyAt, hkey]
      simp only [within_entry_of_ne hkey, ih, hbody, find?_entry, set_entry, if_neg hkey]
      rcases rest.find? key with _ | _ | _ <;> cases change (rest.bodyAt key) <;> rfl

/-! ## Places -/

/-- The item at the end of a path that starts with a key. -/
theorem at?_cons (b : Block κ α) (key : κ) (p : List κ) :
    b.at? (key :: p) =
      match b.find? key with
      | some (.block body) => body.at? p
      | some (.value a) => if p = [] then some (.value a) else none
      | none => none := by
  cases p with
  | nil =>
    rw [at?_singleton]
    rcases b.find? key with _ | _ | _ <;> rfl
  | cons key' p =>
    rw [at?]
    · rcases b.find? key with _ | _ | _ <;> rfl
    · simp

/-- Setting an item changes what stands at the places that its key leads to. -/
theorem at?_set_of_ne {key key' : κ} (h : key ≠ key') (item : Item κ α) (b : Block κ α)
    (p : List κ) : (b.set key item).at? (key' :: p) = b.at? (key' :: p) := by
  simp only [at?_cons, find?_set, h, if_false]

theorem at?_set_value (key : κ) (a : α) (b : Block κ α) (p : List κ) :
    (b.set key (.value a)).at? (key :: p) = if p = [] then some (.value a) else none := by
  simp only [at?_cons, find?_set, if_true]

theorem at?_set_block (key : κ) (body b : Block κ α) (p : List κ) :
    (b.set key (.block body)).at? (key :: p) = body.at? p := by
  simp only [at?_cons, find?_set, if_true]

end Stylesheet.Block
