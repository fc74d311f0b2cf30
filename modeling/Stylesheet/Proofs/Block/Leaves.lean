import Stylesheet.Proofs.Block.History

/-!
# Blocks and the writes that they are made of

The values of a block, read off in the order in which they stand in it, are writes that build the
block again.  This takes that no key is used twice in a block, and that no nested block is empty:
both holds of what is built by writes that have values.

## Main definitions

* `Block.leaves` — the writes of the values of a block.
* `Block.IsProper` — blocks that are built up from their values.
* `Block.append` — a block with the entries of another one after its own.

## Main statements

* `Block.isProper_ofWrites`, `Block.mem_leaves_ofWrites` — writes with values build a proper block,
  and only what they have written stands in it.
* `Block.ofWrites_leaves` — the leaves of a proper block build it.
-/

namespace Stylesheet.Block

variable {κ α : Type}

/-- The writes of the values of a block, in the order in which they stand in it. -/
def leaves : Block κ α → List (Write κ α)
  | empty => []
  | declare key a rest => ⟨[], key, some a⟩ :: rest.leaves
  | nest key body rest => body.leaves.map (Write.under key) ++ rest.leaves

/-- A block in which no key is used twice and no nested block is empty, at any level. -/
def IsProper : Block κ α → Prop
  | empty => True
  | declare key _ rest => key ∉ rest.keys ∧ rest.IsProper
  | nest key body rest => key ∉ rest.keys ∧ (body ≠ empty ∧ body.IsProper) ∧ rest.IsProper

/-- A block with the entries of another one after its own. -/
def append : Block κ α → Block κ α → Block κ α
  | empty, b => b
  | declare key a rest, b => declare key a (rest.append b)
  | nest key body rest, b => nest key body (rest.append b)

/-- The writes of the values that an item under a key has. -/
def Item.leaves (key : κ) : Item κ α → List (Write κ α)
  | value a => [⟨[], key, some a⟩]
  | block body => body.leaves.map (Write.under key)

/-- Whether an item can stand in a proper block. -/
def Item.IsProper : Item κ α → Prop
  | value _ => True
  | block body => body ≠ empty ∧ body.IsProper

@[simp] theorem leaves_empty : (empty : Block κ α).leaves = [] := rfl

@[simp] theorem leaves_entry (key : κ) (item : Item κ α) (rest : Block κ α) :
    (item.entry key rest).leaves = item.leaves key ++ rest.leaves := by
  cases item <;> rfl

@[simp] theorem isProper_empty : (empty : Block κ α).IsProper := trivial

@[simp] theorem isProper_entry {key : κ} {item : Item κ α} {rest : Block κ α} :
    (item.entry key rest).IsProper ↔ key ∉ rest.keys ∧ item.IsProper ∧ rest.IsProper := by
  cases item <;> simp [Item.entry, IsProper, Item.IsProper]

@[simp] theorem append_empty_left (b : Block κ α) : empty.append b = b := rfl

@[simp] theorem append_entry (key : κ) (item : Item κ α) (rest b : Block κ α) :
    (item.entry key rest).append b = item.entry key (rest.append b) := by
  cases item <;> rfl

@[simp] theorem entry_ne_empty (key : κ) (item : Item κ α) (rest : Block κ α) :
    item.entry key rest ≠ empty := by
  cases item <;> nofun

theorem append_empty (b : Block κ α) : b.append empty = b := by
  induction b using entry_induction with
  | empty => rfl
  | entry key item rest ih => rw [append_entry, ih]

/-- A proper block that is not empty has a leaf. -/
theorem leaves_ne_nil {b : Block κ α} (h : b.IsProper) (hne : b ≠ empty) : b.leaves ≠ [] := by
  induction b with
  | empty => exact absurd rfl hne
  | declare key a rest _ => simp [leaves]
  | nest key body rest ihBody _ =>
    obtain ⟨-, ⟨hbody, hproper⟩, -⟩ := h
    simp [leaves, ihBody hproper hbody]

variable [DecidableEq κ]

/-! ## Setting an item -/

theorem isProper_set {key : κ} {item : Item κ α} {b : Block κ α} (hitem : item.IsProper)
    (h : b.IsProper) : (b.set key item).IsProper := by
  induction b using entry_induction with
  | empty => simpa using hitem
  | entry k item' rest ih =>
    obtain ⟨hk, hitem', hrest⟩ := isProper_entry.1 h
    rw [set_entry]
    split
    · next hkey =>
      subst hkey
      exact isProper_entry.2 ⟨hk, hitem, hrest⟩
    · next hkey =>
      refine isProper_entry.2 ⟨?_, hitem', ih hrest⟩
      rw [keys_set, addKey]
      split
      · exact hk
      · simp [hk, hkey]

theorem set_ne_empty (key : κ) (item : Item κ α) (b : Block κ α) : b.set key item ≠ empty := by
  induction b using entry_induction with
  | empty => simp
  | entry k item' rest _ =>
    rw [set_entry]
    split <;> simp

theorem mem_leaves_set {key : κ} {item : Item κ α} {b : Block κ α} {w : Write κ α}
    (h : w ∈ (b.set key item).leaves) : w ∈ item.leaves key ∨ w ∈ b.leaves := by
  induction b using entry_induction with
  | empty => exact .inl (by simpa using h)
  | entry k item' rest ih =>
    rw [set_entry] at h
    rw [leaves_entry, List.mem_append]
    split at h
    · rw [leaves_entry, List.mem_append] at h
      tauto
    · rw [leaves_entry, List.mem_append] at h
      tauto

/-- A new key comes last. -/
theorem append_set_of_new {key : κ} {b : Block κ α} (h : key ∉ b.keys) (item : Item κ α)
    (rest : Block κ α) : (b.set key item).append rest = b.append (item.entry key rest) := by
  induction b using entry_induction with
  | empty => simp
  | entry k item' rest' ih =>
    obtain ⟨hk, hrest⟩ := not_or.1 (mt List.mem_cons.2 (keys_entry k item' rest' ▸ h))
    rw [set_entry, if_neg (Ne.symm hk), append_entry, append_entry, ih hrest]

/-! ## The block under a key -/

theorem isProper_of_find? {b : Block κ α} (h : b.IsProper) {key : κ} {item : Item κ α}
    (hfind : b.find? key = some item) : item.IsProper := by
  induction b using entry_induction with
  | empty => simp at hfind
  | entry k item' rest ih =>
    obtain ⟨-, hitem', hrest⟩ := isProper_entry.1 h
    rw [find?_entry] at hfind
    split at hfind
    · exact Option.some.inj hfind ▸ hitem'
    · exact ih hrest hfind

theorem isProper_bodyAt {b : Block κ α} (h : b.IsProper) (key : κ) : (b.bodyAt key).IsProper := by
  rw [bodyAt]
  split
  · next body hfind => exact (isProper_of_find? h hfind).2
  · exact isProper_empty

theorem mem_leaves_of_find? {b : Block κ α} {key : κ} {item : Item κ α}
    (hfind : b.find? key = some item) {w : Write κ α} (hw : w ∈ item.leaves key) :
    w ∈ b.leaves := by
  induction b using entry_induction with
  | empty => simp at hfind
  | entry k item' rest ih =>
    rw [find?_entry] at hfind
    rw [leaves_entry, List.mem_append]
    split at hfind
    · next hkey =>
      obtain rfl := Option.some.inj hfind
      exact .inl (hkey ▸ hw)
    · exact .inr (ih hfind)

theorem mem_leaves_of_bodyAt {b : Block κ α} {key : κ} {w : Write κ α}
    (hw : w ∈ (b.bodyAt key).leaves) : w.under key ∈ b.leaves := by
  rw [bodyAt] at hw
  split at hw
  · next body hfind => exact mem_leaves_of_find? hfind (List.mem_map_of_mem hw)
  · simp at hw

/-! ## One write more -/

/-- A write with a value keeps a block proper, and leaves it with something in it. -/
theorem isProper_put {w : Write κ α} {b b' : Block κ α} (hput : b.put w = .ok b')
    (hvalue : w.value? ≠ none) (h : b.IsProper) : b'.IsProper ∧ b' ≠ empty := by
  induction w using Write.path_induction generalizing b b' with
  | here key value? =>
    obtain ⟨a, rfl⟩ := Option.ne_none_iff_exists'.1 hvalue
    obtain ⟨-, rfl⟩ := put_here_some_eq_ok hput
    have hitem : (Item.value a : Item κ α).IsProper := trivial
    exact ⟨isProper_set hitem h, set_ne_empty key _ b⟩
  | under key w ih =>
    obtain ⟨-, body, hbody, rfl⟩ := put_under_eq_ok hput
    obtain ⟨hproper, hne⟩ := ih hbody hvalue (isProper_bodyAt h key)
    have hitem : (Item.block body).IsProper := ⟨hne, hproper⟩
    exact ⟨isProper_set hitem h, set_ne_empty key _ b⟩

/-- What stands in a block after a write stood there before, or has been written. -/
theorem mem_leaves_put {w : Write κ α} {b b' : Block κ α} (hput : b.put w = .ok b')
    {v : Write κ α} (hv : v ∈ b'.leaves) : v = w ∨ v ∈ b.leaves := by
  induction w using Write.path_induction generalizing b b' v with
  | here key value? =>
    cases value? with
    | none =>
      cases (put_here_none key b).symm.trans hput
      exact .inr hv
    | some a =>
      obtain ⟨-, rfl⟩ := put_here_some_eq_ok hput
      exact (mem_leaves_set hv).imp_left List.mem_singleton.1
  | under key w ih =>
    obtain ⟨-, body, hbody, rfl⟩ := put_under_eq_ok hput
    rcases mem_leaves_set hv with hv | hv
    · obtain ⟨u, hu, rfl⟩ := List.mem_map.1 hv
      rcases ih hbody hu with rfl | hu
      · exact .inl rfl
      · exact .inr (mem_leaves_of_bodyAt hu)
    · exact .inr hv

/-! ## Runs of writes -/

/-- Writes with values build a proper block. -/
theorem isProper_ofWrites {ws : List (Write κ α)} {b : Block κ α} (h : ofWrites ws = .ok b)
    (hvalue : ∀ w ∈ ws, w.value? ≠ none) : b.IsProper := by
  induction ws using List.reverseRecOn generalizing b with
  | nil =>
    cases h
    exact isProper_empty
  | append_singleton ws w ih =>
    obtain ⟨b₀, hws, hput⟩ := ofWrites_concat_eq_ok_iff.1 h
    have hb₀ : b₀.IsProper := ih hws fun v hv => hvalue v (List.mem_append_left _ hv)
    exact (isProper_put hput (hvalue w (by simp)) hb₀).1

/-- Only what has been written stands in a block. -/
theorem mem_leaves_ofWrites {ws : List (Write κ α)} {b : Block κ α} (h : ofWrites ws = .ok b)
    {v : Write κ α} (hv : v ∈ b.leaves) : v ∈ ws := by
  induction ws using List.reverseRecOn generalizing b with
  | nil =>
    cases h
    simp at hv
  | append_singleton ws w ih =>
    obtain ⟨b₀, hws, hput⟩ := ofWrites_concat_eq_ok_iff.1 h
    rcases mem_leaves_put hput hv with rfl | hv
    · simp
    · exact List.mem_append_left _ (ih hws hv)

/-! ## Building a block again -/

/-- Several writes below a key are one change of the block under it. -/
theorem foldlM_put_under (key : κ) {ws : List (Write κ α)} (hne : ws ≠ []) (b : Block κ α) :
    (ws.map (Write.under key)).foldlM put b = within key (fun body => ws.foldlM put body) b := by
  induction ws generalizing b with
  | nil => exact absurd rfl hne
  | cons w ws ih =>
    rw [List.map_cons, List.foldlM_cons, put_under]
    cases ws with
    | nil => simp only [List.map_nil, List.foldlM_nil, List.foldlM_cons, bind_pure]
    | cons w' ws =>
      calc
        (within key (fun body => body.put w) b >>= fun b =>
            ((w' :: ws).map (Write.under key)).foldlM put b) =
            within key (fun body => body.put w) b >>=
              within key (fun body => (w' :: ws).foldlM put body) :=
          congrArg (within key (fun body => body.put w) b >>= ·) (funext (ih (by simp)))
        _ = within key (fun body => (w :: w' :: ws).foldlM put body) b := within_bind key _ _ b

/-- What has been built when the first of several new entries stands in a block: its key was free,
the other keys still are, and the other entries come after it. -/
theorem set_first {key : κ} {item : Item κ α} {rest acc : Block κ α} (hnew : key ∉ rest.keys)
    (hkeys : ∀ k ∈ (item.entry key rest).keys, k ∉ acc.keys) :
    acc.find? key = none ∧ (∀ k ∈ rest.keys, k ∉ (acc.set key item).keys) ∧
      (acc.set key item).append rest = acc.append (item.entry key rest) := by
  rw [keys_entry, List.forall_mem_cons] at hkeys
  obtain ⟨hkey, hrest⟩ := hkeys
  refine ⟨find?_eq_none_iff.2 hkey, ?_, append_set_of_new hkey item rest⟩
  intro k hk
  rw [keys_set, addKey, if_neg hkey, List.mem_append, List.mem_singleton]
  rintro (hk' | rfl)
  · exact hrest k hk hk'
  · exact hnew hk

/-- The leaves of a proper block put its entries after those of a block with other keys. -/
theorem foldlM_put_leaves {b : Block κ α} (h : b.IsProper) {acc : Block κ α}
    (hkeys : ∀ key ∈ b.keys, key ∉ acc.keys) :
    b.leaves.foldlM put acc = .ok (acc.append b) := by
  induction b generalizing acc with
  | empty => exact congrArg Except.ok (append_empty acc).symm
  | declare key a rest ih =>
    obtain ⟨hnew, hrest⟩ := h
    have hkeys : ∀ k ∈ ((Item.value a).entry key rest).keys, k ∉ acc.keys := hkeys
    obtain ⟨hfind, hdisjoint, happend⟩ := set_first hnew hkeys
    have hput : acc.put ⟨[], key, some a⟩ = .ok (acc.set key (.value a)) := by
      rw [put_here_some, assign_eq, hfind]
    calc
      (declare key a rest).leaves.foldlM put acc =
          acc.put ⟨[], key, some a⟩ >>= fun acc => rest.leaves.foldlM put acc := rfl
      _ = rest.leaves.foldlM put (acc.set key (.value a)) := by rw [hput]; rfl
      _ = .ok ((acc.set key (.value a)).append rest) := ih hrest hdisjoint
      _ = .ok (acc.append (declare key a rest)) := congrArg Except.ok happend
  | nest key body rest ihBody ihRest =>
    obtain ⟨hnew, ⟨hne, hbody⟩, hrest⟩ := h
    have hkeys : ∀ k ∈ ((Item.block body).entry key rest).keys, k ∉ acc.keys := hkeys
    obtain ⟨hfind, hdisjoint, happend⟩ := set_first hnew hkeys
    -- The key is free, so the writes below it build the nested block from nothing.
    have hput : (body.leaves.map (Write.under key)).foldlM put acc =
        .ok (acc.set key (.block body)) := by
      have hempty : acc.bodyAt key = empty := by rw [bodyAt, hfind]
      have hagain : body.leaves.foldlM put empty = .ok body := @ihBody hbody empty (by simp)
      rw [foldlM_put_under key (leaves_ne_nil hbody hne), within_eq, hfind, hempty]
      simp only [hagain]
    calc
      (nest key body rest).leaves.foldlM put acc =
          (body.leaves.map (Write.under key)).foldlM put acc >>=
            fun acc => rest.leaves.foldlM put acc := List.foldlM_append
      _ = rest.leaves.foldlM put (acc.set key (.block body)) := by rw [hput]; rfl
      _ = .ok ((acc.set key (.block body)).append rest) := ihRest hrest hdisjoint
      _ = .ok (acc.append (nest key body rest)) := congrArg Except.ok happend

/-- The leaves of a proper block build it. -/
theorem ofWrites_leaves {b : Block κ α} (h : b.IsProper) : ofWrites b.leaves = .ok b :=
  foldlM_put_leaves h (by simp)

end Stylesheet.Block
