import Stylesheet.Proofs.Block.Leaves

/-!
# Merging blocks

Two blocks are merged key by key: the keys of the first one stay where they are, the new ones of the
second one come after them, a value of the second block replaces one of the first, and nested blocks
are merged in turn.  There is no such block if one of them has a value where the other one has a
block.

A run of writes that goes on after another one does what merging does: on the block that the first
run has built, it has the effect of merging what it builds by itself.  This is shown for one write
more, from what merging does under one key.

## Main definitions

* `Block.merge` — two blocks merged.
* `Block.mergeAt` — what merging does under one key.
* `Block.HasDistinctKeys` — blocks that use no key twice, at any level.

## Main statements

* `Block.merge_eq_some_iff`, `Block.merge_eq_none_iff` — merging, told from keys and items.
* `Block.merge_put` — merging after one write more.
* `Block.foldlM_put_eq_merge` — merging after a run of writes.
-/

namespace Stylesheet.Block

variable {κ α : Type} [DecidableEq κ]

/-! ## Merging -/

/-- The entries of a block with other keys than the given ones. -/
def without (keys : List κ) : Block κ α → Block κ α
  | empty => empty
  | declare key a rest =>
    if key ∈ keys then rest.without keys else declare key a (rest.without keys)
  | nest key body rest =>
    if key ∈ keys then rest.without keys else nest key body (rest.without keys)

/-- The entries of a block, each merged with what a later block has under its key. -/
def overlay (later : Block κ α) : Block κ α → Option (Block κ α)
  | empty => some empty
  | declare key a rest =>
    match later.find? key with
    | none => return declare key a (← overlay later rest)
    | some (.value a') => return declare key a' (← overlay later rest)
    | some (.block _) => none
  | nest key body rest =>
    match later.find? key with
    | none => return nest key body (← overlay later rest)
    | some (.value _) => none
    | some (.block body') =>
      return nest key ((← overlay body' body).append (body'.without body.keys))
        (← overlay later rest)

/-- Two blocks merged: the entries of the first one with those of the later one under the same keys
merged into them, and then the other entries of the later one. -/
def merge (first later : Block κ α) : Option (Block κ α) :=
  return (← overlay later first).append (later.without first.keys)

/-- Two items merged that stand under the same key. -/
def Item.merge : Item κ α → Item κ α → Option (Item κ α)
  | value _, value a => some (value a)
  | block body, block later => (body.merge later).map block
  | _, _ => none

/-- What stands under a key of two merged blocks, if anything does. -/
def mergeAt : Option (Item κ α) → Option (Item κ α) → Option (Option (Item κ α))
  | none, later => some later
  | some item, none => some (some item)
  | some item, some later => (item.merge later).map some

/-! ## Entry by entry -/

omit [DecidableEq κ] in
theorem keys_append (b b' : Block κ α) : (b.append b').keys = b.keys ++ b'.keys := by
  induction b using entry_induction with
  | empty => rfl
  | entry key item rest ih => simp [ih]

theorem find?_append (b b' : Block κ α) (key : κ) :
    (b.append b').find? key = (b.find? key).or (b'.find? key) := by
  induction b using entry_induction with
  | empty => simp
  | entry k item rest ih =>
    rw [append_entry, find?_entry, find?_entry, ih]
    split <;> rfl

theorem without_entry (keys : List κ) (key : κ) (item : Item κ α) (rest : Block κ α) :
    (item.entry key rest).without keys =
      if key ∈ keys then rest.without keys else item.entry key (rest.without keys) := by
  cases item <;> rfl

theorem keys_without (keys : List κ) (b : Block κ α) :
    (b.without keys).keys = b.keys.filter (· ∉ keys) := by
  induction b using entry_induction with
  | empty => rfl
  | entry key item rest ih =>
    rw [without_entry]
    split <;> simp_all

theorem find?_without (keys : List κ) (b : Block κ α) (key : κ) :
    (b.without keys).find? key = if key ∈ keys then none else b.find? key := by
  induction b using entry_induction with
  | empty => simp [without]
  | entry k item rest ih =>
    by_cases hk : k = key
    · subst hk
      by_cases hmem : k ∈ keys <;> simp [without_entry, hmem, ih]
    · by_cases hmem : k ∈ keys <;> simp [without_entry, hmem, ih, hk]

theorem overlay_entry (later : Block κ α) (key : κ) (item : Item κ α) (rest : Block κ α) :
    overlay later (item.entry key rest) =
      match later.find? key with
      | none => (overlay later rest).map (item.entry key)
      | some item' => (item.merge item').bind fun merged =>
          (overlay later rest).map (merged.entry key) := by
  cases item with
  | value a =>
    simp only [Item.entry, overlay]
    rcases later.find? key with _ | _ | _ <;> cases overlay later rest <;> rfl
  | block body =>
    simp only [Item.entry, overlay]
    rcases later.find? key with _ | _ | body'
    · cases overlay later rest <;> rfl
    · rfl
    · simp only [Item.merge, merge]
      cases overlay body' body <;> cases overlay later rest <;> rfl

/-- An overlaid block has an entry for every entry of the block. -/
theorem overlay_entry_eq_some {later : Block κ α} {key : κ} {item : Item κ α} {rest o : Block κ α}
    (h : overlay later (item.entry key rest) = some o) :
    ∃ merged o', mergeAt (some item) (later.find? key) = some (some merged) ∧
      overlay later rest = some o' ∧ o = merged.entry key o' := by
  rw [overlay_entry] at h
  rcases hlater : later.find? key with _ | item' <;> rw [hlater] at h
  · obtain ⟨o', hrest, rfl⟩ := Option.map_eq_some_iff.1 h
    exact ⟨item, o', rfl, hrest, rfl⟩
  · obtain ⟨merged, hmerged, hentry⟩ := Option.bind_eq_some_iff.1 h
    obtain ⟨o', hrest, rfl⟩ := Option.map_eq_some_iff.1 hentry
    exact ⟨merged, o', by simp [mergeAt, hmerged], hrest, rfl⟩

/-- The keys of an overlaid block stay as they are. -/
theorem keys_overlay {later b o : Block κ α} (h : overlay later b = some o) : o.keys = b.keys := by
  induction b using entry_induction generalizing o with
  | empty =>
    cases h
    rfl
  | entry key item rest ih =>
    obtain ⟨merged, o', -, hrest, rfl⟩ := overlay_entry_eq_some h
    rw [keys_entry, keys_entry, ih hrest]

/-- What an overlaid block has under its keys. -/
theorem find?_overlay {later b o : Block κ α} (h : overlay later b = some o) {key : κ}
    (hkey : key ∈ b.keys) : mergeAt (b.find? key) (later.find? key) = some (o.find? key) := by
  induction b using entry_induction generalizing o with
  | empty => simp at hkey
  | entry k item rest ih =>
    obtain ⟨merged, o', hmerged, hrest, rfl⟩ := overlay_entry_eq_some h
    rw [find?_entry, find?_entry]
    rw [keys_entry, List.mem_cons] at hkey
    by_cases hk : k = key
    · rw [if_pos hk, if_pos hk, ← hk, hmerged]
    · rw [if_neg hk, if_neg hk]
      exact ih hrest (hkey.resolve_left (Ne.symm hk))

/-- A block cannot be overlaid exactly if some item of it cannot be merged. -/
theorem overlay_eq_none_iff {later b : Block κ α} (h : b.keys.Nodup) :
    overlay later b = none ↔ ∃ key, mergeAt (b.find? key) (later.find? key) = none := by
  induction b using entry_induction with
  | empty => simp [overlay, mergeAt]
  | entry k item rest ih =>
    rw [keys_entry, List.nodup_cons] at h
    obtain ⟨hk, hrest⟩ := h
    -- Either this item is the one, or it is one of the rest, under another key.
    have hsplit : (∃ key, mergeAt ((item.entry k rest).find? key) (later.find? key) = none) ↔
        mergeAt (some item) (later.find? k) = none ∨
          ∃ key, mergeAt (rest.find? key) (later.find? key) = none := by
      constructor
      · rintro ⟨key, hkey⟩
        rw [find?_entry] at hkey
        split at hkey
        · next heq => exact .inl (heq ▸ hkey)
        · exact .inr ⟨key, hkey⟩
      · rintro (hkey | ⟨key, hkey⟩)
        · exact ⟨k, by simpa using hkey⟩
        · refine ⟨key, ?_⟩
          have hne : k ≠ key := by
            rintro rfl
            rw [find?_eq_none_iff.2 hk] at hkey
            simp [mergeAt] at hkey
          rw [find?_entry, if_neg hne]
          exact hkey
    rw [hsplit, ← ih hrest, overlay_entry]
    rcases later.find? k with _ | item'
    · simp [mergeAt]
    · rcases hitem : item.merge item' with _ | merged <;> simp [mergeAt, hitem]

/-! ## Merging, told from keys and items -/

theorem keys_merge {first later merged : Block κ α} (h : first.merge later = some merged) :
    merged.keys = first.keys ++ later.keys.filter (· ∉ first.keys) := by
  obtain ⟨o, ho, hmerged⟩ := Option.bind_eq_some_iff.1 h
  cases hmerged
  rw [keys_append, keys_overlay ho, keys_without]

theorem find?_merge {first later merged : Block κ α} (h : first.merge later = some merged)
    (key : κ) : mergeAt (first.find? key) (later.find? key) = some (merged.find? key) := by
  obtain ⟨o, ho, hmerged⟩ := Option.bind_eq_some_iff.1 h
  cases hmerged
  rw [find?_append, find?_without]
  by_cases hkey : key ∈ first.keys
  · rw [find?_overlay ho hkey, if_pos hkey, Option.or_none]
  · have hnone : o.find? key = none := find?_eq_none_iff.2 (keys_overlay ho ▸ hkey)
    rw [find?_eq_none_iff.2 hkey, hnone, if_neg hkey]
    rfl

/-- Two blocks cannot be merged exactly if there is a key under which they cannot. -/
theorem merge_eq_none_iff {first later : Block κ α} (h : first.keys.Nodup) :
    first.merge later = none ↔ ∃ key, mergeAt (first.find? key) (later.find? key) = none := by
  rw [← overlay_eq_none_iff h, merge]
  cases overlay later first <;> simp

/-- A block in which no key is used twice is known by its keys and what stands under them. -/
theorem eq_of_find? {b b' : Block κ α} (h : b.keys.Nodup) (hkeys : b.keys = b'.keys)
    (hfind : ∀ key, b.find? key = b'.find? key) : b = b' := by
  induction b using entry_induction generalizing b' with
  | empty =>
    cases b' with
    | empty => rfl
    | declare => cases hkeys
    | nest => cases hkeys
  | entry key item rest ih =>
    induction b' using entry_induction with
    | empty => simp at hkeys
    | entry key' item' rest' _ =>
      rw [keys_entry, keys_entry, List.cons.injEq] at hkeys
      rw [keys_entry, List.nodup_cons] at h
      obtain ⟨rfl, hkeys⟩ := hkeys
      have hitem : item = item' := by simpa using hfind key
      have hrest : ∀ k, rest.find? k = rest'.find? k := by
        intro k
        by_cases hk : key = k
        · subst hk
          rw [find?_eq_none_iff.2 h.1, find?_eq_none_iff.2 (hkeys ▸ h.1)]
        · simpa [hk] using hfind k
      rw [hitem, ih h.2 hkeys hrest]

theorem merge_eq_some_iff {first later merged : Block κ α} (hfirst : first.keys.Nodup)
    (hlater : later.keys.Nodup) :
    first.merge later = some merged ↔
      merged.keys = first.keys ++ later.keys.filter (· ∉ first.keys) ∧
        ∀ key, mergeAt (first.find? key) (later.find? key) = some (merged.find? key) := by
  constructor
  · exact fun h => ⟨keys_merge h, find?_merge h⟩
  · rintro ⟨hkeys, hfind⟩
    rcases hmerge : first.merge later with _ | merged'
    · obtain ⟨key, hnone⟩ := (merge_eq_none_iff hfirst).1 hmerge
      simp [hfind key] at hnone
    · have hnodup : merged'.keys.Nodup := by
        rw [keys_merge hmerge, List.nodup_append]
        refine ⟨hfirst, hlater.filter _, ?_⟩
        rintro key hkey _ hkey' rfl
        simp [hkey] at hkey'
      have hsame : ∀ key, merged'.find? key = merged.find? key := by
        intro key
        have hkey := find?_merge hmerge key
        rw [hfind key, Option.some.injEq] at hkey
        exact hkey.symm
      rw [eq_of_find? hnodup ((keys_merge hmerge).trans hkeys.symm) hsame]

theorem merge_empty (b : Block κ α) : b.merge empty = some b := by
  have hover : overlay empty b = some b := by
    induction b using entry_induction with
    | empty => rfl
    | entry key item rest ih => simp [overlay_entry, ih]
  rw [merge, hover]
  exact congrArg some (append_empty b)

/-! ## One write more -/

/-- A block in which no key is used twice, at any level. -/
def HasDistinctKeys (b : Block κ α) : Prop :=
  ∀ p, (b.keysAt p).Nodup

theorem HasDistinctKeys.nodup {b : Block κ α} (h : b.HasDistinctKeys) : b.keys.Nodup := h []

theorem HasDistinctKeys.bodyAt {b : Block κ α} (h : b.HasDistinctKeys) (key : κ) :
    (b.bodyAt key).HasDistinctKeys :=
  fun p => keysAt_bodyAt key b p ▸ h (key :: p)

/-- What writes build uses no key twice, since its keys stand in the order of their first use. -/
theorem hasDistinctKeys_ofWrites {ws : List (Write κ α)} {b : Block κ α}
    (h : ofWrites ws = .ok b) : b.HasDistinctKeys := by
  refine fun p => (keysAt_ofWrites_pairwise h p).imp fun {key key'} hlt => ?_
  rintro rfl
  exact absurd hlt (Nat.lt_irrefl _)

theorem nodup_addKey {keys : List κ} (h : keys.Nodup) (key : κ) : (addKey keys key).Nodup := by
  rw [addKey]
  split
  · exact h
  · next hnew =>
    rw [List.nodup_append]
    refine ⟨h, List.nodup_cons.2 ⟨by simp, List.nodup_nil⟩, ?_⟩
    rintro k hk _ hkey rfl
    exact hnew (List.mem_singleton.1 hkey ▸ hk)

theorem addKey_append_filter (keys later : List κ) (key : κ) :
    addKey (keys ++ later.filter (· ∉ keys)) key =
      keys ++ (addKey later key).filter (· ∉ keys) := by
  by_cases hkey : key ∈ keys
  · by_cases hlater : key ∈ later <;> simp [addKey, hkey, hlater]
  · by_cases hlater : key ∈ later <;> simp [addKey, hkey, hlater]

/-- Merging after an item of the later block has changed is changing the item of the merged block,
if that is so under the key itself. -/
theorem merge_set {first later : Block κ α} (hfirst : first.keys.Nodup) (hlater : later.keys.Nodup)
    {key : κ} {item : Item κ α} {change : Option (Item κ α) → Option (Item κ α)}
    (hkey : mergeAt (first.find? key) (some item) =
      (mergeAt (first.find? key) (later.find? key)).bind fun found => (change found).map some) :
    first.merge (later.set key item) =
      (first.merge later).bind fun merged => (change (merged.find? key)).map (merged.set key) := by
  have hset : ∀ k, k ≠ key → (later.set key item).find? k = later.find? k := by
    intro k hk
    rw [find?_set, if_neg (Ne.symm hk)]
  have hitem : (later.set key item).find? key = some item := by rw [find?_set, if_pos rfl]
  rcases hmerge : first.merge later with _ | merged
  · obtain ⟨k, hnone⟩ := (merge_eq_none_iff hfirst).1 hmerge
    refine (merge_eq_none_iff hfirst).2 ⟨k, ?_⟩
    by_cases hk : k = key
    · subst hk
      rw [hitem, hkey, hnone]
      rfl
    · rw [hset k hk, hnone]
  · rw [find?_merge hmerge key, Option.bind_some] at hkey
    rw [Option.bind_some]
    rcases hchange : change (merged.find? key) with _ | changed <;> rw [hchange] at hkey
    · exact (merge_eq_none_iff hfirst).2 ⟨key, by rw [hitem, hkey]; rfl⟩
    · have hkeys : (later.set key item).keys.Nodup :=
        keys_set key item later ▸ nodup_addKey hlater key
      refine (merge_eq_some_iff hfirst hkeys).2 ⟨?_, fun k => ?_⟩
      · rw [keys_set, keys_set, keys_merge hmerge, addKey_append_filter]
      · by_cases hk : k = key
        · subst hk
          rw [hitem, hkey, find?_set, if_pos rfl]
          rfl
        · rw [hset k hk, find?_merge hmerge k, find?_set, if_neg (Ne.symm hk)]

theorem bodyAt_of_block {b body : Block κ α} {key : κ} (h : b.find? key = some (.block body)) :
    b.bodyAt key = body := by
  rw [bodyAt, h]

theorem bodyAt_of_none {b : Block κ α} {key : κ} (h : b.find? key = none) :
    b.bodyAt key = empty := by
  rw [bodyAt, h]

/-- What a write below a key does to the item under it. -/
def Item.putUnder (w : Write κ α) : Option (Item κ α) → Option (Item κ α)
  | some (value _) => none
  | some (block body) => (body.put w).toOption.map block
  | none => (empty.put w).toOption.map block

/-- What a write of a value does to the item under its key. -/
def Item.putHere (a : α) : Option (Item κ α) → Option (Item κ α)
  | some (block _) => none
  | _ => some (value a)

theorem toOption_put_under (key : κ) (w : Write κ α) (b : Block κ α) :
    (b.put (w.under key)).toOption = (Item.putUnder w (b.find? key)).map (b.set key) := by
  rw [put_under, within_eq, bodyAt]
  rcases b.find? key with _ | _ | body
  · cases hput : (empty : Block κ α).put w <;> simp [Item.putUnder, hput, Except.toOption]
  · rfl
  · cases hput : body.put w <;> simp [Item.putUnder, hput, Except.toOption]

theorem toOption_put_here (key : κ) (a : α) (b : Block κ α) :
    (b.put ⟨[], key, some a⟩).toOption = (Item.putHere a (b.find? key)).map (b.set key) := by
  rw [put_here_some, assign_eq]
  rcases b.find? key with _ | _ | _ <;> rfl

/-- Merging after one write more is making the write after merging. -/
theorem merge_put {w : Write κ α} {first later later' : Block κ α} (hfirst : first.HasDistinctKeys)
    (hlater : later.HasDistinctKeys) (h : later.put w = .ok later') :
    first.merge later' = (first.merge later).bind fun merged => (merged.put w).toOption := by
  induction w using Write.path_induction generalizing first later later' with
  | here key value? =>
    cases value? with
    | none =>
      cases (put_here_none key later).symm.trans h
      cases first.merge later <;> rfl
    | some a =>
      obtain ⟨hfind, rfl⟩ := put_here_some_eq_ok h
      simp only [toOption_put_here]
      refine merge_set hfirst.nodup hlater.nodup ?_
      rcases hitem : later.find? key with _ | a' | body
      · rcases first.find? key with _ | _ | _ <;> rfl
      · rcases first.find? key with _ | _ | _ <;> rfl
      · exact absurd hitem (hfind body)
  | under key w ih =>
    obtain ⟨hfind, body, hbody, rfl⟩ := put_under_eq_ok h
    simp only [toOption_put_under]
    refine merge_set hfirst.nodup hlater.nodup ?_
    have hnested := ih (hfirst.bodyAt key) (hlater.bodyAt key) hbody
    rcases hitem : later.find? key with _ | a' | body'
    · rw [bodyAt_of_none hitem] at hbody hnested
      rcases hitem' : first.find? key with _ | _ | body₁
      · simp [mergeAt, Item.putUnder, hbody, Except.toOption]
      · rfl
      · rw [bodyAt_of_block hitem', merge_empty, Option.bind_some] at hnested
        simp [mergeAt, Item.merge, Item.putUnder, hnested]
    · exact absurd hitem (hfind a')
    · rw [bodyAt_of_block hitem] at hbody hnested
      rcases hitem' : first.find? key with _ | _ | body₁
      · simp [mergeAt, Item.putUnder, hbody, Except.toOption]
      · rfl
      · rw [bodyAt_of_block hitem'] at hnested
        cases hmerge : body₁.merge body' <;>
          simp [mergeAt, Item.merge, Item.putUnder, hnested, hmerge]

/-- A run of writes has the effect of merging what it builds by itself. -/
theorem foldlM_put_eq_merge {ws : List (Write κ α)} {first later : Block κ α}
    (hfirst : first.HasDistinctKeys) (h : ofWrites ws = .ok later) :
    (ws.foldlM put first).toOption = first.merge later := by
  induction ws using List.reverseRecOn generalizing later with
  | nil =>
    cases h
    exact (merge_empty first).symm
  | append_singleton ws w ih =>
    obtain ⟨before, hws, hput⟩ := ofWrites_concat_eq_ok_iff.1 h
    rw [merge_put hfirst (hasDistinctKeys_ofWrites hws) hput, ← ih hws, List.foldlM_append]
    cases ws.foldlM put first with
    | error path => rfl
    | ok b =>
      cases hb : b.put w <;> simp [bind, Except.bind, hb, pure, Except.pure, Except.toOption]

end Stylesheet.Block
