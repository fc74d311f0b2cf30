import Stylesheet.Proofs.Block.Write
import Mathlib.Data.List.Induction

/-!
# Runs of writes

A block that is built up from nothing is known from the writes alone: which values, blocks and keys
it has, in which order its keys stand, and whether it can be built at all.  Each statement is an
induction on the run, with the statement about one write of the same name for its step.

## Main definitions

* `Block.ofWrites` — the block that a run of writes builds.
* `Block.firstUse` — the first write of a run that uses a key of the block at a place.
* `Block.ClashAt` — a place that a run uses both for a value and for a block.

## Main statements

* `Block.hasBlock_ofWrites_iff`, `Block.at?_ofWrites_eq_value_iff` — what the block holds.
* `Block.keysAt_ofWrites_pairwise` — keys stand in the order of their first use.
* `Block.exists_ofWrites_eq_error_iff`, `Block.clashAt_of_put_eq_error` — a run fails exactly if it
  has a clash, and at the first write that makes one.
-/

namespace Stylesheet.Block

variable {κ α : Type}

theorem Write.uses_unique {w : Write κ α} {p : List κ} {k k' : κ} (h : w.Uses p k)
    (h' : w.Uses p k') : k = k' := by
  have hplace : ∀ k, w.Uses p k → p ++ [k] <+: w.place := by
    rintro k (hpath | ⟨-, hplace⟩)
    · exact hpath.trans (List.prefix_append _ _)
    · exact hplace ▸ List.prefix_rfl
  obtain hk | hk := List.prefix_or_prefix_of_prefix (hplace k h) (hplace k' h')
  · simpa using hk
  · simpa [eq_comm] using hk

variable [DecidableEq κ]

instance (w : Write κ α) (p : List κ) : Decidable (w.Assigns p) :=
  inferInstanceAs (Decidable (_ ∧ _))

instance (w : Write κ α) (p : List κ) (key : κ) : Decidable (w.Uses p key) :=
  inferInstanceAs (Decidable (_ ∨ _))

/-- The block that a run of writes builds. -/
def ofWrites (ws : List (Write κ α)) : Clash κ (Block κ α) :=
  ws.foldlM put empty

/-- The place in a run of the first write that uses a key of the block at a place. -/
def firstUse (ws : List (Write κ α)) (p : List κ) (key : κ) : Nat :=
  ws.findIdx fun w => decide (w.Uses p key)

/-- Whether a run uses a place both for a value and for a block. -/
def ClashAt (ws : List (Write κ α)) (p : List κ) : Prop :=
  (∃ w ∈ ws, w.Assigns p) ∧ ∃ w ∈ ws, p <+: w.path

/-! ## One write more -/

theorem ofWrites_append (ws ws' : List (Write κ α)) :
    ofWrites (ws ++ ws') = ofWrites ws >>= fun b => ws'.foldlM put b :=
  List.foldlM_append

theorem ofWrites_concat_eq_ok_iff {ws : List (Write κ α)} {w : Write κ α} {b' : Block κ α} :
    ofWrites (ws ++ [w]) = .ok b' ↔ ∃ b, ofWrites ws = .ok b ∧ b.put w = .ok b' := by
  rw [ofWrites_append]
  cases ofWrites ws with
  | error e => simp [bind, Except.bind]
  | ok b => cases hput : b.put w <;> simp [bind, Except.bind, hput, pure, Except.pure]

/-- A run that fails does so at some write, with a block built up to there. -/
theorem exists_put_eq_error {ws : List (Write κ α)} {e : List κ} (h : ofWrites ws = .error e) :
    ∃ before w after b, ws = before ++ w :: after ∧ ofWrites before = .ok b ∧
      b.put w = .error e := by
  induction ws using List.reverseRecOn with
  | nil => cases h
  | append_singleton ws w ih =>
    cases hws : ofWrites ws with
    | ok b =>
      have hput : b.put w = .error e := by
        rw [ofWrites_append, hws] at h
        cases hput : b.put w <;> simp_all [bind, Except.bind, pure, Except.pure]
      exact ⟨ws, w, [], b, rfl, hws, hput⟩
    | error e' =>
      obtain rfl : e' = e := by
        rw [ofWrites_append, hws] at h
        cases h
        rfl
      obtain ⟨before, v, after, b, rfl, hbefore, hput⟩ := ih hws
      exact ⟨before, v, after ++ [w], b, by simp, hbefore, hput⟩

/-! ## What the block holds -/

/-- Blocks stand on the paths of the writes, and nowhere else. -/
theorem hasBlock_ofWrites_iff {ws : List (Write κ α)} {b : Block κ α} (h : ofWrites ws = .ok b)
    (p : List κ) : b.HasBlock p ↔ p = [] ∨ ∃ w ∈ ws, p <+: w.path := by
  induction ws using List.reverseRecOn generalizing b with
  | nil =>
    cases h
    cases p <;> simp [HasBlock]
  | append_singleton ws w ih =>
    obtain ⟨b₀, hws, hput⟩ := ofWrites_concat_eq_ok_iff.1 h
    rw [hasBlock_put_iff hput, ih hws]
    simp only [List.mem_append, List.mem_singleton, or_and_right, exists_or, exists_eq_left]
    exact or_comm.trans or_assoc

/-- The value at a place is that of the last write to it. -/
theorem at?_ofWrites_eq_value_iff {ws : List (Write κ α)} {b : Block κ α} (h : ofWrites ws = .ok b)
    (p : List κ) (a : α) :
    b.at? p = some (.value a) ↔
      ((ws.filter fun w => w.Assigns p).getLast?.bind Write.value?) = some a := by
  induction ws using List.reverseRecOn generalizing b with
  | nil =>
    cases h
    cases p <;> simp
  | append_singleton ws w ih =>
    obtain ⟨b₀, hws, hput⟩ := ofWrites_concat_eq_ok_iff.1 h
    rw [at?_put_eq_value_iff hput, ih hws, List.filter_append]
    by_cases hw : w.Assigns p <;> simp [hw]

/-- Values stand where a write has put one, and nowhere else. -/
theorem exists_value_ofWrites_iff {ws : List (Write κ α)} {b : Block κ α}
    (h : ofWrites ws = .ok b) (p : List κ) :
    (∃ a, b.at? p = some (.value a)) ↔ ∃ w ∈ ws, w.Assigns p := by
  simp only [at?_ofWrites_eq_value_iff h]
  constructor
  · rintro ⟨a, ha⟩
    obtain ⟨w, hw, -⟩ := Option.bind_eq_some_iff.1 ha
    obtain ⟨hmem, hassigns⟩ := List.mem_filter.1 (List.mem_of_getLast? hw)
    exact ⟨w, hmem, of_decide_eq_true hassigns⟩
  · rintro ⟨w, hw, hassigns⟩
    have hmem : w ∈ ws.filter fun w => w.Assigns p := by simp [hw, hassigns]
    obtain ⟨v, hv⟩ := Option.ne_none_iff_exists'.1
      (mt List.getLast?_eq_none_iff.1 (List.ne_nil_of_mem hmem))
    obtain ⟨-, hv'⟩ := List.mem_filter.1 (List.mem_of_getLast? hv)
    obtain ⟨a, ha⟩ := Option.ne_none_iff_exists'.1 (of_decide_eq_true hv').1
    exact ⟨a, by rw [hv, Option.bind_some, ha]⟩

/-- The value at a place is that of a write to it after which there is none. -/
theorem value_ofWrites_of_last {before after : List (Write κ α)} {w : Write κ α} {b : Block κ α}
    {a : α} (h : ofWrites (before ++ w :: after) = .ok b) (ha : w.value? = some a)
    (hlast : ∀ v ∈ after, ¬ v.Assigns w.place) : b.at? w.place = some (.value a) := by
  have hw : w.Assigns w.place := ⟨by simp [ha], rfl⟩
  have hafter : (after.filter fun v => v.Assigns w.place) = [] := by simpa using hlast
  rw [at?_ofWrites_eq_value_iff h, List.filter_append, List.filter_cons_of_pos (by simpa using hw),
    hafter, List.getLast?_concat, Option.bind_some, ha]

/-! ## The order of keys -/

/-- The keys of the block at a place are those that writes have used there. -/
theorem mem_keysAt_ofWrites_iff {ws : List (Write κ α)} {b : Block κ α} (h : ofWrites ws = .ok b)
    (p : List κ) (key : κ) : key ∈ b.keysAt p ↔ ∃ w ∈ ws, w.Uses p key := by
  induction ws using List.reverseRecOn generalizing b with
  | nil =>
    cases h
    cases p <;> simp [keysAt]
  | append_singleton ws w ih =>
    obtain ⟨b₀, hws, hput⟩ := ofWrites_concat_eq_ok_iff.1 h
    simp only [List.mem_append, List.mem_singleton, or_and_right, exists_or, exists_eq_left,
      ← ih hws]
    by_cases hw : ∃ k, w.Uses p k
    · obtain ⟨k, hk⟩ := hw
      have hkey : w.Uses p key ↔ key = k :=
        ⟨fun h => Write.uses_unique h hk, fun h => h ▸ hk⟩
      rw [keysAt_put_of_uses hput hk, hkey, addKey]
      split
      · next hmem => exact ⟨.inl, fun h => h.elim id fun h => h ▸ hmem⟩
      · rw [List.mem_append, List.mem_singleton]
    · rw [keysAt_put_of_not_uses hput (not_exists.1 hw)]
      simp [not_exists.1 hw key]

/-- A key that is used for the first time by the last write of a run was not used before. -/
theorem firstUse_concat_of_used {ws : List (Write κ α)} {p : List κ} {key : κ}
    (h : ∃ w ∈ ws, w.Uses p key) (w : Write κ α) :
    firstUse (ws ++ [w]) p key = firstUse ws p key := by
  have hlt : firstUse ws p key < ws.length :=
    List.findIdx_lt_length_of_exists (by simpa using h)
  rw [firstUse] at hlt ⊢
  rw [List.findIdx_append, if_pos hlt, firstUse]

theorem firstUse_concat_of_new {ws : List (Write κ α)} {p : List κ} {key : κ}
    (h : ¬ ∃ w ∈ ws, w.Uses p key) {w : Write κ α} (hw : w.Uses p key) :
    firstUse (ws ++ [w]) p key = ws.length := by
  have hlen : firstUse ws p key = ws.length :=
    List.findIdx_eq_length.2 (by simpa using h)
  rw [firstUse] at hlen ⊢
  rw [List.findIdx_append, if_neg (by omega)]
  simp [List.findIdx_cons, hw]

/-- The keys of the block at a place stand in the order in which they were first used. -/
theorem keysAt_ofWrites_pairwise {ws : List (Write κ α)} {b : Block κ α}
    (h : ofWrites ws = .ok b) (p : List κ) :
    (b.keysAt p).Pairwise fun k k' => firstUse ws p k < firstUse ws p k' := by
  induction ws using List.reverseRecOn generalizing b with
  | nil =>
    cases h
    cases p <;> simp [keysAt]
  | append_singleton ws w ih =>
    obtain ⟨b₀, hws, hput⟩ := ofWrites_concat_eq_ok_iff.1 h
    have hused := mem_keysAt_ofWrites_iff hws p
    have hold : (b₀.keysAt p).Pairwise fun k k' =>
        firstUse (ws ++ [w]) p k < firstUse (ws ++ [w]) p k' := by
      refine (ih hws).imp_of_mem fun {k₁ k₂} hk₁ hk₂ hlt => ?_
      rwa [firstUse_concat_of_used ((hused k₁).1 hk₁), firstUse_concat_of_used ((hused k₂).1 hk₂)]
    by_cases hw : ∃ k, w.Uses p k
    · obtain ⟨k, hk⟩ := hw
      rw [keysAt_put_of_uses hput hk, addKey]
      split
      · exact hold
      · next hnew =>
        -- The key is new: its first use is this write, and all others were used before.
        refine List.pairwise_append.2 ⟨hold, List.pairwise_singleton _ _, ?_⟩
        intro k' hk' k'' hk''
        have hk'used := (hused k').1 hk'
        rw [List.mem_singleton.1 hk'', firstUse_concat_of_used hk'used,
          firstUse_concat_of_new (mt (hused k).2 hnew) hk]
        exact List.findIdx_lt_length_of_exists (by simpa using hk'used)
    · rw [keysAt_put_of_not_uses hput (not_exists.1 hw)]
      exact hold

/-! ## Clashes -/

omit [DecidableEq κ] in
theorem ClashAt.mono {ws ws' : List (Write κ α)} (hsub : ws ⊆ ws') {p : List κ}
    (h : ClashAt ws p) : ClashAt ws' p := by
  obtain ⟨⟨w, hw, hassigns⟩, v, hv, hpath⟩ := h
  exact ⟨⟨w, hsub hw, hassigns⟩, v, hsub hv, hpath⟩

/-- No run that succeeds has a clash, since a value and a block never share a place. -/
theorem not_clashAt_of_ofWrites {ws : List (Write κ α)} {b : Block κ α}
    (h : ofWrites ws = .ok b) (p : List κ) : ¬ ClashAt ws p := by
  rintro ⟨hvalue, hblock⟩
  obtain ⟨a, ha⟩ := (exists_value_ofWrites_iff h p).2 hvalue
  exact not_hasBlock_of_value ha ((hasBlock_ofWrites_iff h p).2 (.inr hblock))

/-- The write at which a run fails makes a clash with what was written before it. -/
theorem clashAt_of_put_eq_error {ws : List (Write κ α)} {w : Write κ α} {b : Block κ α}
    {e : List κ} (hws : ofWrites ws = .ok b) (h : b.put w = .error e) : ClashAt (ws ++ [w]) e := by
  obtain ⟨hvalue, hpath⟩ | ⟨hassigns, hblock⟩ := put_eq_error_iff.1 h
  · obtain ⟨v, hv, hassigns⟩ := (exists_value_ofWrites_iff hws e).1 hvalue
    exact ⟨⟨v, List.mem_append_left _ hv, hassigns⟩, w, by simp, hpath⟩
  · obtain rfl | ⟨v, hv, hpath⟩ := (hasBlock_ofWrites_iff hws e).1 hblock
    · exact absurd hassigns.2 w.place_ne_nil
    · exact ⟨⟨w, by simp, hassigns⟩, v, List.mem_append_left _ hv, hpath⟩

/-- A run fails exactly if it has a clash. -/
theorem exists_ofWrites_eq_error_iff {ws : List (Write κ α)} :
    (∃ e, ofWrites ws = .error e) ↔ ∃ p, ClashAt ws p := by
  constructor
  · rintro ⟨e, h⟩
    obtain ⟨before, w, after, b, rfl, hbefore, hput⟩ := exists_put_eq_error h
    refine ⟨e, (clashAt_of_put_eq_error hbefore hput).mono ?_⟩
    simp [List.subset_def]
    tauto
  · rintro ⟨p, hp⟩
    cases h : ofWrites ws with
    | error e => exact ⟨e, rfl⟩
    | ok b => exact absurd hp (not_clashAt_of_ofWrites h p)

end Stylesheet.Block
