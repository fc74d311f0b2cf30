import Stylesheet.Proofs.Block.Entry
import Mathlib.Data.List.Infix

/-!
# Writes to a block

A declaration whose name and text are worked out is a write: it opens the blocks on a path and,
unless its value is empty, puts a text under a key in the last of them.  This module says once when
a write fails and what it changes, for each of the three things that can be asked of a place: which
value stands there, whether a block does, and which keys that block has.  What long runs of writes
do follows from these statements alone.

## Main definitions

* `Block.Write` — a write, with its `place`.
* `Block.Write.Assigns`, `Block.Write.Uses` — what a write does at a place.
* `Block.put` — a block with one write more.
* `Block.HasBlock`, `Block.keysAt` — the blocks nested in a block, and their keys.

## Main statements

* `Block.put_eq_error_iff` — a write fails exactly where it meets a value on its path, or a block at
  its place.
* `Block.at?_put_eq_value_iff`, `Block.hasBlock_put_iff`, `Block.keysAt_put` — what a write changes.
* `Block.put_put` — a write that is overwritten right away leaves no trace.
-/

namespace Stylesheet.Block

variable {κ α : Type}

/-- A write to the block at the end of a path.  A write without a value only opens that block. -/
structure Write (κ α : Type) where
  path : List κ
  key : κ
  value? : Option α

namespace Write

/-- Where the value goes. -/
def place (w : Write κ α) : List κ :=
  w.path ++ [w.key]

/-- Whether the write puts a value at a place. -/
def Assigns (w : Write κ α) (p : List κ) : Prop :=
  w.value? ≠ none ∧ w.place = p

/-- Whether the write uses a key of the block at a place: it goes on through the key, or it puts its
value under it. -/
def Uses (w : Write κ α) (p : List κ) (key : κ) : Prop :=
  p ++ [key] <+: w.path ∨ w.Assigns (p ++ [key])

/-- The write as it looks from outside of the block under a key. -/
def under (key : κ) (w : Write κ α) : Write κ α :=
  { w with path := key :: w.path }

/-- Induction on the path of a write. -/
@[elab_as_elim]
theorem path_induction {motive : Write κ α → Prop}
    (here : ∀ key value?, motive ⟨[], key, value?⟩)
    (under : ∀ key w, motive w → motive (under key w)) (w : Write κ α) : motive w := by
  obtain ⟨path, key, value?⟩ := w
  induction path with
  | nil => exact here key value?
  | cons k path ih => exact under k ⟨path, key, value?⟩ ih

@[simp] theorem place_under (key : κ) (w : Write κ α) : (w.under key).place = key :: w.place := rfl

@[simp] theorem path_under (key : κ) (w : Write κ α) : (w.under key).path = key :: w.path := rfl

@[simp] theorem value?_under (key : κ) (w : Write κ α) : (w.under key).value? = w.value? := rfl

theorem place_ne_nil (w : Write κ α) : w.place ≠ [] := by
  simp [place]

theorem assigns_under_cons {key key' : κ} {w : Write κ α} {p : List κ} :
    (w.under key).Assigns (key' :: p) ↔ key = key' ∧ w.Assigns p := by
  simp only [Assigns, value?_under, place_under, List.cons.injEq]
  tauto

theorem uses_under_cons {key key' k : κ} {w : Write κ α} {p : List κ} :
    (w.under key).Uses (key' :: p) k ↔ key = key' ∧ w.Uses p k := by
  simp only [Uses, path_under, List.cons_append, List.cons_prefix_cons, assigns_under_cons]
  tauto

theorem uses_under_nil {key k : κ} {w : Write κ α} : (w.under key).Uses [] k ↔ key = k := by
  constructor
  · rintro (h | ⟨-, h⟩)
    · simpa [List.cons_prefix_cons, eq_comm] using h
    · simp [place_ne_nil] at h
  · rintro rfl
    exact .inl (by simp)

end Write

variable [DecidableEq κ]

/-- The block with one write more. -/
def put (b : Block κ α) (w : Write κ α) : Clash κ (Block κ α) :=
  match w.value? with
  | some a => b.descend (assign w.key a) w.path
  | none => b.descend .ok w.path

/-- Whether a block stands at a place. -/
def HasBlock (b : Block κ α) (p : List κ) : Prop :=
  ∃ body, b.at? p = some (.block body)

/-- The keys of the block at a place. -/
def keysAt (b : Block κ α) (p : List κ) : List κ :=
  match b.at? p with
  | some (.block body) => body.keys
  | _ => []

@[simp] theorem hasBlock_nil (b : Block κ α) : b.HasBlock [] := ⟨b, rfl⟩

@[simp] theorem keysAt_nil (b : Block κ α) : b.keysAt [] = b.keys := rfl

theorem keysAt_of_at? {b body : Block κ α} {p : List κ} (h : b.at? p = some (.block body)) :
    b.keysAt p = body.keys := by
  simp [keysAt, h]

/-- A value and a block never share a place. -/
theorem not_hasBlock_of_value {b : Block κ α} {p : List κ} {a : α}
    (h : b.at? p = some (.value a)) : ¬ b.HasBlock p := by
  rintro ⟨body, hbody⟩
  simp [h] at hbody

@[simp] theorem at?_empty_cons (key : κ) (p : List κ) :
    (empty : Block κ α).at? (key :: p) = none := by
  simp [at?_cons]

/-! ## Looking into the block under a key -/

theorem at?_bodyAt_eq_value_iff {key : κ} {b : Block κ α} (h : ∀ a, b.find? key ≠ some (.value a))
    (p : List κ) (a : α) :
    (b.bodyAt key).at? p = some (.value a) ↔ b.at? (key :: p) = some (.value a) := by
  rw [at?_cons, bodyAt]
  rcases hfind : b.find? key with _ | a' | body
  · cases p <;> simp
  · exact absurd hfind (h a')
  · rfl

theorem hasBlock_bodyAt_iff (key : κ) (b : Block κ α) (p : List κ) :
    (b.bodyAt key).HasBlock p ↔ p = [] ∨ b.HasBlock (key :: p) := by
  rw [HasBlock, HasBlock, at?_cons, bodyAt]
  rcases b.find? key with _ | a | body
  · cases p <;> simp
  · cases p <;> simp
  · cases p <;> simp

theorem keysAt_bodyAt (key : κ) (b : Block κ α) (p : List κ) :
    (b.bodyAt key).keysAt p = b.keysAt (key :: p) := by
  rw [keysAt, keysAt, at?_cons, bodyAt]
  rcases b.find? key with _ | a | body
  · cases p <;> simp
  · cases p <;> simp
  · rfl

/-! ## What a write changes -/

/-- A write whose path starts with a key is a write to the block under it. -/
theorem put_under (key : κ) (w : Write κ α) (b : Block κ α) :
    b.put (w.under key) = within key (fun body => body.put w) b := by
  obtain ⟨path, _, _ | a⟩ := w <;> rfl

theorem put_here_none (key : κ) (b : Block κ α) : b.put ⟨[], key, none⟩ = .ok b := rfl

theorem put_here_some (key : κ) (a : α) (b : Block κ α) :
    b.put ⟨[], key, some a⟩ = assign key a b := rfl

/-- All that a write below a key does: there was no value under the key, and now there is the block
that the rest of the write makes of what was there. -/
theorem put_under_eq_ok {key : κ} {w : Write κ α} {b b' : Block κ α}
    (h : b.put (w.under key) = .ok b') :
    (∀ a, b.find? key ≠ some (.value a)) ∧
      ∃ body, (b.bodyAt key).put w = .ok body ∧ b' = b.set key (.block body) := by
  rw [put_under, within_eq] at h
  rcases hfind : b.find? key with _ | a | _ <;> simp only [hfind] at h
  · cases hbody : (b.bodyAt key).put w <;> simp only [hbody] at h <;> cases h
    exact ⟨by simp, _, rfl, rfl⟩
  · cases h
  · cases hbody : (b.bodyAt key).put w <;> simp only [hbody] at h <;> cases h
    exact ⟨by simp, _, rfl, rfl⟩

/-- All that a write to a block itself does: no block was under the key, and now the value is. -/
theorem put_here_some_eq_ok {key : κ} {a : α} {b b' : Block κ α}
    (h : b.put ⟨[], key, some a⟩ = .ok b') :
    (∀ body, b.find? key ≠ some (.block body)) ∧ b' = b.set key (.value a) := by
  rw [put_here_some, assign_eq] at h
  rcases hfind : b.find? key with _ | _ | _ <;> simp only [hfind] at h <;> cases h <;> simp

/-- After a write, the value it assigns stands at its place, and all other values stay as they
were. -/
theorem at?_put_eq_value_iff {w : Write κ α} {b b' : Block κ α} (h : b.put w = .ok b')
    (p : List κ) (a : α) :
    b'.at? p = some (.value a) ↔
      w.Assigns p ∧ w.value? = some a ∨ ¬ w.Assigns p ∧ b.at? p = some (.value a) := by
  induction w using Write.path_induction generalizing b b' p with
  | here key value? =>
    cases value? with
    | none =>
      cases (put_here_none key b).symm.trans h
      simp [Write.Assigns]
    | some a' =>
      obtain ⟨hfind, rfl⟩ := put_here_some_eq_ok h
      rcases p with _ | ⟨k, p⟩
      · simp [Write.Assigns, Write.place]
      · by_cases hk : key = k
        · subst hk
          rw [at?_set_value]
          by_cases hp : p = []
          · simp [hp, Write.Assigns, Write.place]
          · have hnone : b.at? (key :: p) ≠ some (.value a) := by
              rw [at?_cons]
              rcases hb : b.find? key with _ | _ | body
              · simp
              · simp [hp]
              · exact absurd hb (hfind body)
            simp [hp, hnone, Write.Assigns, Write.place, Ne.symm hp]
        · rw [at?_set_of_ne hk]
          simp [Write.Assigns, Write.place, hk]
  | under key w ih =>
    obtain ⟨hfind, body, hbody, rfl⟩ := put_under_eq_ok h
    rcases p with _ | ⟨k, p⟩
    · simp [Write.Assigns]
    · rw [Write.assigns_under_cons, Write.value?_under]
      by_cases hk : key = k
      · subst hk
        rw [at?_set_block, ih hbody, at?_bodyAt_eq_value_iff hfind]
        simp
      · rw [at?_set_of_ne hk]
        simp [hk]

/-- A write opens the blocks on its path, and closes none. -/
theorem hasBlock_put_iff {w : Write κ α} {b b' : Block κ α} (h : b.put w = .ok b')
    (p : List κ) : b'.HasBlock p ↔ p <+: w.path ∨ b.HasBlock p := by
  induction w using Write.path_induction generalizing b b' p with
  | here key value? =>
    cases value? with
    | none =>
      cases (put_here_none key b).symm.trans h
      rcases p with _ | ⟨k, p⟩ <;> simp
    | some a =>
      obtain ⟨hfind, rfl⟩ := put_here_some_eq_ok h
      rcases p with _ | ⟨k, p⟩
      · simp
      · by_cases hk : key = k
        · subst hk
          have hnone : ¬ b.HasBlock (key :: p) := by
            rw [HasBlock, at?_cons]
            rcases hb : b.find? key with _ | _ | body
            · simp
            · cases p <;> simp
            · exact absurd hb (hfind body)
          have hnone' : ¬ (b.set key (.value a)).HasBlock (key :: p) := by
            rw [HasBlock, at?_set_value]
            cases p <;> simp
          simp [hnone, hnone']
        · simp [HasBlock, at?_set_of_ne hk]
  | under key w ih =>
    obtain ⟨-, body, hbody, rfl⟩ := put_under_eq_ok h
    rcases p with _ | ⟨k, p⟩
    · simp
    · rw [Write.path_under, List.cons_prefix_cons]
      by_cases hk : key = k
      · subst hk
        have hset : (b.set key (.block body)).HasBlock (key :: p) ↔ body.HasBlock p := by
          rw [HasBlock, HasBlock, at?_set_block]
        rw [hset, ih hbody, hasBlock_bodyAt_iff]
        rcases p with _ | ⟨k, p⟩ <;> simp
      · simp [HasBlock, at?_set_of_ne hk, Ne.symm hk]

/-- The keys of the block at a place change only where a write uses one that is not among them. -/
theorem keysAt_put_of_uses {w : Write κ α} {b b' : Block κ α} (h : b.put w = .ok b')
    {p : List κ} {k : κ} (hk : w.Uses p k) : b'.keysAt p = addKey (b.keysAt p) k := by
  induction w using Write.path_induction generalizing b b' p with
  | here key value? =>
    obtain hk | ⟨hvalue, hplace⟩ := hk
    · simp at hk
    · obtain ⟨a, rfl⟩ := Option.ne_none_iff_exists'.1 hvalue
      obtain ⟨rfl, rfl⟩ : p = [] ∧ key = k := by
        cases p <;> simp_all [Write.place]
      obtain ⟨-, rfl⟩ := put_here_some_eq_ok h
      simp [keys_set]
  | under key w ih =>
    obtain ⟨-, body, hbody, rfl⟩ := put_under_eq_ok h
    rcases p with _ | ⟨k', p⟩
    · obtain rfl := Write.uses_under_nil.1 hk
      simp [keys_set]
    · obtain ⟨rfl, hw⟩ := Write.uses_under_cons.1 hk
      have hset : (b.set key (.block body)).keysAt (key :: p) = body.keysAt p := by
        rw [keysAt, keysAt, at?_set_block]
      rw [hset, ih hbody hw, keysAt_bodyAt]

theorem keysAt_put_of_not_uses {w : Write κ α} {b b' : Block κ α} (h : b.put w = .ok b')
    {p : List κ} (hp : ∀ k, ¬ w.Uses p k) : b'.keysAt p = b.keysAt p := by
  induction w using Write.path_induction generalizing b b' p with
  | here key value? =>
    cases value? with
    | none =>
      cases (put_here_none key b).symm.trans h
      rfl
    | some a =>
      obtain ⟨hfind, rfl⟩ := put_here_some_eq_ok h
      rcases p with _ | ⟨k, p⟩
      · exact absurd (.inr ⟨by simp, rfl⟩) (hp key)
      · by_cases hk : key = k
        · subst hk
          rw [keysAt, keysAt, at?_set_value, at?_cons]
          rcases hb : b.find? key with _ | _ | body
          · cases p <;> rfl
          · cases p <;> rfl
          · exact absurd hb (hfind body)
        · rw [keysAt, keysAt, at?_set_of_ne hk]
  | under key w ih =>
    obtain ⟨-, body, hbody, rfl⟩ := put_under_eq_ok h
    rcases p with _ | ⟨k, p⟩
    · exact absurd (Write.uses_under_nil.2 rfl) (hp key)
    · by_cases hk : key = k
      · subst hk
        have hset : (b.set key (.block body)).keysAt (key :: p) = body.keysAt p := by
          rw [keysAt, keysAt, at?_set_block]
        rw [hset, ih hbody fun k hw => hp k (Write.uses_under_cons.2 ⟨rfl, hw⟩), keysAt_bodyAt]
      · rw [keysAt, keysAt, at?_set_of_ne hk]

/-! ## Opening blocks first -/

/-- Two changes of a nested block, one after the other, are one change of it. -/
theorem within_bind (key : κ) (first next : Block κ α → Clash κ (Block κ α)) (b : Block κ α) :
    (within key first b >>= within key next) =
      within key (fun body => first body >>= next) b := by
  have hset : ∀ body, (∀ a, b.find? key ≠ some (.value a)) →
      within key next (b.set key (.block body)) = within key (fun _ => next body) b := by
    intro body hfind
    rw [within_eq, within_eq key fun _ => next body, find?_set, if_pos rfl, bodyAt, find?_set,
      if_pos rfl]
    rcases hb : b.find? key with _ | a | _
    · cases next body <;> simp only [set_set]
    · exact absurd hb (hfind a)
    · cases next body <;> simp only [set_set]
  rw [within_eq key first, within_eq key fun body => first body >>= next]
  rcases hb : b.find? key with _ | _ | _
  · cases first (b.bodyAt key) with
    | error path => rfl
    | ok body => exact (hset body (by simp [hb])).trans (by rw [within_eq, hb]; rfl)
  · rfl
  · cases first (b.bodyAt key) with
    | error path => rfl
    | ok body => exact (hset body (by simp [hb])).trans (by rw [within_eq, hb]; rfl)

/-- Two changes at the end of the same path are one change there. -/
theorem descend_descend (first next : Block κ α → Clash κ (Block κ α)) (path : List κ)
    (b : Block κ α) :
    (b.descend first path >>= fun changed => changed.descend next path) =
      b.descend (fun body => first body >>= next) path := by
  induction path generalizing b with
  | nil => rfl
  | cons key path ih =>
    calc
      (b.descend first (key :: path) >>= fun changed => changed.descend next (key :: path)) =
          within key (fun body => descend first path body >>= descend next path) b :=
        within_bind key _ _ b
      _ = within key (descend (fun body => first body >>= next) path) b :=
        congrArg (within key · b) (funext ih)

/-- Opening the blocks on a path before the last one is changed makes no difference. -/
theorem descend_bind (change : Block κ α → Clash κ (Block κ α)) (path : List κ) (b : Block κ α) :
    (b.descend .ok path >>= fun opened => opened.descend change path) =
      b.descend change path :=
  descend_descend .ok change path b

/-- A value that is overwritten leaves no trace. -/
theorem assign_assign (key : κ) (a a' : α) (b : Block κ α) :
    (assign key a b >>= assign key a') = assign key a' b := by
  have hset : assign key a' (b.set key (.value a)) = .ok (b.set key (.value a')) := by
    simp [assign_eq, find?_set, set_set]
  rw [assign_eq, assign_eq]
  rcases b.find? key with _ | _ | _
  · exact hset
  · exact hset
  · rfl

/-- A write to a place that is written to right afterwards leaves no trace. -/
theorem put_put {w w' : Write κ α} (hpath : w.path = w'.path) (hkey : w.key = w'.key)
    (hvalue : w'.value? ≠ none) (b : Block κ α) :
    (b.put w >>= fun written => written.put w') = b.put w' := by
  obtain ⟨path, key, value?⟩ := w
  obtain ⟨_, _, value'?⟩ := w'
  obtain ⟨rfl, rfl⟩ : path = _ ∧ key = _ := ⟨hpath, hkey⟩
  obtain ⟨a', rfl⟩ := Option.ne_none_iff_exists'.1 hvalue
  cases value? with
  | none => exact descend_bind (assign key a') path b
  | some a =>
    calc
      (b.descend (assign key a) path >>= fun written => written.descend (assign key a') path) =
          b.descend (fun body => assign key a body >>= assign key a') path :=
        descend_descend _ _ path b
      _ = b.descend (assign key a') path :=
        congrArg (descend · path b) (funext (assign_assign key a a'))

/-- A write that succeeds opens the blocks on its path. -/
theorem exists_descend_eq_ok_of_put {w : Write κ α} {b b' : Block κ α} (h : b.put w = .ok b') :
    ∃ opened, b.descend .ok w.path = .ok opened := by
  obtain ⟨path, key, value?⟩ := w
  cases value? with
  | none => exact ⟨b', h⟩
  | some a =>
    have hbind := descend_bind (assign key a) path b
    cases hopened : b.descend .ok path with
    | ok opened => exact ⟨opened, rfl⟩
    | error e =>
      rw [hopened] at hbind
      cases hbind.trans h

/-! ## When a write fails -/

theorem within_eq_error_iff {key : κ} {change : Block κ α → Clash κ (Block κ α)} {b : Block κ α}
    {e : List κ} :
    within key change b = .error e ↔
      e = [key] ∧ (∃ a, b.find? key = some (.value a)) ∨
        (∀ a, b.find? key ≠ some (.value a)) ∧
          ∃ e', change (b.bodyAt key) = .error e' ∧ e = key :: e' := by
  rw [within_eq]
  rcases hfind : b.find? key with _ | a | _
  · cases hbody : change (b.bodyAt key) <;> simp [eq_comm]
  · simp [eq_comm]
  · cases hbody : change (b.bodyAt key) <;> simp [eq_comm]

/-- A write fails exactly if it meets a value on its path, or is to put a value where a block
stands. The clash is at that place. -/
theorem put_eq_error_iff {w : Write κ α} {b : Block κ α} {e : List κ} :
    b.put w = .error e ↔
      (∃ a, b.at? e = some (.value a)) ∧ e <+: w.path ∨ w.Assigns e ∧ b.HasBlock e := by
  induction w using Write.path_induction generalizing b e with
  | here key value? =>
    cases value? with
    | none =>
      rcases e with _ | ⟨k, e⟩ <;> simp [put_here_none, Write.Assigns]
    | some a =>
      rw [put_here_some, assign_eq_error_iff]
      have hplace : (Write.mk [] key (some a)).Assigns e ↔ e = [key] := by
        simp [Write.Assigns, Write.place, eq_comm]
      rw [hplace]
      constructor
      · rintro ⟨rfl, body, hbody⟩
        exact .inr ⟨rfl, body, hbody⟩
      · rintro (⟨⟨a, ha⟩, he⟩ | ⟨rfl, body, hbody⟩)
        · simp [List.prefix_nil.1 he] at ha
        · exact ⟨rfl, body, hbody⟩
  | under key w ih =>
    rw [put_under, within_eq_error_iff]
    rcases e with _ | ⟨k, e⟩
    · simp [Write.Assigns]
    · by_cases hk : key = k
      · subst hk
        rw [Write.assigns_under_cons, Write.path_under, List.cons_prefix_cons]
        by_cases hvalue : ∃ a, b.find? key = some (.value a)
        · obtain ⟨a, ha⟩ := hvalue
          cases e <;> simp [ha, HasBlock, at?_cons]
        · have hfind : ∀ a, b.find? key ≠ some (.value a) := fun a ha => hvalue ⟨a, ha⟩
          have hvalues : (∃ a, (b.bodyAt key).at? e = some (.value a)) ↔
              ∃ a, b.at? (key :: e) = some (.value a) :=
            exists_congr fun a => at?_bodyAt_eq_value_iff hfind e a
          have hblock : w.Assigns e → ((b.bodyAt key).HasBlock e ↔ b.HasBlock (key :: e)) := by
            rintro ⟨-, rfl⟩
            rw [hasBlock_bodyAt_iff, or_iff_right w.place_ne_nil]
          simp only [hvalue, and_false, false_or, List.cons.injEq, true_and, exists_eq_right', ih,
            hvalues, and_congr_right_iff.2 hblock]
          simp [hfind]
      · simp [Write.assigns_under_cons, List.cons_prefix_cons, hk, Ne.symm hk]

end Stylesheet.Block
