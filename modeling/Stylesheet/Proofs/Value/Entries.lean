import Stylesheet.Value.Equality

/-!
# Putting entries into mappings

An entry that is put into a mapping replaces the value under its key or, if the key is a new one,
comes last.  Under keys that are texts, entries are put one over the other: only the last value
counts, and a key that is there can be given its value at any time.

## Main definitions

* `Value.HasDistinctKeys` — entries of which no key is equal to an earlier one.

## Main statements

* `Value.field?_putEntry`, `Value.filter_putEntry` — what an entry under a text changes.
* `Value.putEntry_putEntry`, `Value.putEntry_comm` — two entries, one after the other.
* `Value.putEntries_eq_append` — entries under new keys.
-/

namespace Stylesheet.Value

variable {entries others : List (Value × Value)} {key value value' : Value} {name name' : String}

/-- Entries of which no key is equal to an earlier one. -/
def HasDistinctKeys (entries : List (Value × Value)) : Prop :=
  entries.Pairwise fun entry entry' => entry.1.same entry'.1 = false

/-! ## Keys that are texts -/

/-- A text is equal only to itself. -/
@[simp] theorem same_text_iff : key.same (text name) = true ↔ key = text name := by
  cases key with
  | float x => cases x <;> simp [same, sameFloat]
  | none | bool | int | text | bytes | seq | mapping | set | symbol | stream | deferred | method =>
    simp [same, sameInt]

@[simp] theorem text_same_iff : (text name).same key = true ↔ key = text name := by
  cases key with
  | text name' => rw [same, beq_iff_eq, text.injEq, eq_comm]
  | none | bool | int | float | bytes | seq | mapping | set | symbol | stream | deferred | method =>
    simp [same]

theorem field?_cons (entry : Value × Value) (rest : List (Value × Value)) (name : String) :
    field? (entry :: rest) name =
      if entry.1.same (text name) then some entry.2 else field? rest name := by
  rw [field?, lookup?, List.find?_cons]
  split <;> simp_all [field?, lookup?]

theorem putEntry_cons (entry : Value × Value) (rest : List (Value × Value)) (key value : Value) :
    putEntry (entry :: rest) key value =
      if entry.1.same key then (entry.1, value) :: rest else entry :: putEntry rest key value := rfl

/-- Putting in an entry changes what is under its key. -/
theorem field?_putEntry (entries : List (Value × Value)) (name : String) (value : Value)
    (name' : String) :
    field? (putEntry entries (text name) value) name' =
      if name = name' then some value else field? entries name' := by
  induction entries with
  | nil => by_cases hname : name = name' <;> simp [putEntry, hname, field?, lookup?]
  | cons entry rest ih =>
    rw [putEntry_cons]
    by_cases hkey : entry.1 = text name
    · rw [if_pos (same_text_iff.2 hkey), field?_cons, field?_cons, hkey]
      by_cases hname : name = name' <;> simp [hname]
    · rw [if_neg (mt same_text_iff.1 hkey), field?_cons, field?_cons, ih]
      by_cases hname : name = name'
      · subst hname
        rw [if_neg (mt same_text_iff.1 hkey), if_pos rfl, if_pos rfl]
      · rw [if_neg hname, if_neg hname]

/-- Putting in an entry adds it to the entries of some sort, or leaves them alone. -/
theorem filter_putEntry (entries : List (Value × Value)) (name : String) (value : Value)
    (sort : Value → Bool) :
    (putEntry entries (text name) value).filter (fun entry => sort entry.1) =
      if sort (text name) then
        putEntry (entries.filter fun entry => sort entry.1) (text name) value
      else entries.filter fun entry => sort entry.1 := by
  induction entries with
  | nil => cases hsort : sort (text name) <;> simp [putEntry, hsort]
  | cons entry rest ih =>
    rw [putEntry_cons]
    by_cases hkey : entry.1 = text name
    · cases hsort : sort (text name) <;> simp [hkey, hsort, putEntry_cons]
    · rw [if_neg (mt same_text_iff.1 hkey), List.filter_cons, ih, List.filter_cons]
      by_cases hentry : sort entry.1 = true
      · cases hsort : sort (text name) <;> simp [hentry, putEntry_cons, hkey]
      · simp [hentry]

/-- A later entry under the same key takes the place of an earlier one. -/
theorem putEntry_putEntry (entries : List (Value × Value)) (name : String) (value value' : Value) :
    putEntry (putEntry entries (text name) value) (text name) value' =
      putEntry entries (text name) value' := by
  induction entries with
  | nil => simp [putEntry]
  | cons entry rest ih =>
    by_cases hkey : entry.1.same (text name) = true
    · simp [putEntry_cons, hkey]
    · simp [putEntry_cons, hkey, ih]

/-- A key that is there keeps its place, so its value may be put in before that of another key. -/
theorem putEntry_comm (hname : name ≠ name') (h : field? entries name ≠ Option.none)
    (value value' : Value) :
    putEntry (putEntry entries (text name') value') (text name) value =
      putEntry (putEntry entries (text name) value) (text name') value' := by
  induction entries with
  | nil => exact absurd rfl h
  | cons entry rest ih =>
    rw [field?_cons] at h
    by_cases hkey : entry.1 = text name
    · simp [putEntry_cons, hkey, hname]
    · rw [if_neg (mt same_text_iff.1 hkey)] at h
      by_cases hkey' : entry.1 = text name'
      · have hne : text name' ≠ text name := hkey' ▸ hkey
        simp [putEntry_cons, hkey', hne]
      · simp [putEntry_cons, hkey, hkey', ih h]

/-! ## Distinct keys -/

/-- An entry under a new key comes last. -/
theorem putEntry_of_new (h : ∀ entry ∈ entries, entry.1.same key = false) (value : Value) :
    putEntry entries key value = entries ++ [(key, value)] := by
  induction entries with
  | nil => rfl
  | cons entry rest ih =>
    obtain ⟨hentry, hrest⟩ := List.forall_mem_cons.1 h
    rw [putEntry_cons, hentry, ih hrest]
    rfl

theorem mem_keys_putEntry {entry : Value × Value} (h : entry ∈ putEntry entries key value) :
    entry.1 = key ∨ ∃ entry' ∈ entries, entry'.1 = entry.1 := by
  induction entries with
  | nil => exact .inl (congrArg Prod.fst (List.mem_singleton.1 h))
  | cons entry' rest ih =>
    rw [putEntry_cons] at h
    split at h
    · rcases List.mem_cons.1 h with rfl | h
      · exact .inr ⟨entry', List.mem_cons_self, rfl⟩
      · exact .inr ⟨entry, List.mem_cons_of_mem _ h, rfl⟩
    · rcases List.mem_cons.1 h with rfl | h
      · exact .inr ⟨entry, List.mem_cons_self, rfl⟩
      · refine (ih h).imp_right fun ⟨other, hother, hkey⟩ => ?_
        exact ⟨other, List.mem_cons_of_mem _ hother, hkey⟩

theorem HasDistinctKeys.putEntry (h : HasDistinctKeys entries) (key value : Value) :
    HasDistinctKeys (putEntry entries key value) := by
  induction entries with
  | nil => exact List.pairwise_singleton _ _
  | cons entry rest ih =>
    obtain ⟨hentry, hrest⟩ := List.pairwise_cons.1 h
    rw [putEntry_cons]
    split
    · exact List.pairwise_cons.2 ⟨hentry, hrest⟩
    · next hkey =>
      refine List.pairwise_cons.2 ⟨fun entry' hentry' => ?_, ih hrest⟩
      rcases mem_keys_putEntry hentry' with hkey' | ⟨other, hother, hkey'⟩
      · rw [hkey']
        exact Bool.eq_false_iff.2 hkey
      · rw [← hkey']
        exact hentry other hother

theorem HasDistinctKeys.putEntries (h : HasDistinctKeys entries)
    (others : List (Value × Value)) : HasDistinctKeys (putEntries entries others) := by
  induction others generalizing entries with
  | nil => exact h
  | cons entry rest ih => exact ih (h.putEntry entry.1 entry.2)

/-- Entries under new keys come behind the others. -/
theorem putEntries_eq_append (h : HasDistinctKeys (entries ++ others)) :
    putEntries entries others = entries ++ others := by
  induction others generalizing entries with
  | nil => simp [putEntries]
  | cons entry rest ih =>
    have hnew : ∀ entry' ∈ entries, entry'.1.same entry.1 = false :=
      fun entry' hentry' => (List.pairwise_append.1 h).2.2 entry' hentry' entry List.mem_cons_self
    have hput : putEntries entries (entry :: rest) = putEntries (entries ++ [entry]) rest := by
      rw [putEntries, List.foldl_cons, putEntry_of_new hnew]
      rfl
    rw [hput, ih (by simpa using h), List.append_assoc, List.singleton_append]

end Stylesheet.Value
