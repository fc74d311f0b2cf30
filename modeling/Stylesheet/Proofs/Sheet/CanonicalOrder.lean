import Mathlib.Data.List.Perm.Subperm
import Stylesheet.Proofs.Block.SameContents
import Stylesheet.Proofs.Sheet.SortedValue

/-!
# The order of a sorted sheet

The mapping that a sheet is does not change if its entries change places.  Of all the sheets that
are one mapping, sorting picks the one whose keys stand in the order of their ranks at every level.

## Main definitions

* `Sheet.IsOrdering` — a sheet in order, and one that it is an ordering of.

## Main statements

* `Sheet.same_toValue_iff` — sheets are equal as mappings if they hold the same.
* `Sheet.isOrdering_sorted` — sorting gives the one ordering of a sheet.
-/

namespace Stylesheet

open Selector (rank)

/-- One mapping has its entries among those of another if every entry of it has an equal one. -/
theorem Value.entriesAmong_iff {entries entries' : List (Value × Value)} :
    entriesAmong entries entries' = true ↔ ∀ entry ∈ entries, ∃ entry' ∈ entries',
      entry.1.same entry'.1 = true ∧ entry.2.same entry'.2 = true := by
  induction entries with
  | nil => simp [entriesAmong]
  | cons entry rest ih => simp [entriesAmong, ih]

namespace Block

/-! ## The mapping that a block is -/

/-- An item of a sheet as a value. -/
def Item.toValue : Item String String → Value
  | value s => .text s
  | block body => Sheet.toValue body

variable {b b' : Block String String}

theorem entries_entry (key : String) (item : Item String String) (rest : Block String String) :
    entries .text .text (item.entry key rest) =
      (.text key, item.toValue) :: entries .text .text rest := by
  cases item <;> rfl

theorem length_entries (b : Block String String) :
    (entries .text .text b).length = b.keys.length := by
  induction b using entry_induction with
  | empty => rfl
  | entry key item rest ih => rw [entries_entry, keys_entry, List.length_cons, List.length_cons, ih]

/-- The entries of the mapping that a block is are its items, if no key is used twice. -/
theorem mem_entries_iff (h : b.keys.Nodup) {entry : Value × Value} :
    entry ∈ entries .text .text b ↔
      ∃ key item, b.find? key = some item ∧ entry = (.text key, item.toValue) := by
  induction b using entry_induction with
  | empty => simp [entries]
  | entry k item' rest ih =>
    rw [keys_entry, List.nodup_cons] at h
    rw [entries_entry, List.mem_cons, ih h.2]
    constructor
    · rintro (rfl | ⟨key, item, hfind, rfl⟩)
      · exact ⟨k, item', by simp, rfl⟩
      · have hne : k ≠ key := by
          rintro rfl
          rw [find?_eq_none_iff.2 h.1] at hfind
          cases hfind
        exact ⟨key, item, by simp [hne, hfind], rfl⟩
    · rintro ⟨key, item, hfind, rfl⟩
      rw [find?_entry] at hfind
      split at hfind
      · next hkey =>
        obtain rfl := hkey
        obtain rfl := Option.some.inj hfind
        exact .inl rfl
      · exact .inr ⟨key, item, hfind, rfl⟩

/-- The mapping that a block is has its entries among those of another if every item of the block
has an equal one under the same key. -/
theorem entriesAmong_entries_iff (h : b.keys.Nodup) (h' : b'.keys.Nodup) :
    Value.entriesAmong (entries .text .text b) (entries .text .text b') = true ↔
      ∀ key item, b.find? key = some item →
        ∃ item', b'.find? key = some item' ∧ item.toValue.same item'.toValue = true := by
  rw [Value.entriesAmong_iff]
  constructor
  · intro hamong key item hfind
    obtain ⟨_, hentry', hkey, hitem⟩ :=
      hamong _ ((mem_entries_iff h).2 ⟨key, item, hfind, rfl⟩)
    obtain ⟨key', item', hfind', rfl⟩ := (mem_entries_iff h').1 hentry'
    obtain rfl : key = key' := by simpa [Value.same] using hkey
    exact ⟨item', hfind', hitem⟩
  · intro hfind entry hentry
    obtain ⟨key, item, hitem, rfl⟩ := (mem_entries_iff h).1 hentry
    obtain ⟨item', hitem', hsame⟩ := hfind key item hitem
    refine ⟨_, (mem_entries_iff h').2 ⟨key, item', hitem', rfl⟩, ?_, hsame⟩
    simp [Value.same]

/-- As many distinct keys as there are in another block, and all of them in it, leave none over. -/
theorem keys_perm_of_find? (h : b.keys.Nodup) (hlength : b.keys.length = b'.keys.length)
    (hfind : ∀ key item, b.find? key = some item → ∃ item', b'.find? key = some item') :
    b.keys.Perm b'.keys := by
  have hsubset : b.keys ⊆ b'.keys := by
    intro key hkey
    by_contra hnew
    have hitem : b.find? key ≠ none := fun hnone => find?_eq_none_iff.1 hnone hkey
    obtain ⟨item, hitem⟩ := Option.ne_none_iff_exists'.1 hitem
    obtain ⟨item', hitem'⟩ := hfind key item hitem
    rw [find?_eq_none_iff.2 hnew] at hitem'
    cases hitem'
  exact (List.Nodup.subperm h hsubset).perm_of_length_le (Nat.le_of_eq hlength.symm)

/-- Items that are the same value, or blocks that hold the same. -/
inductive Item.SameContents : Item String String → Item String String → Prop
  | value (s : String) : SameContents (.value s) (.value s)
  | block {body body' : Block String String} (h : body.SameContents body') :
      SameContents (.block body) (.block body')

/-- Blocks that hold the same do so under every key. -/
theorem SameContents.exists_item (h : b.SameContents b') {key : String} {item : Item String String}
    (hfind : b.find? key = some item) :
    ∃ item', b'.find? key = some item' ∧ item.SameContents item' := by
  cases item with
  | value s => exact ⟨.value s, (h.value_iff [key] s).1 hfind, .value s⟩
  | block body =>
    obtain ⟨body', hfind', hbody⟩ := h.exists_block hfind
    exact ⟨.block body', hfind', .block hbody⟩

/-- Blocks hold the same if they do so under every key. -/
theorem sameContents_of_find?
    (h : ∀ key, Option.Rel Item.SameContents (b.find? key) (b'.find? key)) :
    SameContents b b' where
  value_iff p a := by
    cases p with
    | nil => simp
    | cons key p =>
      have hkey := h key
      rw [at?_cons, at?_cons]
      generalize b.find? key = found, b'.find? key = found' at hkey
      obtain ⟨_ | hbody⟩ | _ := hkey
      · rfl
      · exact hbody.value_iff p a
      · rfl
  block_iff p := by
    cases p with
    | nil => simp
    | cons key p =>
      have hkey := h key
      rw [HasBlock, HasBlock, at?_cons, at?_cons]
      generalize b.find? key = found, b'.find? key = found' at hkey
      obtain ⟨_ | hbody⟩ | _ := hkey
      · rfl
      · exact hbody.block_iff p
      · rfl

end Block

namespace Sheet

open Block (Item)

/-- Items of a sheet are equal as values if they are the same value, or blocks that are. -/
theorem same_item_toValue_iff {item item' : Item String String}
    (hblock : ∀ body body', item = .block body → item' = .block body' →
      ((toValue body).same (toValue body') = true ↔ body.SameContents body')) :
    item.toValue.same item'.toValue = true ↔ item.SameContents item' := by
  cases item with
  | value s => cases item' with
    | value s' =>
      rw [Item.toValue, Item.toValue, Value.same, beq_iff_eq]
      exact ⟨fun h => h ▸ .value s, fun h => by cases h; rfl⟩
    | block body' => exact ⟨nofun, nofun⟩
  | block body => cases item' with
    | value s' => exact ⟨nofun, nofun⟩
    | block body' =>
      rw [Item.toValue, Item.toValue, hblock body body' rfl rfl]
      exact ⟨.block, fun h => by cases h; assumption⟩

/-- Sheets whose keys are distinct are equal as mappings if they hold the same. -/
theorem same_toValue_iff {sheet sheet' : Sheet} (h : sheet.HasDistinctKeys)
    (h' : sheet'.HasDistinctKeys) :
    sheet.toValue.same sheet'.toValue = true ↔ sheet.SameContents sheet' := by
  induction sheet using Block.nested_induction generalizing sheet' with
  | nested sheet ih =>
    have hitems : ∀ key item item', sheet.find? key = some item → sheet'.find? key = some item' →
        (item.toValue.same item'.toValue = true ↔ item.SameContents item') := by
      intro key item item' hfind hfind'
      refine same_item_toValue_iff fun body body' hbody hbody' => ?_
      subst hbody hbody'
      exact ih key body hfind (h.of_find? hfind) (h'.of_find? hfind')
    simp only [toValue, Value.same, Bool.and_eq_true, beq_iff_eq, Block.length_entries,
      Block.entriesAmong_entries_iff h.nodup h'.nodup]
    constructor
    · rintro ⟨hlength, hamong⟩
      have hperm : sheet.keys.Perm sheet'.keys :=
        Block.keys_perm_of_find? h.nodup hlength fun key item hfind =>
          (hamong key item hfind).imp fun _ hitem' => hitem'.1
      refine Block.sameContents_of_find? fun key => ?_
      rcases hfind : sheet.find? key with _ | item
      · have hnew : key ∉ sheet'.keys := mt hperm.mem_iff.2 (Block.find?_eq_none_iff.1 hfind)
        rw [Block.find?_eq_none_iff.2 hnew]
        exact .none
      · obtain ⟨item', hfind', hsame⟩ := hamong key item hfind
        rw [hfind']
        exact .some ((hitems key item item' hfind hfind').1 hsame)
    · intro hcontents
      have hmem : ∀ key, key ∈ sheet.keys ↔ key ∈ sheet'.keys :=
        fun key => ⟨hcontents.mem_keys, hcontents.symm.mem_keys⟩
      refine ⟨((List.perm_ext_iff_of_nodup h.nodup h'.nodup).2 hmem).length_eq, ?_⟩
      intro key item hfind
      obtain ⟨item', hfind', hsame⟩ := hcontents.exists_item hfind
      exact ⟨item', hfind', (hitems key item item' hfind hfind').2 hsame⟩

/-! ## The ordering -/

/-- An ordering of a sheet: the same mapping, with the keys of every block in the order of their
ranks. -/
structure IsOrdering (ordered sheet : Sheet) : Prop where
  same : sheet.toValue.same ordered.toValue = true
  /-- The same texts and blocks stand at the same places. -/
  contents : sheet.SameContents ordered
  /-- No block loses a key, and none comes in. -/
  keys_perm : ∀ p, (ordered.keysAt p).Perm (sheet.keysAt p)
  increasing : ∀ p, (ordered.keysAt p).Pairwise (rank · < rank ·)

theorem keysAt_sorted_perm (sheet : Sheet) (p : List String) :
    (sheet.sorted.keysAt p).Perm (sheet.keysAt p) := by
  rw [Block.keysAt, Block.keysAt, Block.at?_sorted]
  rcases sheet.at? p with _ | _ | body
  · exact .nil
  · exact .nil
  · exact Block.keys_sorted_perm body

/-- Distinct keys have different ranks, so the ranks in a sorted sheet increase. -/
theorem keysAt_sorted_increasing {sheet : Sheet} (h : sheet.HasDistinctKeys) (p : List String) :
    (sheet.sorted.keysAt p).Pairwise (rank · < rank ·) := by
  have hnodup : (sheet.sorted.keysAt p).Nodup := h.sorted p
  have hle : (sheet.sorted.keysAt p).Pairwise (rank · ≤ rank ·) := by
    rw [Block.keysAt, Block.at?_sorted]
    rcases sheet.at? p with _ | _ | body
    · exact .nil
    · exact .nil
    · exact (Block.isSorted_sorted body).keys_pairwise
  refine (hle.and hnodup).imp fun {key key'} hkeys => ?_
  by_contra hlt
  exact hkeys.2 (Selector.rank_injective (String.le_antisymm hkeys.1 (String.not_lt.1 hlt)))

/-- Sorting gives an ordering of a sheet, and leaves an ordering alone.  Two sheets are sorted into
one if they are equal as mappings, and only then. -/
theorem isOrdering_sorted {sheet sheet' : Sheet} (h : sheet.HasDistinctKeys)
    (h' : sheet'.HasDistinctKeys) :
    Untyped.sorted sheet.toValue = .ok (toValue sheet.sorted) ∧
      IsOrdering sheet.sorted sheet ∧
      Untyped.sorted (toValue sheet.sorted) = .ok (toValue sheet.sorted) ∧
      (sheet.sorted = sheet'.sorted ↔ sheet.toValue.same sheet'.toValue = true) := by
  have hcontents : sheet.SameContents sheet.sorted := Block.sameContents_sorted sheet
  have hordering : IsOrdering sheet.sorted sheet :=
    ⟨(same_toValue_iff h h.sorted).2 hcontents, hcontents, keysAt_sorted_perm sheet,
      keysAt_sorted_increasing h⟩
  refine ⟨Untyped.sorted_toValue sheet, hordering, ?_, ?_⟩
  · rw [Untyped.sorted_toValue, Block.sorted_of_isSorted (Block.isSorted_sorted sheet)]
  · rw [same_toValue_iff h h']
    refine ⟨fun heq => ?_, Block.sorted_eq_sorted h h'⟩
    exact (heq ▸ hcontents).trans (Block.sameContents_sorted sheet').symm

/-- A sheet with keys of all weights, and a block that nothing is declared in. -/
def mixedSheet : Sheet :=
  .nest "@media print" (.declare "top" "0" (.nest "" .empty (.nest "*" .empty .empty)))
    (.declare "color" "red" (.nest ".b" .empty (.nest "#c" .empty .empty)))

/-- The entries of `mixedSheet` in another order. -/
def shuffledSheet : Sheet :=
  .nest "#c" .empty (.nest ".b" .empty (.declare "color" "red"
    (.nest "@media print" (.nest "*" .empty (.declare "top" "0" (.nest "" .empty .empty))) .empty)))

theorem isOrdering_mixedSheet :
    IsOrdering mixedSheet.sorted mixedSheet ∧ mixedSheet.sorted = shuffledSheet.sorted ∧
      Untyped.sorted shuffledSheet.toValue = .ok (toValue mixedSheet.sorted) ∧
      mixedSheet.sorted.keys = ["color", "#c", ".b", "@media print"] ∧
      mixedSheet.sorted.keysAt ["@media print"] = ["", "*", "top"] := by
  have hmixed : Block.ofWrites [⟨["@media print"], "top", some "0"⟩,
      ⟨["@media print", ""], "", none⟩, ⟨["@media print", "*"], "", none⟩,
      ⟨[], "color", some "red"⟩, ⟨[".b"], "", none⟩, ⟨["#c"], "", none⟩] = .ok mixedSheet := by
    decide +kernel
  have hshuffled : Block.ofWrites [⟨["#c"], "", none⟩, ⟨[".b"], "", none⟩,
      ⟨[], "color", some "red"⟩, ⟨["@media print", "*"], "", none⟩,
      ⟨["@media print"], "top", some "0"⟩, ⟨["@media print", ""], "", none⟩] =
        .ok shuffledSheet := by
    decide +kernel
  obtain ⟨-, hordering, -, hiff⟩ := isOrdering_sorted (Block.hasDistinctKeys_ofWrites hmixed)
    (Block.hasDistinctKeys_ofWrites hshuffled)
  have hsorted : mixedSheet.sorted = shuffledSheet.sorted := hiff.2 (by decide +kernel)
  refine ⟨hordering, hsorted, ?_, by decide +kernel, by decide +kernel⟩
  rw [Untyped.sorted_toValue, hsorted]

end Sheet

end Stylesheet
