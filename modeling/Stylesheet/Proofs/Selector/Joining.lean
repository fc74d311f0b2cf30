import Stylesheet.Proofs.Selector.Fragment

/-!
# Joining fragments

A key holds fragments with commas between them.  White space around a fragment has no meaning, and
neither has a part that is nothing but white space.  So fragments can be joined to a key in many
ways, and whichever is taken, the key is taken apart into them again.

## Main definitions

* `Selector.IsFragment` — what a key that is not empty can be taken apart into.
* `Selector.Pads`, `Selector.Joins` — fragments as they stand between commas, and the keys in which
  they do.
* `Selector.IsSplitting` — to take keys apart is to undo the joining of fragments.

## Main statements

* `Selector.parts_append` — a key falls apart at every comma.
* `Selector.joins_fragments` — a key joins its fragments.
* `Selector.isSplitting_fragments` — the fragments of keys undo joining.
-/

namespace Stylesheet.Selector

open Text (IsTrimmed fields isBlank trim)

/-- What a key that is not empty can be taken apart into: a key that is trimmed, has no commas, and
is not empty itself. -/
structure IsFragment (fragment : String) : Prop where
  isClean : IsClean fragment
  ne_empty : fragment ≠ ""

/-- Whether a text is nothing but white space, or empty. -/
def IsSpace (s : String) : Prop :=
  ∀ c ∈ s.toList, isBlank c = true

/-- Fragments as they stand between commas: each has white space around it, and there may be parts
among them that are nothing but white space. -/
inductive Pads : List String → List String → Prop where
  | nil : Pads [] []
  | space {part : String} {parts fragments : List String} (hpart : IsSpace part)
      (hrest : Pads parts fragments) : Pads (part :: parts) fragments
  | fragment {before fragment after : String} {parts fragments : List String}
      (hbefore : IsSpace before) (hafter : IsSpace after) (hrest : Pads parts fragments) :
      Pads ((before ++ fragment ++ after) :: parts) (fragment :: fragments)

/-- The keys in which fragments stand between commas. -/
def Joins (key : String) (fragments : List String) : Prop :=
  ∃ parts, Pads parts fragments ∧ key = ",".intercalate parts

/-! ## The parts of a key -/

/-- The parts of a key between commas, trimmed, without blank ones. -/
def parts (key : List Char) : List (List Char) :=
  ((fields ',' key).map trim).filter (· ≠ [])

theorem fragments_of_ne {key : String} (h : key ≠ "") :
    fragments key = (parts key.toList).map String.ofList :=
  if_neg h

@[simp] theorem parts_nil : parts [] = [] := by
  simp [parts, trim, Text.trimLeft, Text.trimRight]

/-- A key falls apart at every comma.  Everything about joined keys follows from this. -/
theorem parts_append (before after : List Char) :
    parts (before ++ ',' :: after) = parts before ++ parts after := by
  simp [parts, Text.fields_append]

/-- The parts of joined texts are the parts of all of them. -/
theorem parts_intercalate (texts : List (List Char)) :
    parts ([','].intercalate texts) = texts.flatMap parts := by
  induction texts with
  | nil => simp
  | cons text rest ih =>
    cases rest with
    | nil => simp
    | cons next rest =>
      rw [List.intercalate_cons_cons, List.append_assoc, List.singleton_append, parts_append, ih]
      rfl

theorem comma_notMem_of_blank {cs : List Char} (h : ∀ c ∈ cs, isBlank c = true) : ',' ∉ cs :=
  fun hcomma => absurd (h ',' hcomma) (by decide)

theorem parts_of_blank {cs : List Char} (h : ∀ c ∈ cs, isBlank c = true) : parts cs = [] := by
  have htrim : trim cs = [] := by
    have hpadded := Text.trim_append_between h (List.forall_mem_nil _) []
    rwa [List.append_nil, List.append_nil] at hpadded
  rw [parts, Text.fields_eq_of_notMem (comma_notMem_of_blank h)]
  simp [htrim]

/-- A fragment with white space around it is the only part. -/
theorem parts_of_isFragment {fragment : String} (h : IsFragment fragment)
    {before after : List Char} (hbefore : ∀ c ∈ before, isBlank c = true)
    (hafter : ∀ c ∈ after, isBlank c = true) :
    parts (before ++ fragment.toList ++ after) = [fragment.toList] := by
  have hcomma : ',' ∉ before ++ fragment.toList ++ after := by
    simp [comma_notMem_of_blank hbefore, comma_notMem_of_blank hafter, h.isClean.comma]
  have htrim : trim (before ++ fragment.toList ++ after) = fragment.toList := by
    rw [Text.trim_append_between hbefore hafter, Text.trim_eq_of_isTrimmed h.isClean.trimmed]
  rw [parts, Text.fields_eq_of_notMem hcomma, List.map_singleton, htrim]
  simp [h.ne_empty]

/-! ## Taking joined keys apart -/

/-- White space leaves no trace in the parts. -/
theorem flatMap_parts_of_pads {texts fragments : List String} (hpads : Pads texts fragments)
    (h : ∀ fragment ∈ fragments, IsFragment fragment) :
    (texts.map String.toList).flatMap parts = fragments.map String.toList := by
  induction hpads with
  | nil => rfl
  | space hpart _ ih => simpa [parts_of_blank hpart] using ih h
  | fragment hbefore hafter _ ih =>
    obtain ⟨hfragment, hrest⟩ := List.forall_mem_cons.1 h
    rw [List.map_cons, List.flatMap_cons, String.toList_append, String.toList_append,
      parts_of_isFragment hfragment hbefore hafter, ih hrest]
    rfl

theorem parts_of_joins {key : String} {fragments : List String} (hjoins : Joins key fragments)
    (h : ∀ fragment ∈ fragments, IsFragment fragment) :
    parts key.toList = fragments.map String.toList := by
  obtain ⟨texts, hpads, rfl⟩ := hjoins
  rw [← flatMap_parts_of_pads hpads h, String.toList_intercalate]
  exact parts_intercalate _

theorem fragments_of_joins {key : String} {texts : List String} (hkey : key ≠ "")
    (hjoins : Joins key texts) (h : ∀ fragment ∈ texts, IsFragment fragment) :
    fragments key = texts := by
  rw [fragments_of_ne hkey, parts_of_joins hjoins h, List.map_map]
  simp [Function.comp_def]

/-- Joining fragments gives a key that is not empty. -/
theorem ne_empty_of_joins {key : String} {fragments : List String} (hne : fragments ≠ [])
    (hjoins : Joins key fragments) (h : ∀ fragment ∈ fragments, IsFragment fragment) :
    key ≠ "" := by
  rintro rfl
  have hparts := parts_of_joins hjoins h
  exact hne (by simpa using hparts.symm)

/-! ## Keys as joined fragments -/

theorem isFragment_of_mem_fragments {key fragment : String} (hkey : key ≠ "")
    (h : fragment ∈ fragments key) : IsFragment fragment := by
  refine ⟨isClean_of_mem_fragments h, ?_⟩
  rw [fragments_of_ne hkey, List.mem_map] at h
  obtain ⟨part, hpart, rfl⟩ := h
  have hne : part ≠ [] := by simpa using (List.mem_filter.1 hpart).2
  simpa using hne

/-- Any texts without commas are fragments with white space around them. -/
theorem pads_trimmed (texts : List (List Char)) :
    Pads (texts.map String.ofList)
      (((texts.map trim).filter (· ≠ [])).map String.ofList) := by
  induction texts with
  | nil => exact .nil
  | cons text rest ih =>
    obtain ⟨before, after, hbefore, hafter, htext⟩ := Text.exists_eq_append_trim text
    by_cases htrim : trim text = []
    · have hspace : IsSpace (String.ofList text) := by
        rw [htext, htrim]
        intro c hc
        simp only [List.append_nil, String.toList_ofList, List.mem_append] at hc
        exact hc.elim (hbefore c) (hafter c)
      simpa [htrim] using Pads.space hspace ih
    · have hpadded : Pads ((String.ofList before ++ String.ofList (trim text) ++
          String.ofList after) :: rest.map String.ofList)
          (String.ofList (trim text) ::
            ((rest.map trim).filter (· ≠ [])).map String.ofList) :=
        .fragment (by simpa [IsSpace] using hbefore) (by simpa [IsSpace] using hafter) ih
      rw [← String.ofList_append, ← String.ofList_append, ← htext] at hpadded
      simpa [htrim] using hpadded

/-- A key that is not empty joins its fragments. -/
theorem joins_fragments {key : String} (hkey : key ≠ "") : Joins key (fragments key) := by
  refine ⟨(fields ',' key.toList).map String.ofList, ?_, ?_⟩
  · rw [fragments_of_ne hkey]
    exact pads_trimmed _
  · rw [← String.toList_inj, String.toList_intercalate, List.map_map]
    simp [Function.comp_def, Text.intercalate_fields]

/-- Fragments can stand between commas as they are. -/
theorem pads_self (fragments : List String) : Pads fragments fragments := by
  have hempty : IsSpace "" := by simp [IsSpace]
  induction fragments with
  | nil => exact .nil
  | cons fragment rest ih =>
    have hpadded : Pads (("" ++ fragment ++ "") :: rest) (fragment :: rest) :=
      .fragment hempty hempty ih
    simpa using hpadded

/-- To take keys apart is to undo the joining of fragments. -/
structure IsSplitting (split : String → List String) : Prop where
  /-- Fragments are found again, in whichever way they are joined. -/
  eq_of_joins : ∀ key fragments, fragments ≠ [] → (∀ fragment ∈ fragments, IsFragment fragment) →
    Joins key fragments → split key = fragments
  /-- Only fragments are found in a key that is not empty, -/
  isFragment : ∀ key, key ≠ "" → ∀ fragment ∈ split key, IsFragment fragment
  /-- and in each of them nothing but itself. -/
  singleton : ∀ key, key ≠ "" → ∀ fragment ∈ split key, split fragment = [fragment]
  /-- Such a key joins what is found in it. -/
  joins : ∀ key, key ≠ "" → Joins key (split key)
  /-- All lists of fragments are found in keys, the one without any included. -/
  exists_key : ∀ fragments, (∀ fragment ∈ fragments, IsFragment fragment) →
    ∃ key, key ≠ "" ∧ split key = fragments
  /-- A comma between two keys puts what is found in them side by side. -/
  append : ∀ before after, before ≠ "" → after ≠ "" →
    split (before ++ "," ++ after) = split before ++ split after
  /-- The empty key stands for itself, and no other key does for it. -/
  eq_singleton_empty_iff : ∀ key, split key = [""] ↔ key = ""

/-- The fragments of keys undo joining. -/
theorem isSplitting_fragments : IsSplitting fragments where
  eq_of_joins key texts hne h hjoins :=
    fragments_of_joins (ne_empty_of_joins hne hjoins h) hjoins h
  isFragment _ hkey _ h := isFragment_of_mem_fragments hkey h
  singleton _ hkey _ h := fragments_of_isClean (isFragment_of_mem_fragments hkey h).isClean
  joins _ hkey := joins_fragments hkey
  exists_key texts h := by
    by_cases hne : texts = []
    · exact ⟨",", by simp, by rw [hne]; decide⟩
    · have hjoins : Joins (",".intercalate texts) texts := ⟨texts, pads_self texts, rfl⟩
      have hkey := ne_empty_of_joins hne hjoins h
      exact ⟨_, hkey, fragments_of_joins hkey hjoins h⟩
  append before after hbefore hafter := by
    have hchars : (before ++ "," ++ after).toList = before.toList ++ ',' :: after.toList := by
      simp
    rw [fragments_of_ne (by simp), fragments_of_ne hbefore, fragments_of_ne hafter, hchars,
      parts_append, List.map_append]
  eq_singleton_empty_iff key := by
    refine ⟨fun h => ?_, fun h => by rw [h]; rfl⟩
    by_contra hkey
    have hmem : "" ∈ fragments key := by simp [h]
    exact (isFragment_of_mem_fragments hkey hmem).ne_empty rfl

/-- Blank parts between commas, of white space of any kind, are passed over. -/
example : fragments " \u3000,a > b\t, ,,\u00a0.c" = ["a > b", ".c"] := by decide +kernel

end Stylesheet.Selector
