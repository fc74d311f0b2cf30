import Stylesheet.Proofs.Selector.Recompose

/-!
# Empty fragments

The empty fragment stands for the parent, so that a path with it should be composed to the same
selectors as the path without it.  This is so before an at-rule, at the end of a path and at the
front of a selector.  Between two fragments it is not: the empty fragment is a part like any other,
and what follows it is set apart from what stands before it.

## Main definitions

* `Selector.plain` — the fragments of a path that are no rules.
* `Selector.IsDetached` — fragments that an empty one before them sets apart.

## Main statements

* `Selector.mergeChars_insert_nil` — merging with an empty part between two others.
* `Selector.compose_insert_empty` — what an empty fragment changes.
-/

namespace Stylesheet.Selector

open Text (isBlank solid trim trimLeft trimRight)

/-- The fragments of a path that are no rules. -/
def plain (path : List String) : List String :=
  path.filter (!isRule ·)

/-- A fragment that an empty one before it sets apart from what stands before that one. -/
structure IsDetached (fragment : String) : Prop where
  /-- It does not hold the character that marks gaps. -/
  gap : Selector.gap ∉ fragment.toList
  /-- It is not blank. -/
  solid : Text.solid (withoutMark fragment.toList) ≠ []
  /-- If it is attached by `&`, it does not go on with `:`, which attaches it as well. -/
  pseudo : fragment.toList.head? = some '&' →
    (Text.solid (withoutMark fragment.toList)).head? ≠ some ':'

/-! ## Paths with an empty fragment -/

theorem queries_insert_empty (before after : List String) :
    queries (before ++ "" :: after) = queries (before ++ after) := by
  simp [queries, isMedia]

theorem atRules_insert_empty (before after : List String) :
    atRules (before ++ "" :: after) = atRules (before ++ after) := by
  simp [atRules, isAtRule, isRule]

/-- What stands before a path with an at-rule does not matter for the ending. -/
theorem ending_append_of_exists {after : List String} (h : ∃ a ∈ after, isAtRule a = true)
    (before before' : List String) : ending (before ++ after) = ending (before' ++ after) := by
  obtain ⟨a, ha, hat⟩ := h
  obtain ⟨first, rest, rfl⟩ := List.append_of_mem ha
  rw [← List.append_assoc, ← List.append_assoc]
  exact ending_append_of_isAtRule hat _ _ _

theorem ending_append {after : List String} (h : ∀ a ∈ after, isAtRule a = false)
    (before : List String) : ending (before ++ after) = ending before ++ plain after := by
  induction after using List.reverseRecOn with
  | nil => simp [plain]
  | append_singleton after s ih =>
    obtain ⟨hafter, hs⟩ := List.forall_mem_append.1 h
    rw [← List.append_assoc, ending_concat, if_neg (by simp [hs s]), ih hafter]
    by_cases hrule : isRule s = true <;> simp [plain, hrule]

theorem ending_insert_empty {after : List String} (h : ∀ a ∈ after, isAtRule a = false)
    (before : List String) :
    ending (before ++ "" :: after) = ending before ++ "" :: plain after := by
  have hall : ∀ a ∈ "" :: after, isAtRule a = false :=
    List.forall_mem_cons.2 ⟨by simp [isAtRule, isRule], h⟩
  rw [ending_append hall]
  simp [plain, isRule]

/-- Whether an empty fragment changes the selectors is a matter of the merged one. -/
theorem compose_insert_empty_of_merge {before after : List String}
    (h : merge (arranged (ending (before ++ "" :: after))) =
      merge (arranged (ending (before ++ after)))) :
    compose (before ++ "" :: after) = compose (before ++ after) := by
  rw [compose_eq_append, compose_eq_append, queries_insert_empty, atRules_insert_empty, mergedPart,
    h, mergedPart]

/-! ## Merging with an empty part -/

theorem head_gap_cons {mark c : Char} (hmark : gap ≠ mark) {cs : List Char}
    (h : (gap :: cs).head? = some c) : isBlank c = false ∧ c ≠ mark := by
  cases h
  exact ⟨isBlank_gap, hmark⟩

/-- Merging, told from the parts up to some place and those after it.  What comes after the place is
left to itself unless it starts with the mark that is attached last. -/
theorem mergeChars_append {parts : List (List Char)} (hparts : parts ≠ [])
    (others : List (List Char))
    (h : ∀ c, (attach '&' [] (others.flatMap (gap :: ·))).head? = some c →
      isBlank c = false ∧ c ≠ ':') :
    mergeChars (parts ++ others) =
      trim (spaced (attach ':' [':'] (attach '&' [] ([gap].intercalate parts))) ++
        spaced (attach ':' [':'] (attach '&' [] (others.flatMap (gap :: ·))))) := by
  have hgap : ∀ c, (others.flatMap (gap :: ·)).head? = some c → isBlank c = false ∧ c ≠ '&' := by
    intro c hc
    rw [head_flatMap_gap hc]
    exact ⟨isBlank_gap, by decide⟩
  have hcolon : ∀ c ∈ [':'], isBlank c = false := List.forall_mem_singleton.2 (by decide)
  rw [mergeChars_eq, intercalate_gap_append hparts,
    attach_append_of_head (List.forall_mem_nil _) hgap, attach_append_of_head hcolon h,
    spaced_append]

/-- An empty part at the end is trimmed. -/
theorem mergeChars_concat_nil (parts : List (List Char)) :
    mergeChars (parts ++ [[]]) = mergeChars parts := by
  by_cases hparts : parts = []
  · subst hparts
    rfl
  · rw [mergeChars_append hparts [[]] fun c => head_gap_cons (by decide)]
    exact Text.trim_concat_of_isBlank (by decide) _

/-- An empty part at the front is trimmed, if what comes after it is not attached to it. -/
theorem mergeChars_nil_cons {c : Char} (hc : c ∉ [gap, '&', ':']) (part : List Char)
    (parts : List (List Char)) :
    mergeChars ([] :: (c :: part) :: parts) = mergeChars ((c :: part) :: parts) := by
  simp only [List.mem_cons, List.not_mem_nil, or_false, not_or] at hc
  obtain ⟨hgap, hand, hcolon⟩ := hc
  have hjoined : [gap].intercalate ([] :: (c :: part) :: parts) =
      gap :: [gap].intercalate ((c :: part) :: parts) := by
    rw [intercalate_gap, intercalate_gap]
    simp
  have hspace : isBlank ' ' = true := by decide
  rw [mergeChars_eq, hjoined, mergeChars_eq, intercalate_gap, List.cons_append,
    attach_gap_of_ne (by simpa using hand), attach_cons_of_ne hgap,
    attach_gap_of_ne (by simpa using hcolon)]
  exact Text.trim_cons_of_isBlank hspace _

/-- What a detached part starts with once it is attached to the one before it. -/
theorem head_attach_of_isDetached {part : String} (h : IsDetached part) (parts : List (List Char))
    {c : Char}
    (hc : (attach '&' [] (gap :: (part.toList ++ parts.flatMap (gap :: ·)))).head? = some c) :
    isBlank c = false ∧ c ≠ ':' := by
  by_cases hmark : part.toList.head? = some '&'
  · obtain ⟨rest, hrest⟩ := List.head?_eq_some_iff.1 hmark
    have hgap : gap ∉ rest := fun hmem => h.gap (hrest ▸ List.mem_cons_of_mem _ hmem)
    have hsolid : solid rest ≠ [] := by simpa [hrest, withoutMark] using h.solid
    have hpseudo : (solid rest).head? ≠ some ':' := by
      simpa [hrest, withoutMark] using h.pseudo hmark
    rw [hrest, List.cons_append, attach_gap_of_mark, List.nil_append] at hc
    refine ⟨Text.head_dropWhile_isBlank hc, ?_⟩
    rintro rfl
    have hne : rest.dropWhile isBlank ≠ [] :=
      Text.ne_nil_of_solid ((Text.solid_dropWhile rest).symm ▸ hsolid)
    rw [attach_append hgap, Text.dropWhile_append_of_solid hsolid,
      List.head?_append_of_ne_nil _ hne, ← Text.head_solid] at hc
    exact hpseudo hc
  · rw [attach_gap_of_ne (head_append_flatMap_gap (by decide) hmark parts)] at hc
    exact head_gap_cons (by decide) hc

/-- Between a selector that is not empty and a detached part, an empty part adds a space. -/
theorem mergeChars_insert_nil {before : List (List Char)} (hbefore : mergeChars before ≠ [])
    {part : String} (h : IsDetached part) (parts : List (List Char)) :
    ∃ first last, first ≠ [] ∧ last ≠ [] ∧
      mergeChars (before ++ part.toList :: parts) = first ++ last ∧
      mergeChars (before ++ [] :: part.toList :: parts) = first ++ ' ' :: last := by
  have hnil : before ≠ [] := by
    rintro rfl
    exact hbefore rfl
  let first := spaced (attach ':' [':'] (attach '&' [] ([gap].intercalate before)))
  let attached := attach '&' [] (gap :: (part.toList ++ parts.flatMap (gap :: ·)))
  let last := spaced (attach ':' [':'] attached)
  have hhead : ∀ c, attached.head? = some c → isBlank c = false ∧ c ≠ ':' :=
    fun c hc => head_attach_of_isDetached h parts hc
  have hfirst : solid first ≠ [] := Text.solid_ne_nil_of_trim hbefore
  have hlast : solid last ≠ [] := by
    rw [solid_attach_self, solid_attach_part h.gap]
    exact List.append_ne_nil_of_left_ne_nil h.solid _
  -- The gap before the empty part is never closed: another gap comes after it.
  have hattached : attach '&' [] (gap :: gap :: (part.toList ++ parts.flatMap (gap :: ·))) =
      gap :: attached := attach_gap_of_ne (by simp [gap])
  have hspaced : spaced (attach ':' [':'] (gap :: attached)) = ' ' :: last := by
    rw [attach_gap_of_ne fun hc => (hhead _ hc).2 rfl]
    rfl
  refine ⟨trimLeft first, trimRight last, ?_, ?_, ?_, ?_⟩
  · exact Text.ne_nil_of_solid ((Text.solid_trimLeft first).symm ▸ hfirst)
  · exact Text.ne_nil_of_solid ((Text.solid_trimRight last).symm ▸ hlast)
  · exact (mergeChars_append hnil (part.toList :: parts) hhead).trans
      (Text.trim_append hfirst hlast)
  · have hgap : ∀ c, (gap :: attached).head? = some c → isBlank c = false ∧ c ≠ ':' :=
      fun c => head_gap_cons (by decide)
    calc mergeChars (before ++ [] :: part.toList :: parts)
        = trim (first ++ spaced (attach ':' [':'] (gap :: attached))) := by
          rw [← hattached] at hgap ⊢
          exact mergeChars_append hnil ([] :: part.toList :: parts) hgap
      _ = trim (first ++ ([' '] ++ last)) := by rw [hspaced, List.singleton_append]
      _ = trimLeft first ++ trimRight ([' '] ++ last) :=
          Text.trim_append hfirst
            (Text.solid_append .. ▸ List.append_ne_nil_of_right_ne_nil _ hlast)
      _ = trimLeft first ++ ' ' :: trimRight last := by
          rw [Text.trimRight_append [' '] hlast, List.singleton_append]

/-! ## What an empty fragment changes -/

/-- An empty fragment is a part like any other.  Marked fragments after it go before it, and not
before the last part that stands before it. -/
theorem arranged_insert_empty {after : List String} (h : ∀ a ∈ after, isAtRule a = false)
    (before : List String) :
    arranged (ending (before ++ "" :: after)) =
      arranged (ending before) ++ (((plain after).takeWhile isMarked).map unmarked ++
        "" :: arranged (plain after)) := by
  rw [ending_insert_empty h, arranged_append_of_unmarked (by decide),
    arranged_cons_of_unmarked (by decide)]

/-- The parts of two paths, one after the other, if no marked fragment comes first in the second
one. -/
theorem arranged_ending_append {after rest : List String} {fragment : String}
    (h : ∀ a ∈ after, isAtRule a = false) (hplain : plain after = fragment :: rest)
    (hmark : isMarked fragment = false) (before : List String) :
    arranged (ending (before ++ after)) = arranged (ending before) ++ arranged (plain after) ∧
      arranged (ending (before ++ "" :: after)) =
        arranged (ending before) ++ "" :: arranged (plain after) := by
  constructor
  · rw [ending_append h, hplain, arranged_append_of_unmarked hmark]
  · rw [arranged_insert_empty h, hplain, List.takeWhile_cons_of_neg (by simp [hmark])]
    rfl

theorem merge_eq_ofList (parts : List String) :
    merge parts = String.ofList (mergeChars (parts.map String.toList)) := rfl

/-- A path whose parts are merged to something has this as its last selector. -/
theorem compose_of_merge_ne {path : List String} (h : merge (arranged (ending path)) ≠ "") :
    compose path =
      mediaSelectors (queries path) ++ atRules path ++ [merge (arranged (ending path))] := by
  rw [compose_eq_append, mergedPart, List.filter_eq_self.2 (by simpa using h)]

/-- An empty fragment at the end of what is merged changes nothing. -/
theorem compose_insert_empty_of_rules {before after : List String}
    (h : (∃ a ∈ after, isAtRule a = true) ∨ ∀ a ∈ after, isRule a = true) :
    compose (before ++ "" :: after) = compose (before ++ after) := by
  refine compose_insert_empty_of_merge ?_
  by_cases hat : ∃ a ∈ after, isAtRule a = true
  · rw [← ending_append_of_exists hat (before ++ [""]) before, List.append_assoc,
      List.singleton_append]
  · have hrules : ∀ a ∈ after, isRule a = true := h.resolve_left hat
    have hnone : ∀ a ∈ after, isAtRule a = false := by simpa using hat
    have hplain : plain after = [] := by simpa [plain] using hrules
    rw [arranged_insert_empty hnone, ending_append hnone, hplain, List.append_nil]
    rw [merge_eq_ofList, merge_eq_ofList, List.map_append]
    exact congrArg String.ofList (mergeChars_concat_nil _)

/-- What an empty fragment changes.  It changes nothing before an at-rule, before nothing but rules,
and where no part stands before it, unless what follows would be attached to it.  Between a selector
and a fragment that would be attached to it or stand after it with a space, it adds a space. -/
theorem compose_insert_empty (before after : List String) :
    ((∃ a ∈ after, isAtRule a = true) ∨ (∀ a ∈ after, isRule a = true) →
      compose (before ++ "" :: after) = compose (before ++ after)) ∧
    ∀ fragment rest part parts, (∀ a ∈ after, isAtRule a = false) →
      plain after = fragment :: rest → isMarked fragment = false →
      arranged (plain after) = part :: parts →
      (arranged (ending before) = [] →
        (∃ c, part.toList.head? = some c ∧ c ∉ [gap, '&', ':']) →
        compose (before ++ "" :: after) = compose (before ++ after)) ∧
      (merge (arranged (ending before)) ≠ "" → IsDetached part →
        ∃ selectors first last, first ≠ "" ∧ last ≠ "" ∧
          compose (before ++ after) = selectors ++ [first ++ last] ∧
          compose (before ++ "" :: after) = selectors ++ [first ++ " " ++ last]) := by
  refine ⟨compose_insert_empty_of_rules, ?_⟩
  intro fragment rest part parts hat hplain hmark hparts
  obtain ⟨hwithout, hwith⟩ := arranged_ending_append hat hplain hmark before
  rw [hparts] at hwithout hwith
  constructor
  · rintro hbefore ⟨c, hc, hattached⟩
    obtain ⟨cs, hcs⟩ := List.head?_eq_some_iff.1 hc
    refine compose_insert_empty_of_merge ?_
    rw [hwith, hwithout, hbefore, List.nil_append, List.nil_append, merge_eq_ofList,
      merge_eq_ofList]
    simp only [List.map_cons, hcs, String.toList_empty]
    rw [mergeChars_nil_cons hattached]
  · intro hbefore hdetached
    have hchars : mergeChars ((arranged (ending before)).map String.toList) ≠ [] := by
      intro hnil
      exact hbefore (by rw [merge_eq_ofList, hnil])
    obtain ⟨first, last, hfirst, hlast, hjoined, hspaced⟩ :=
      mergeChars_insert_nil hchars hdetached (parts.map String.toList)
    have hmerged : merge (arranged (ending (before ++ after))) =
        String.ofList first ++ String.ofList last := by
      rw [hwithout, merge_eq_ofList, List.map_append, List.map_cons, hjoined, String.ofList_append]
    have hmerged' : merge (arranged (ending (before ++ "" :: after))) =
        String.ofList first ++ " " ++ String.ofList last := by
      rw [hwith, merge_eq_ofList, List.map_append, List.map_cons, List.map_cons,
        String.toList_empty, hspaced, String.append_assoc]
      simp
    refine ⟨mediaSelectors (queries (before ++ after)) ++ atRules (before ++ after),
      String.ofList first, String.ofList last, by simpa using hfirst, by simpa using hlast, ?_, ?_⟩
    · rw [compose_of_merge_ne (by simp [hmerged, hfirst]), hmerged]
    · rw [compose_of_merge_ne (by simp [hmerged', hfirst]), hmerged', queries_insert_empty,
        atRules_insert_empty]

theorem compose_insert_empty_attached :
    compose (["a"] ++ "" :: ["@media print"]) = compose (["a"] ++ ["@media print"]) ∧
      compose (["x&", "@media print"] ++ "" :: ["b", "y&"]) =
        compose (["x&", "@media print"] ++ ["b", "y&"]) ∧
      ∃ selectors first last, first ≠ "" ∧ last ≠ "" ∧
        compose (["a"] ++ ["&.b"]) = selectors ++ [first ++ last] ∧
        compose (["a"] ++ "" :: ["&.b"]) = selectors ++ [first ++ " " ++ last] :=
  have hmedia := compose_insert_empty ["a"] ["@media print"]
  have hfront := compose_insert_empty ["x&", "@media print"] ["b", "y&"]
  have hbetween := compose_insert_empty ["a"] ["&.b"]
  have hdetached : IsDetached "&.b" := ⟨by decide, by decide +kernel, by decide +kernel⟩
  ⟨hmedia.1 (.inr (by decide +kernel)),
    (hfront.2 "b" ["y&"] "y" ["b"] (by decide +kernel) (by decide +kernel) (by decide +kernel)
      (by decide +kernel)).1 (by decide +kernel) ⟨'y', by decide, by decide⟩,
    (hbetween.2 "&.b" [] "&.b" [] (by decide +kernel) (by decide +kernel) (by decide +kernel)
      (by decide +kernel)).2 (by decide +kernel) hdetached⟩

/-- An empty fragment is not the same as none. -/
theorem not_forall_compose_insert_empty :
    ¬ ∀ before after : List String, compose (before ++ [""] ++ after) = compose (before ++ after) :=
  fun h => absurd (h ["a"] ["&.b"]) (by decide +kernel)

end Stylesheet.Selector
