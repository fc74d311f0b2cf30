import Stylesheet.Proofs.Selector.ClosedForm
import Stylesheet.Proofs.Selector.Fragment
import Stylesheet.Proofs.Selector.Merge

/-!
# Composing what is composed

The selectors that a path is composed to are fragments themselves.  As a path they are composed to
themselves, unless a fragment holds something that composing takes for what it is not: a mark that
comes to the end or the front of a selector only by composing it.

## Main definitions

* `Selector.Repeatable` — fragments without such marks.
* `Selector.IsPart` — what merging needs to know of a part.

## Main statements

* `Selector.isClean_of_mem_compose` — composed selectors are clean.
* `Selector.compose_compose` — composing is idempotent on repeatable fragments.
-/

namespace Stylesheet.Selector

open Text (IsTrimmed isBlank solid trim)

/-- A fragment of which nothing is taken for a mark once it is composed. -/
structure Repeatable (fragment : String) : Prop where
  /-- It does not hold the character that marks gaps. -/
  gap : gap ∉ fragment.toList
  /-- If it starts with `@media`, there is a query after that. -/
  query : isMedia fragment = true → trimmed (String.ofList (fragment.toList.drop 6)) ≠ ""
  /-- It does not start with `&`, optional white space and `@`. -/
  attached : fragment.toList.head? = some '&' →
    (fragment.toList.tail.dropWhile isBlank).head? ≠ some '@'
  /-- If it ends with `&`, it does not end with `&` without it. -/
  unmarked : isMarked fragment = true → isMarked (unmarked fragment) = false

instance (fragment : String) : Decidable (Repeatable fragment) :=
  decidable_of_iff
    (Selector.gap ∉ fragment.toList ∧
      (isMedia fragment = true → trimmed (String.ofList (fragment.toList.drop 6)) ≠ "") ∧
      (fragment.toList.head? = some '&' →
        (fragment.toList.tail.dropWhile isBlank).head? ≠ some '@') ∧
      (isMarked fragment = true → isMarked (Selector.unmarked fragment) = false))
    ⟨fun h => ⟨h.1, h.2.1, h.2.2.1, h.2.2.2⟩, fun h => ⟨h.1, h.2, h.3, h.4⟩⟩

/-- A part that merging neither makes into a rule nor into one that is marked. -/
structure IsPart (part : List Char) : Prop where
  gap : Selector.gap ∉ part
  comma : ',' ∉ part
  head : ¬ ['@'] <+: solid part
  attached : ¬ ['&', '@'] <+: solid part
  last : ¬ ['&'] <:+ solid part

/-! ## The parts of a path -/

theorem mem_ending {path : List String} {s : String} (h : s ∈ ending path) :
    s ∈ path ∧ isRule s = false := by
  obtain ⟨hmem, hrule⟩ := List.mem_filter.1 h
  exact ⟨(List.rtakeWhile_suffix _ path).subset hmem, by simpa using hrule⟩

/-- What is merged are unmarked fragments, and marked ones without their marks. -/
theorem mem_arranged {fragments : List String} {p : String} (h : p ∈ arranged fragments) :
    (p ∈ fragments ∧ isMarked p = false) ∨
      ∃ g ∈ fragments, isMarked g = true ∧ p = unmarked g := by
  induction fragments with
  | nil => simp at h
  | cons f rest ih =>
    by_cases hf : isMarked f = true
    · rw [arranged_cons_of_marked hf] at h
      rcases ih h with ⟨hp, hmark⟩ | ⟨g, hg, hmark, rfl⟩
      · exact .inl ⟨by simp [hp], hmark⟩
      · exact .inr ⟨g, by simp [hg], hmark, rfl⟩
    · rw [arranged_cons_of_unmarked (Bool.eq_false_iff.2 hf), List.mem_append, List.mem_cons,
        List.mem_map] at h
      rcases h with ⟨g, hg, rfl⟩ | rfl | h
      · exact .inr ⟨g, by simp [(List.takeWhile_subset _) hg], List.mem_takeWhile_imp hg, rfl⟩
      · exact .inl ⟨by simp, Bool.eq_false_iff.2 hf⟩
      · rcases ih h with ⟨hp, hmark⟩ | ⟨g, hg, hmark, rfl⟩
        · exact .inl ⟨by simp [hp], hmark⟩
        · exact .inr ⟨g, by simp [hg], hmark, rfl⟩

theorem not_attached_solid {fragment : String} (hclean : IsClean fragment)
    (h : Repeatable fragment) : ¬ ['&', '@'] <+: solid fragment.toList := by
  intro hprefix
  obtain ⟨rest, hrest⟩ : ∃ rest, fragment.toList = '&' :: rest := by
    refine List.head?_eq_some_iff.1 ?_
    rw [← Text.head_solid_of_isTrimmed hclean.trimmed]
    obtain ⟨after, hafter⟩ := hprefix
    simp [← hafter]
  refine h.attached (by simp [hrest]) ?_
  rw [← Text.head_solid, ← List.singleton_prefix_iff_head?_eq_some]
  have hmark : isBlank '&' = false := by decide
  simpa [hrest, solid, hmark, List.cons_prefix_cons] using hprefix

theorem not_rule_solid {fragment : String} (hclean : IsClean fragment)
    (h : isRule fragment = false) : ¬ ['@'] <+: solid fragment.toList := by
  rw [List.singleton_prefix_iff_head?_eq_some, Text.head_solid_of_isTrimmed hclean.trimmed]
  simpa [isRule] using h

theorem not_marked_solid {s : String} (ht : IsTrimmed s.toList) (h : isMarked s = false) :
    ¬ ['&'] <:+ solid s.toList := by
  rw [List.singleton_suffix_iff_getLast?_eq_some, Text.last_solid_of_isTrimmed ht]
  simpa [isMarked] using h

theorem isPart_of_unmarked {fragment : String} (hclean : IsClean fragment)
    (h : Repeatable fragment) (hrule : isRule fragment = false)
    (hmark : isMarked fragment = false) : IsPart fragment.toList :=
  ⟨h.gap, hclean.comma, not_rule_solid hclean hrule, not_attached_solid hclean h,
    not_marked_solid hclean.trimmed hmark⟩

/-- Without its mark, a fragment starts as it does with it. -/
theorem isPart_unmarked {fragment : String} (hclean : IsClean fragment) (h : Repeatable fragment)
    (hrule : isRule fragment = false) (hmark : isMarked fragment = true) :
    IsPart (unmarked fragment).toList := by
  have hchars : (unmarked fragment).toList = trim fragment.toList.dropLast := by
    simp [unmarked, trimmed]
  have hsub : ∀ c ∈ (unmarked fragment).toList, c ∈ fragment.toList := by
    intro c hc
    rw [hchars] at hc
    exact List.dropLast_subset _ (Text.mem_of_mem_trim hc)
  -- Whatever the shorter fragment starts with, the longer one does too, up to white space.
  have hprefix : solid (unmarked fragment).toList <+: solid fragment.toList := by
    rw [hchars, Text.solid_trim]
    exact (List.dropLast_prefix _).filter _
  refine ⟨fun hgap => h.gap (hsub _ hgap), fun hcomma => hclean.comma (hsub _ hcomma),
    fun hhead => not_rule_solid hclean hrule (hhead.trans hprefix),
    fun hattached => not_attached_solid hclean h (hattached.trans hprefix),
    not_marked_solid ?_ (h.unmarked hmark)⟩
  rw [hchars]
  exact Text.isTrimmed_trim _

theorem isPart_of_mem_arranged {path : List String} (hclean : ∀ s ∈ path, IsClean s)
    (h : ∀ s ∈ path, Repeatable s) {p : String} (hp : p ∈ arranged (ending path)) :
    IsPart p.toList := by
  rcases mem_arranged hp with ⟨hp, hmark⟩ | ⟨g, hg, hmark, rfl⟩
  · obtain ⟨hmem, hrule⟩ := mem_ending hp
    exact isPart_of_unmarked (hclean p hmem) (h p hmem) hrule hmark
  · obtain ⟨hmem, hrule⟩ := mem_ending hg
    exact isPart_unmarked (hclean g hmem) (h g hmem) hrule hmark

/-! ## Merged selectors -/

/-- Without the mark that attaches it, a part still has no other mark at its ends. -/
theorem IsPart.withoutMark {part : List Char} (h : IsPart part) :
    ¬ ['@'] <+: solid (withoutMark part) ∧ ¬ ['&'] <:+ solid (withoutMark part) := by
  by_cases hmark : part.head? = some '&'
  · obtain ⟨rest, rfl⟩ := List.head?_eq_some_iff.1 hmark
    have hsolid : solid ('&' :: rest) = '&' :: solid rest := by
      have hblank : isBlank '&' = false := by decide
      simp [solid, hblank]
    refine ⟨fun hhead => h.attached ?_, fun hlast => h.last ?_⟩
    · rw [hsolid, List.cons_prefix_cons]
      exact ⟨rfl, hhead⟩
    · rw [hsolid]
      exact hlast.trans (List.suffix_cons _ _)
  · rw [withoutMark_of_head hmark]
    exact ⟨h.head, h.last⟩

theorem ends_flatMap_withoutMark {parts : List (List Char)} (h : ∀ part ∈ parts, IsPart part) :
    ¬ ['@'] <+: parts.flatMap (fun part => solid (withoutMark part)) ∧
      ¬ ['&'] <:+ parts.flatMap (fun part => solid (withoutMark part)) := by
  induction parts with
  | nil => simp
  | cons part parts ih =>
    obtain ⟨hpart, hparts⟩ := List.forall_mem_cons.1 h
    rw [List.flatMap_cons]
    exact ⟨Text.not_singleton_prefix_append hpart.withoutMark.1 (ih hparts).1,
      Text.not_singleton_suffix_append hpart.withoutMark.2 (ih hparts).2⟩

/-- The characters of a merged selector, without white space, neither start with `@` nor end with
`&`. -/
theorem ends_solid_mergeChars {parts : List (List Char)} (h : ∀ part ∈ parts, IsPart part) :
    ¬ ['@'] <+: solid (mergeChars parts) ∧ ¬ ['&'] <:+ solid (mergeChars parts) := by
  cases parts with
  | nil => decide
  | cons part parts =>
    obtain ⟨hpart, hparts⟩ := List.forall_mem_cons.1 h
    obtain ⟨hhead, hlast⟩ := ends_flatMap_withoutMark hparts
    rw [solid_mergeChars fun p hp => (h p hp).gap]
    exact ⟨Text.not_singleton_prefix_append hpart.head hhead,
      Text.not_singleton_suffix_append hpart.last hlast⟩

/-- What merging gives is neither a rule nor marked, and stands for itself. -/
structure IsMerged (s : String) : Prop where
  clean : IsClean s
  isRule : isRule s = false
  isMarked : isMarked s = false
  merge : merge [s] = s

theorem isMerged_merge {parts : List String} (h : ∀ p ∈ parts, IsPart p.toList) :
    IsMerged (merge parts) := by
  have hchars : (merge parts).toList = mergeChars (parts.map String.toList) := by simp [merge]
  have hparts : ∀ part ∈ parts.map String.toList, IsPart part := by simpa using h
  have htrimmed : IsTrimmed (merge parts).toList := hchars ▸ isTrimmed_mergeChars _
  obtain ⟨hhead, hlast⟩ := ends_solid_mergeChars hparts
  rw [← hchars, List.singleton_prefix_iff_head?_eq_some,
    Text.head_solid_of_isTrimmed htrimmed] at hhead
  rw [← hchars, List.singleton_suffix_iff_getLast?_eq_some,
    Text.last_solid_of_isTrimmed htrimmed] at hlast
  refine ⟨⟨htrimmed, ?_⟩, by simpa [Selector.isRule] using hhead,
    by simpa [Selector.isMarked] using hlast, ?_⟩
  · rw [hchars]
    intro hcomma
    rcases mem_mergeChars hcomma with ⟨part, hpart, hmem⟩ | hcolon | hspace
    · exact (hparts part hpart).comma hmem
    · exact absurd hcolon (by decide)
    · exact absurd hspace (by decide)
  · have hgap : gap ∉ (merge parts).toList := by
      rw [hchars]
      exact gap_notMem_mergeChars _
    rw [Selector.merge, List.map_singleton, mergeChars_singleton htrimmed hgap]
    simp

/-! ## Media selectors -/

/-- A media query, as it is kept. -/
def IsQuery (query : String) : Prop :=
  IsClean query ∧ query ≠ ""

theorem isQuery_of_mem_queries {path : List String} (hclean : ∀ s ∈ path, IsClean s)
    (h : ∀ s ∈ path, Repeatable s) {query : String} (hq : query ∈ queries path) :
    IsQuery query := by
  obtain ⟨f, hf, rfl⟩ := List.mem_map.1 hq
  obtain ⟨hmem, hmedia⟩ := List.mem_filter.1 hf
  refine ⟨⟨?_, ?_⟩, (h f hmem).query hmedia⟩
  · simpa [trimmed] using Text.isTrimmed_trim (f.toList.drop 6)
  · intro hcomma
    rw [trimmed, String.toList_ofList, String.toList_ofList] at hcomma
    exact (hclean f hmem).comma ((List.drop_subset 6 _) (Text.mem_of_mem_trim hcomma))

theorem isQuery_intercalate {qs : List String} (hne : qs ≠ []) (h : ∀ q ∈ qs, IsQuery q) :
    IsQuery (" and ".intercalate qs) := by
  have hchars : (" and ".intercalate qs).toList =
      " and ".toList.intercalate (qs.map String.toList) := String.toList_intercalate
  have hparts : ∀ part ∈ qs.map String.toList, IsTrimmed part ∧ part ≠ [] := by
    intro part hpart
    obtain ⟨q, hq, rfl⟩ := List.mem_map.1 hpart
    exact ⟨(h q hq).1.trimmed, by simpa using (h q hq).2⟩
  obtain ⟨htrimmed, hnil⟩ := Text.isTrimmed_intercalate " and ".toList (by simpa using hne) hparts
  refine ⟨⟨hchars ▸ htrimmed, ?_⟩, ?_⟩
  · rw [hchars]
    intro hcomma
    rcases Text.mem_intercalate hcomma with hbetween | ⟨part, hpart, hmem⟩
    · exact absurd hbetween (by decide)
    · obtain ⟨q, hq, rfl⟩ := List.mem_map.1 hpart
      exact (h q hq).1.comma hmem
  · intro hempty
    rw [hempty] at hchars
    exact hnil hchars.symm

/-- The selector of a media query has that query again. -/
theorem recompose_media {query : String} (h : IsQuery query) :
    IsClean ("@media " ++ query) ∧ isMedia ("@media " ++ query) = true ∧
      queries ["@media " ++ query] = [query] := by
  have hchars : ("@media " ++ query).toList = "@media".toList ++ [' '] ++ query.toList := by simp
  have hnil : query.toList ≠ [] := by simpa using h.2
  have hmedia : isMedia ("@media " ++ query) = true :=
    List.isPrefixOf_iff_prefix.2 ⟨' ' :: query.toList, by simp⟩
  refine ⟨⟨?_, ?_⟩, hmedia, ?_⟩
  · rw [hchars]
    exact IsTrimmed.append_between (by decide) h.1.trimmed (by decide) hnil [' ']
  · simpa using h.1.comma
  · have hdrop : ("@media " ++ query).toList.drop 6 = ' ' :: query.toList := by
      rw [hchars]
      rfl
    rw [queries, List.filter_singleton, hmedia, cond_true, List.map_singleton, hdrop, trimmed,
      String.toList_ofList, Text.trim_cons_of_isBlank (by decide),
      Text.trim_eq_of_isTrimmed h.1.trimmed, String.ofList_toList]

theorem recompose_mediaSelectors {qs : List String} (h : ∀ q ∈ qs, IsQuery q) :
    (∀ s ∈ mediaSelectors qs, IsClean s ∧ isMedia s = true) ∧
      mediaSelectors (queries (mediaSelectors qs)) = mediaSelectors qs := by
  by_cases hqs : qs = []
  · subst hqs
    exact ⟨by simp [mediaSelectors], rfl⟩
  · obtain ⟨hclean, hmedia, hqueries⟩ := recompose_media (isQuery_intercalate hqs h)
    have hselectors : mediaSelectors qs = ["@media " ++ " and ".intercalate qs] := if_neg hqs
    rw [hselectors, hqueries]
    refine ⟨by simpa using ⟨hclean, hmedia⟩, ?_⟩
    rw [mediaSelectors, if_neg (by simp), String.intercalate_singleton]

/-! ## Composed selectors -/

theorem queries_append (path path' : List String) :
    queries (path ++ path') = queries path ++ queries path' := by
  simp [queries]

theorem queries_eq_nil {path : List String} (h : ∀ s ∈ path, isMedia s = false) :
    queries path = [] := by
  simpa [queries] using h

theorem atRules_append (path path' : List String) :
    atRules (path ++ path') = atRules path ++ atRules path' := by
  simp [atRules]

theorem atRules_eq_nil {path : List String} (h : ∀ s ∈ path, isAtRule s = false) :
    atRules path = [] := by
  simpa [atRules] using h

theorem ending_eq_nil {path : List String} (h : ∀ s ∈ path, isRule s = true) :
    ending path = [] := by
  rw [ending, List.filter_eq_nil_iff]
  intro s hs
  simp [h s ((List.rtakeWhile_suffix _ path).subset hs)]

theorem ne_empty_of_isRule {s : String} (h : isRule s = true) : s ≠ "" := by
  rintro rfl
  simp [isRule] at h

/-- The merged part of a composed selector, which is left out if it is empty. -/
def mergedPart (path : List String) : List String :=
  [merge (arranged (ending path))].filter (· ≠ "")

theorem isMerged_of_mem_mergedPart {path : List String}
    (h : ∀ p ∈ arranged (ending path), IsPart p.toList) :
    ∀ s ∈ mergedPart path, IsMerged s := by
  intro s hs
  rw [List.mem_singleton.1 (List.mem_filter.1 hs).1]
  exact isMerged_merge h

theorem isRule_of_mem_mediaSelectors {queries : List String} {s : String}
    (h : s ∈ mediaSelectors queries) : isRule s = true := by
  unfold mediaSelectors at h
  split at h
  · simp at h
  · simp [List.mem_singleton.1 h, isRule]

theorem isRule_of_mem_atRules {path : List String} {s : String} (h : s ∈ atRules path) :
    isRule s = true := by
  have hat : isAtRule s = true := (List.mem_filter.1 h).2
  simp only [isAtRule, Bool.and_eq_true] at hat
  exact hat.1

/-- All selectors but the merged one start with `@`, so none of them is left out. -/
theorem compose_eq_append (path : List String) :
    compose path = mediaSelectors (queries path) ++ atRules path ++ mergedPart path := by
  have hkept : ∀ l : List String, (∀ s ∈ l, isRule s = true) → l.filter (· ≠ "") = l := by
    intro l hl
    exact List.filter_eq_self.2 fun s hs => by simpa using ne_empty_of_isRule (hl s hs)
  calc
    compose path = (mediaSelectors (queries path) ++ atRules path ++
        [merge (arranged (ending path))]).filter (· ≠ "") := compose_eq_state path
    _ = mediaSelectors (queries path) ++ atRules path ++ mergedPart path := by
      rw [List.filter_append, List.filter_append, hkept _ fun _ => isRule_of_mem_mediaSelectors,
        hkept _ fun _ => isRule_of_mem_atRules, mergedPart]

/-- What composed selectors are taken apart into. -/
theorem state_recomposed {media rules merged : List String}
    (hmedia : ∀ s ∈ media, isMedia s = true) (hrules : ∀ s ∈ rules, isAtRule s = true)
    (hmerged : ∀ s ∈ merged, IsMerged s) (hlength : merged.length ≤ 1) :
    state (media ++ rules ++ merged) = ⟨queries media, rules, merged⟩ := by
  have hrule : ∀ s, isAtRule s = true → isRule s = true ∧ isMedia s = false := by
    intro s hs
    simpa [isAtRule] using hs
  have hfirst : ∀ s ∈ media ++ rules, isRule s = true := by
    intro s hs
    rcases List.mem_append.1 hs with hs | hs
    · exact isRule_of_isMedia (hmedia s hs)
    · exact (hrule s (hrules s hs)).1
  have hqueries : queries (media ++ rules ++ merged) = queries media := by
    rw [queries_append, queries_append, queries_eq_nil fun s hs => (hrule s (hrules s hs)).2,
      queries_eq_nil fun s hs => isMedia_of_not_isRule (hmerged s hs).isRule, List.append_nil,
      List.append_nil]
  have hatRules : atRules (media ++ rules ++ merged) = rules := by
    rw [atRules_append, atRules_append,
      atRules_eq_nil fun s hs => by simp [isAtRule, hmedia s hs],
      atRules_eq_nil fun s hs => isAtRule_of_not_isRule (hmerged s hs).isRule, List.append_nil,
      List.nil_append]
    exact List.filter_eq_self.2 hrules
  have hending : arranged (ending (media ++ rules ++ merged)) = merged := by
    rcases merged with _ | ⟨m, _ | ⟨m', rest⟩⟩
    · rw [List.append_nil, ending_eq_nil hfirst, arranged_nil]
    · have hm : IsMerged m := hmerged m (by simp)
      rw [ending_concat, if_neg (by simp [isAtRule_of_not_isRule hm.isRule]),
        if_neg (by simp [hm.isRule]), ending_eq_nil hfirst, List.nil_append,
        arranged_cons_of_unmarked hm.isMarked]
      rfl
    · simp at hlength
  rw [state, hqueries, hatRules, hending]

section

variable {path : List String} (hclean : ∀ s ∈ path, IsClean s) (h : ∀ s ∈ path, Repeatable s)

include hclean h

/-- Composed selectors are clean. -/
theorem isClean_of_mem_compose {s : String} (hs : s ∈ compose path) : IsClean s := by
  obtain ⟨hmedia, -⟩ := recompose_mediaSelectors fun q hq => isQuery_of_mem_queries hclean h hq
  rw [compose_eq_append, List.mem_append, List.mem_append] at hs
  rcases hs with (hs | hs) | hs
  · exact (hmedia s hs).1
  · exact hclean s (List.mem_filter.1 hs).1
  · exact (isMerged_of_mem_mergedPart (fun p hp => isPart_of_mem_arranged hclean h hp) s hs).clean

/-- Composing is idempotent on repeatable fragments. -/
theorem compose_compose : compose (compose path) = compose path := by
  obtain ⟨hmedia, hagain⟩ := recompose_mediaSelectors fun q hq => isQuery_of_mem_queries hclean h hq
  have hcompose := compose_eq_append path
  have hmerged := isMerged_of_mem_mergedPart fun p hp => isPart_of_mem_arranged hclean h hp
  have hrules : ∀ s ∈ atRules path, isAtRule s = true := fun s hs => (List.mem_filter.1 hs).2
  have hstate := state_recomposed (fun s hs => (hmedia s hs).2) hrules hmerged
    (List.length_filter_le _ _)
  have hmerge : merge (mergedPart path) = merge (arranged (ending path)) := by
    by_cases hempty : merge (arranged (ending path)) = ""
    · have hnil : mergedPart path = [] := by simp [mergedPart, hempty]
      rw [hnil, hempty]
      decide
    · have hsingle : mergedPart path = [merge (arranged (ending path))] := by
        simp [mergedPart, hempty]
      rw [hsingle]
      exact (hmerged _ (by simp [hsingle])).merge
  calc
    compose (compose path) = (state (mediaSelectors (queries path) ++ atRules path ++
        mergedPart path)).selectors := by rw [compose_eq_state, hcompose]
    _ = (Composition.mk (queries (mediaSelectors (queries path))) (atRules path)
        (mergedPart path)).selectors := by rw [hstate]
    _ = (state path).selectors := by
      simp only [Composition.selectors, hagain, hmerge, state]
    _ = compose path := (compose_eq_state path).symm

end

end Stylesheet.Selector
