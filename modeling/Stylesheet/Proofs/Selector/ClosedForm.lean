import Stylesheet.Selector.Compose
import Mathlib.Data.List.DropRight
import Mathlib.Data.List.Induction
import Mathlib.Data.List.TakeWhile

/-!
# Composition in closed form

Selectors are composed fragment by fragment, with a state that at-rules reset and marked fragments
reorder.  Here the result is told from the whole path at once: the media queries and the at-rules
are filtered out of it, and the fragments after the last at-rule are grouped, each unmarked one with
the marked ones that follow it.

## Main definitions

* `Selector.queries`, `Selector.atRules`, `Selector.ending` — what a path is taken apart into.
* `Selector.runs`, `Selector.arranged` — the groups, and the order in which they are merged.
* `Selector.closedForm` — the selectors that a path stands for.

## Main statements

* `Selector.add_state` — one fragment more, in terms of the whole path.
* `Selector.compose_closedForm` — composing gives the closed form.
-/

namespace Stylesheet.Selector

/-! ## The parts of a path -/

/-- Whether a fragment starts with `@media`. -/
def isMedia (fragment : String) : Bool :=
  "@media".toList.isPrefixOf fragment.toList

/-- Whether a fragment starts with `@`. -/
def isRule (fragment : String) : Bool :=
  fragment.toList.head? = some '@'

/-- Whether a fragment starts with `@`, but not with `@media`. -/
def isAtRule (fragment : String) : Bool :=
  isRule fragment && !isMedia fragment

/-- Whether a fragment ends with `&`. -/
def isMarked (fragment : String) : Bool :=
  fragment.toList.getLast? = some '&'

/-- A marked fragment without its mark. -/
def unmarked (fragment : String) : String :=
  trimmed (String.ofList fragment.toList.dropLast)

/-- The media queries of a path, without the six characters of their keyword. -/
def queries (path : List String) : List String :=
  (path.filter isMedia).map fun fragment => trimmed (String.ofList (fragment.toList.drop 6))

/-- The other at-rules of a path. -/
def atRules (path : List String) : List String :=
  path.filter isAtRule

/-- The fragments after the last at-rule, without the media queries among them. -/
def ending (path : List String) : List String :=
  (path.rtakeWhile (!isAtRule ·)).filter (!isRule ·)

/-- The unmarked fragments, each with the marked ones that follow it directly. -/
def runs : List String → List (String × List String)
  | [] => []
  | fragment :: rest =>
    if isMarked fragment then runs rest
    else (fragment, rest.takeWhile isMarked) :: runs rest

/-- The fragments in the order in which they are merged: in every run the marked ones come first.
Marked ones at the beginning, which follow none, are dropped. -/
def arranged (fragments : List String) : List String :=
  (runs (fragments.dropWhile isMarked)).flatMap fun run => run.2.map unmarked ++ [run.1]

/-- The selectors that a path stands for. -/
def closedForm (path : List String) : List String :=
  ((if queries path = [] then [] else ["@media " ++ " and ".intercalate (queries path)]) ++
    atRules path ++ [merge (arranged (ending path))]).filter (· ≠ "")

/-! ## Roles -/

theorem isRule_of_isMedia {s : String} (h : isMedia s = true) : isRule s = true := by
  obtain ⟨rest, hrest⟩ := List.isPrefixOf_iff_prefix.1 h
  simp [isRule, ← hrest]

theorem isMedia_of_not_isRule {s : String} (h : isRule s = false) : isMedia s = false :=
  Bool.eq_false_iff.2 (mt isRule_of_isMedia (by simp [h]))

theorem isAtRule_of_not_isRule {s : String} (h : isRule s = false) : isAtRule s = false := by
  simp [isAtRule, h]

theorem role_of_isMedia {s : String} (h : isMedia s = true) :
    role s = .media (trimmed (String.ofList (s.toList.drop 6))) := by
  obtain ⟨rest, hrest⟩ := List.isPrefixOf_iff_prefix.1 h
  have hs : s.toList = '@' :: 'm' :: 'e' :: 'd' :: 'i' :: 'a' :: rest := hrest.symm
  rw [role, hs]
  simp [trimmed]

theorem role_of_isAtRule {s : String} (h : isAtRule s = true) : role s = .atRule s := by
  obtain ⟨hrule, hmedia⟩ : isRule s = true ∧ isMedia s = false := by
    simpa [isAtRule] using h
  unfold role
  split
  · next query hs => simp [isMedia, hs] at hmedia
  · rfl
  · next hnot =>
    obtain ⟨rest, hrest⟩ : ∃ rest, s.toList = '@' :: rest :=
      List.head?_eq_some_iff.1 (by simpa [isRule] using hrule)
    exact absurd hrest (hnot rest)

theorem role_of_not_isRule {s : String} (h : isRule s = false) :
    role s = if isMarked s then .before (unmarked s) else .after s := by
  unfold role
  split
  · next query hs => simp [isRule, hs] at h
  · next rest _ hs => simp [isRule, hs] at h
  · simp [isMarked, unmarked, trimmed]

/-! ## One fragment more -/

theorem queries_concat (path : List String) (s : String) :
    queries (path ++ [s]) =
      if isMedia s then queries path ++ [trimmed (String.ofList (s.toList.drop 6))]
      else queries path := by
  by_cases h : isMedia s = true <;> simp [queries, h]

theorem atRules_concat (path : List String) (s : String) :
    atRules (path ++ [s]) = if isAtRule s then atRules path ++ [s] else atRules path := by
  by_cases h : isAtRule s = true <;> simp [atRules, h]

theorem ending_concat (path : List String) (s : String) :
    ending (path ++ [s]) =
      if isAtRule s then [] else if isRule s then ending path else ending path ++ [s] := by
  unfold ending
  rw [List.rtakeWhile_concat]
  by_cases hat : isAtRule s = true
  · simp [hat]
  · by_cases hrule : isRule s = true <;> simp [hat, hrule]

theorem takeWhile_append_of_neg {p : String → Bool} {s : String} (h : p s = false)
    (l l' : List String) : (l ++ s :: l').takeWhile p = l.takeWhile p := by
  induction l with
  | nil => simp [h]
  | cons a l ih => by_cases ha : p a = true <;> simp [ha, ih]

theorem takeWhile_append_of_exists {p : String → Bool} {l : List String}
    (h : ∃ a ∈ l, p a = false) (l' : List String) : (l ++ l').takeWhile p = l.takeWhile p := by
  rw [List.takeWhile_append, if_neg]
  intro hlength
  obtain ⟨a, ha, hpa⟩ := h
  have hall : l.takeWhile p = l := (List.takeWhile_prefix p).eq_of_length hlength
  rw [← hall] at ha
  simp [List.mem_takeWhile_imp ha] at hpa

/-! ### Arranging -/

theorem runs_dropWhile (fragments : List String) :
    runs (fragments.dropWhile isMarked) = runs fragments := by
  induction fragments with
  | nil => rfl
  | cons f rest ih => by_cases hf : isMarked f = true <;> simp [runs, hf, ih]

@[simp]
theorem arranged_nil : arranged [] = [] := rfl

theorem arranged_cons_of_marked {g : String} (hg : isMarked g = true) (rest : List String) :
    arranged (g :: rest) = arranged rest := by
  simp [arranged, hg]

theorem arranged_cons_of_unmarked {f : String} (hf : isMarked f = false) (rest : List String) :
    arranged (f :: rest) =
      (rest.takeWhile isMarked).map unmarked ++ f :: arranged rest := by
  simp [arranged, runs_dropWhile, runs, hf]

theorem arranged_eq_nil_iff {fragments : List String} :
    arranged fragments = [] ↔ ∀ s ∈ fragments, isMarked s = true := by
  induction fragments with
  | nil => simp
  | cons f rest ih =>
    by_cases hf : isMarked f = true
    · simp [arranged_cons_of_marked hf, ih, hf]
    · simp [arranged_cons_of_unmarked (Bool.eq_false_iff.2 hf), hf]

/-- An unmarked fragment begins a new run. -/
theorem arranged_append_of_unmarked {f : String} (hf : isMarked f = false)
    (fragments rest : List String) :
    arranged (fragments ++ f :: rest) = arranged fragments ++ arranged (f :: rest) := by
  induction fragments with
  | nil => rfl
  | cons q others ih =>
    rw [List.cons_append]
    by_cases hq : isMarked q = true
    · rw [arranged_cons_of_marked hq, arranged_cons_of_marked hq, ih]
    · have hq : isMarked q = false := Bool.eq_false_iff.2 hq
      rw [arranged_cons_of_unmarked hq, arranged_cons_of_unmarked hq, ih,
        takeWhile_append_of_neg hf]
      simp

theorem arranged_concat_of_unmarked {f : String} (hf : isMarked f = false)
    (fragments : List String) : arranged (fragments ++ [f]) = arranged fragments ++ [f] := by
  rw [arranged_append_of_unmarked hf, arranged_cons_of_unmarked hf]
  rfl

/-- Marked fragments which follow no unmarked one do not matter. -/
theorem arranged_append_of_nil {fragments : List String} (h : arranged fragments = [])
    (rest : List String) : arranged (fragments ++ rest) = arranged rest := by
  rw [arranged_eq_nil_iff] at h
  induction fragments with
  | nil => rfl
  | cons g others ih =>
    obtain ⟨hg, hothers⟩ := List.forall_mem_cons.1 h
    rw [List.cons_append, arranged_cons_of_marked hg, ih hothers]

/-- A marked fragment which follows no unmarked one is dropped. -/
theorem arranged_concat_of_nil {g : String} (hg : isMarked g = true) {fragments : List String}
    (h : arranged fragments = []) : arranged (fragments ++ [g]) = [] := by
  rw [arranged_append_of_nil h, arranged_cons_of_marked hg, arranged_nil]

/-- A marked fragment goes before the unmarked one that begins the last run. -/
theorem arranged_concat_of_marked {g : String} (hg : isMarked g = true) {fragments : List String} :
    ∀ {before : List String} {last : String}, arranged fragments = before ++ [last] →
      arranged (fragments ++ [g]) = before ++ [unmarked g, last] := by
  induction fragments with
  | nil => intro before last h; simp at h
  | cons q rest ih =>
    intro before last h
    rw [List.cons_append]
    by_cases hq : isMarked q = true
    · rw [arranged_cons_of_marked hq] at h ⊢
      exact ih h
    · have hq : isMarked q = false := Bool.eq_false_iff.2 hq
      rw [arranged_cons_of_unmarked hq] at h ⊢
      -- Whether the new fragment belongs to the run of `q` depends on what follows `q`.
      rcases List.eq_nil_or_concat (arranged rest) with hrest | ⟨before', last', hrest⟩
      · have hall : ∀ s ∈ rest, isMarked s = true := arranged_eq_nil_iff.1 hrest
        rw [hrest] at h
        obtain ⟨rfl, hlast⟩ := List.append_inj' h rfl
        obtain rfl : q = last := by simpa using hlast
        rw [arranged_concat_of_nil hg hrest, List.takeWhile_append_of_pos hall,
          List.takeWhile_eq_self_iff.2 hall]
        simp [hg]
      · have hsome : ∃ s ∈ rest, isMarked s = false := by
          by_contra hnone
          have hnil : arranged rest = [] :=
            arranged_eq_nil_iff.2 fun s hs => by
              by_contra hs'
              exact hnone ⟨s, hs, Bool.eq_false_iff.2 hs'⟩
          simp [hrest] at hnil
        rw [hrest, List.concat_eq_append, ← List.cons_append, ← List.append_assoc] at h
        obtain ⟨rfl, hlast⟩ := List.append_inj' h rfl
        obtain rfl : last' = last := by simpa using hlast
        rw [ih (by rw [hrest, List.concat_eq_append]), takeWhile_append_of_exists hsome]
        simp

/-! ## The state along a path -/

/-- The composition that a path leads to, in closed form. -/
def state (path : List String) : Composition :=
  ⟨queries path, atRules path, arranged (ending path)⟩

/-- One fragment more on the path is one fragment more in the composition. -/
theorem add_state (path : List String) (s : String) :
    (state path).add s = state (path ++ [s]) := by
  by_cases hrule : isRule s = true
  · by_cases hmedia : isMedia s = true
    · have hat : isAtRule s = false := by simp [isAtRule, hmedia]
      simp [Composition.add, role_of_isMedia hmedia, state, queries_concat, atRules_concat,
        ending_concat, hmedia, hat, hrule]
    · have hat : isAtRule s = true := by simp [isAtRule, hrule, hmedia]
      simp [Composition.add, role_of_isAtRule hat, state, queries_concat, atRules_concat,
        ending_concat, hmedia, hat]
  · have hrule : isRule s = false := Bool.eq_false_iff.2 hrule
    have hat : isAtRule s = false := isAtRule_of_not_isRule hrule
    have hmedia : isMedia s = false := isMedia_of_not_isRule hrule
    simp only [Composition.add, role_of_not_isRule hrule, state, queries_concat, atRules_concat,
      ending_concat, hmedia, hat, hrule, Bool.false_eq_true, if_false]
    by_cases hmark : isMarked s = true
    · rw [if_pos hmark]
      rcases List.eq_nil_or_concat (arranged (ending path)) with hnil | ⟨before, last, hconcat⟩
      · simp [hnil, arranged_concat_of_nil hmark hnil]
      · rw [List.concat_eq_append] at hconcat
        simp [hconcat, arranged_concat_of_marked hmark hconcat]
    · rw [if_neg hmark]
      simp [arranged_concat_of_unmarked (Bool.eq_false_iff.2 hmark)]

theorem foldl_add_eq_state (path : List String) :
    path.foldl Composition.add .empty = state path := by
  induction path using List.reverseRecOn with
  | nil => rfl
  | append_singleton path s ih =>
    rw [List.foldl_append, ih]
    exact add_state path s

/-! ## Composing -/

theorem compose_eq_state (path : List String) : compose path = (state path).selectors := by
  rw [compose, foldl_add_eq_state]

theorem queries_filter_isRule (path : List String) :
    queries (path.filter isRule) = queries path := by
  unfold queries
  rw [List.filter_filter]
  congr 2
  funext s
  by_cases h : isMedia s = true
  · simp [h, isRule_of_isMedia h]
  · simp [h]

theorem atRules_filter_isRule (path : List String) :
    atRules (path.filter isRule) = atRules path := by
  unfold atRules
  rw [List.filter_filter]
  congr 1
  funext s
  by_cases h : isRule s = true <;> simp [isAtRule, h]

/-- What stands before an at-rule does not matter for the ending. -/
theorem ending_append_of_isAtRule {a : String} (ha : isAtRule a = true)
    (before before' after : List String) :
    ending (before ++ a :: after) = ending (before' ++ a :: after) := by
  induction after using List.reverseRecOn with
  | nil => rw [ending_concat, ending_concat, if_pos ha, if_pos ha]
  | append_singleton after s ih =>
    rw [← List.cons_append, ← List.append_assoc, ← List.append_assoc, ending_concat,
      ending_concat, ih]

theorem ending_filter_not_isMedia (path : List String) :
    ending (path.filter (!isMedia ·)) = ending path := by
  induction path using List.reverseRecOn with
  | nil => rfl
  | append_singleton path s ih =>
    rw [List.filter_append, ending_concat]
    by_cases h : isMedia s = true
    · simp [h, ih, isAtRule, isRule_of_isMedia h]
    · rw [List.filter_singleton, Bool.eq_false_iff.2 h]
      simp only [Bool.not_false, cond_true]
      rw [ending_concat, ih]

theorem atRules_filter_not_isMedia (path : List String) :
    atRules (path.filter (!isMedia ·)) = atRules path := by
  unfold atRules
  rw [List.filter_filter]
  congr 1
  funext s
  by_cases h : isMedia s = true <;> simp [isAtRule, h]

/-- Composing gives the closed form.  Where the media queries stand among the other fragments does
not matter, and of the fragments before an at-rule only those that start with `@` count. -/
theorem compose_closedForm :
    (∀ path, compose path = closedForm path) ∧
      (∀ path path', path.filter isMedia = path'.filter isMedia →
        path.filter (!isMedia ·) = path'.filter (!isMedia ·) → compose path = compose path') ∧
      ∀ before a after, isAtRule a = true →
        compose (before ++ a :: after) = compose (before.filter isRule ++ a :: after) := by
  refine ⟨fun path => compose_eq_state path, ?_, ?_⟩
  · intro path path' hmedia hother
    have hqueries : queries path = queries path' := by rw [queries, queries, hmedia]
    have hatRules : atRules path = atRules path' := by
      rw [← atRules_filter_not_isMedia path, hother, atRules_filter_not_isMedia]
    have hending : ending path = ending path' := by
      rw [← ending_filter_not_isMedia path, hother, ending_filter_not_isMedia]
    rw [compose_eq_state, compose_eq_state, state, state, hqueries, hatRules, hending]
  · intro before a after ha
    have hqueries :
        queries (before ++ a :: after) = queries (before.filter isRule ++ a :: after) := by
      simpa [queries] using (queries_filter_isRule before).symm
    have hatRules :
        atRules (before ++ a :: after) = atRules (before.filter isRule ++ a :: after) := by
      simpa [atRules] using (atRules_filter_isRule before).symm
    rw [compose_eq_state, compose_eq_state, state, state, hqueries, hatRules,
      ending_append_of_isAtRule ha before (before.filter isRule) after]

/-- A path on which the state is reset and reordered. -/
theorem compose_hoisted_marked :
    compose ["u", "@keyframes k", "x&", "b", "@media print", "y &", "z&", "i"] =
        ["@media print", "@keyframes k", "y z b i"] ∧
      closedForm ["u", "@keyframes k", "x&", "b", "@media print", "y &", "z&", "i"] =
        ["@media print", "@keyframes k", "y z b i"] ∧
      compose ["b", "@media print", "y &"] = compose ["@media print", "b", "y &"] ∧
      compose ["u", "@keyframes k", "b"] = compose ["@keyframes k", "b"] :=
  have hclosed : closedForm ["u", "@keyframes k", "x&", "b", "@media print", "y &", "z&", "i"] =
      ["@media print", "@keyframes k", "y z b i"] := by decide +kernel
  ⟨(compose_closedForm.1 _).trans hclosed, hclosed,
    compose_closedForm.2.1 _ _ (by decide +kernel) (by decide +kernel),
    compose_closedForm.2.2 ["u"] "@keyframes k" ["b"] (by decide +kernel)⟩

end Stylesheet.Selector
