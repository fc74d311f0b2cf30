import Stylesheet.Text.Blank
import Mathlib.Data.List.DropRight

/-!
# Trimmed texts

A text is trimmed if it neither starts nor ends with white space, which is what trimming leaves
behind.  White space inside a text does not matter for this: `solid` is what is left without it.

## Main definitions

* `IsTrimmed` — texts without white space at their ends.
* `solid` — a text without its white space.
* `Expands` — a text in which every character has been replaced by one or several others.

## Main statements

* `isTrimmed_trim`, `trim_eq_of_isTrimmed` — trimming gives trimmed texts, and leaves them alone.
* `fields_eq_of_notMem`, `fields_append` — a text without separators is its only part, and a text
  falls apart at every separator.
* `solid_trim` — trimming only takes white space away.
* `trim_append` — trimming two texts, one after the other.
* `trim_append_between`, `exists_eq_append_trim` — a text is its trimmed form with white space
  around it, and any white space will do.
* `Expands.isTrimmed` — replacing characters that are no white space keeps a text trimmed.
-/

namespace Stylesheet.Text

/-- A text that neither starts nor ends with white space. -/
structure IsTrimmed (cs : List Char) : Prop where
  head : ∀ c, cs.head? = some c → isBlank c = false
  last : ∀ c, cs.getLast? = some c → isBlank c = false

instance (cs : List Char) : Decidable (IsTrimmed cs) :=
  decidable_of_iff (cs.head?.all (!isBlank ·) = true ∧ cs.getLast?.all (!isBlank ·) = true) <| by
    simp only [Option.all_eq_true, Bool.not_eq_true']
    exact ⟨fun h => ⟨h.1, h.2⟩, fun h => ⟨h.head, h.last⟩⟩

@[simp] theorem isTrimmed_nil : IsTrimmed [] := ⟨by simp, by simp⟩

theorem trimRight_eq_rdropWhile (cs : List Char) : trimRight cs = cs.rdropWhile isBlank := rfl

theorem head_dropWhile_isBlank {cs : List Char} {c : Char}
    (h : (cs.dropWhile isBlank).head? = some c) : isBlank c = false := by
  simpa [h] using List.head?_dropWhile_not isBlank cs

theorem trimLeft_eq_self_of_head {cs : List Char}
    (h : ∀ c, cs.head? = some c → isBlank c = false) : trimLeft cs = cs := by
  cases cs with
  | nil => rfl
  | cons c rest => simp [trimLeft, h c rfl]

theorem trimRight_eq_self_of_last {cs : List Char}
    (h : ∀ c, cs.getLast? = some c → isBlank c = false) : trimRight cs = cs := by
  rw [trimRight_eq_rdropWhile, List.rdropWhile_eq_self_iff]
  intro hne
  simp [h _ (List.getLast?_eq_some_getLast hne)]

/-- Trimming leaves a trimmed text alone. -/
theorem trim_eq_of_isTrimmed {cs : List Char} (h : IsTrimmed cs) : trim cs = cs := by
  rw [trim, trimLeft_eq_self_of_head h.head, trimRight_eq_self_of_last h.last]

/-- Trimming gives a trimmed text. -/
theorem isTrimmed_trim (cs : List Char) : IsTrimmed (trim cs) := by
  constructor
  · intro c hc
    have hprefix : trim cs <+: trimLeft cs := List.rdropWhile_prefix isBlank _
    obtain ⟨rest, hrest⟩ := List.head?_eq_some_iff.1 hc
    refine @head_dropWhile_isBlank cs c ?_
    obtain ⟨after, hafter⟩ := hprefix
    rw [show cs.dropWhile isBlank = trim cs ++ after from hafter.symm, hrest]
    rfl
  · intro c hc
    have hne : (trimLeft cs).rdropWhile isBlank ≠ [] := by
      intro hnil
      rw [trim, trimRight_eq_rdropWhile, hnil] at hc
      simp at hc
    have hnot := List.rdropWhile_last_not isBlank _ hne
    rw [trim, trimRight_eq_rdropWhile, List.getLast?_eq_some_getLast hne] at hc
    rw [← Option.some.inj hc]
    simpa using hnot

theorem mem_of_mem_trim {cs : List Char} {c : Char} (h : c ∈ trim cs) : c ∈ cs :=
  (List.dropWhile_subset isBlank) ((List.rdropWhile_prefix isBlank _).subset h)

theorem trim_cons_of_isBlank {c : Char} (h : isBlank c = true) (cs : List Char) :
    trim (c :: cs) = trim cs := by
  simp [trim, trimLeft, h]

theorem IsTrimmed.append {before after : List Char} (hb : IsTrimmed before)
    (ha : IsTrimmed after) : IsTrimmed (before ++ after) := by
  constructor
  · intro c hc
    rw [List.head?_append, Option.or_eq_some_iff] at hc
    exact hc.elim (hb.head c) fun hc => ha.head c hc.2
  · intro c hc
    rw [List.getLast?_append, Option.or_eq_some_iff] at hc
    exact hc.elim (ha.last c) fun hc => hb.last c hc.2

/-- Between two texts that are trimmed and not empty, anything may stand. -/
theorem IsTrimmed.append_between {before after : List Char} (hb : IsTrimmed before)
    (ha : IsTrimmed after) (hbefore : before ≠ []) (hafter : after ≠ []) (between : List Char) :
    IsTrimmed (before ++ between ++ after) := by
  obtain ⟨first, rest, rfl⟩ := List.exists_cons_of_ne_nil hbefore
  obtain ⟨init, last, rfl⟩ := List.eq_nil_or_concat after |>.resolve_left hafter
  constructor
  · intro c hc
    exact hb.head c (by simpa using hc)
  · intro c hc
    rw [List.concat_eq_append, ← List.append_assoc, List.getLast?_concat] at hc
    exact ha.last c (by rw [List.concat_eq_append, List.getLast?_concat, hc])

/-! ## Fields -/

/-- A text without separators is its only part. -/
theorem fields_eq_of_notMem {separator : Char} {cs : List Char} (h : separator ∉ cs) :
    fields separator cs = [cs] := by
  induction cs with
  | nil => rfl
  | cons c rest ih =>
    obtain ⟨hc, hrest⟩ := not_or.1 (mt List.mem_cons.2 h)
    rw [fields, if_neg (Ne.symm hc), ih hrest]
    rfl

/-- A text falls apart at every separator. -/
theorem fields_append (separator : Char) (before after : List Char) :
    fields separator (before ++ separator :: after) =
      fields separator before ++ fields separator after := by
  induction before with
  | nil => simp
  | cons c rest ih =>
    by_cases hc : c = separator
    · simp [hc, ih]
    · obtain ⟨part, parts, hparts⟩ := List.exists_cons_of_ne_nil (fields_ne_nil separator rest)
      simp [fields, hc, ih, hparts]

/-! ## Without white space -/

/-- A text without its white space. -/
def solid (cs : List Char) : List Char :=
  cs.filter (!isBlank ·)

@[simp] theorem solid_append (cs cs' : List Char) : solid (cs ++ cs') = solid cs ++ solid cs' :=
  List.filter_append ..

theorem solid_dropWhile (cs : List Char) : solid (cs.dropWhile isBlank) = solid cs := by
  induction cs with
  | nil => rfl
  | cons c rest ih =>
    by_cases hc : isBlank c = true
    · rw [List.dropWhile_cons_of_pos hc, ih]
      simp [solid, hc]
    · rw [List.dropWhile_cons_of_neg hc]

theorem solid_trimLeft (cs : List Char) : solid (trimLeft cs) = solid cs :=
  solid_dropWhile cs

theorem solid_trimRight (cs : List Char) : solid (trimRight cs) = solid cs := by
  have hreverse : ∀ cs : List Char, solid cs.reverse = (solid cs).reverse :=
    fun cs => List.filter_reverse ..
  rw [trimRight, hreverse, solid_dropWhile, hreverse, List.reverse_reverse]

/-- Trimming only takes white space away. -/
theorem solid_trim (cs : List Char) : solid (trim cs) = solid cs := by
  rw [trim, solid_trimRight, solid_trimLeft]

theorem ne_nil_of_solid {cs : List Char} (h : solid cs ≠ []) : cs ≠ [] := by
  rintro rfl
  exact h rfl

theorem dropWhile_append_of_solid {cs : List Char} (h : solid cs ≠ []) (cs' : List Char) :
    (cs ++ cs').dropWhile isBlank = cs.dropWhile isBlank ++ cs' := by
  have hne : cs.dropWhile isBlank ≠ [] := ne_nil_of_solid ((solid_dropWhile cs).symm ▸ h)
  rw [List.dropWhile_append, if_neg (by simpa using hne)]

theorem trimLeft_append {before : List Char} (h : solid before ≠ []) (after : List Char) :
    trimLeft (before ++ after) = trimLeft before ++ after :=
  dropWhile_append_of_solid h after

theorem trimRight_append (before : List Char) {after : List Char} (h : solid after ≠ []) :
    trimRight (before ++ after) = before ++ trimRight after := by
  have hreverse : solid after.reverse ≠ [] := by simpa [solid] using h
  rw [trimRight, List.reverse_append, dropWhile_append_of_solid hreverse, List.reverse_append,
    List.reverse_reverse, trimRight]

/-- Of two texts with something else than white space, trimming reaches each from one side. -/
theorem trim_append {before after : List Char} (hb : solid before ≠ []) (ha : solid after ≠ []) :
    trim (before ++ after) = trimLeft before ++ trimRight after := by
  rw [trim, trimLeft_append hb, trimRight_append _ ha]

theorem trim_concat_of_isBlank {c : Char} (h : isBlank c = true) (cs : List Char) :
    trim (cs ++ [c]) = trim cs := by
  rw [trim, trimLeft, List.dropWhile_append]
  split
  · next hnil =>
    rw [List.isEmpty_iff] at hnil
    simp [trim, trimLeft, hnil, h]
  · rw [trimRight, List.reverse_append, List.reverse_singleton, List.singleton_append,
      List.dropWhile_cons_of_pos h]
    rfl

/-- White space around a text is trimmed away. -/
theorem trim_append_between {before after : List Char} (hb : ∀ c ∈ before, isBlank c = true)
    (ha : ∀ c ∈ after, isBlank c = true) (cs : List Char) :
    trim (before ++ cs ++ after) = trim cs := by
  have hleft : ∀ cs, trim (before ++ cs) = trim cs := by
    intro cs
    induction before with
    | nil => rfl
    | cons c before ih =>
      obtain ⟨hc, hrest⟩ := List.forall_mem_cons.1 hb
      rw [List.cons_append, trim_cons_of_isBlank hc, ih hrest]
  have hright : ∀ cs, trim (cs ++ after) = trim cs := by
    intro cs
    induction after generalizing cs with
    | nil => rw [List.append_nil]
    | cons c after ih =>
      obtain ⟨hc, hrest⟩ := List.forall_mem_cons.1 ha
      rw [List.append_cons, ih hrest, trim_concat_of_isBlank hc]
  rw [hright, hleft]

/-- A text is its trimmed form with white space around it. -/
theorem exists_eq_append_trim (cs : List Char) :
    ∃ before after, (∀ c ∈ before, isBlank c = true) ∧ (∀ c ∈ after, isBlank c = true) ∧
      cs = before ++ trim cs ++ after := by
  refine ⟨cs.takeWhile isBlank, (trimLeft cs).rtakeWhile isBlank, fun c hc => ?_,
    fun c hc => ?_, ?_⟩
  · exact List.mem_takeWhile_imp hc
  · exact List.mem_rtakeWhile_imp hc
  · rw [List.append_assoc, trim, trimRight_eq_rdropWhile, List.rdropWhile_append_rtakeWhile,
      trimLeft, List.takeWhile_append_dropWhile]

theorem head_solid (cs : List Char) : (solid cs).head? = (cs.dropWhile isBlank).head? := by
  rw [← solid_dropWhile]
  cases h : cs.dropWhile isBlank with
  | nil => rfl
  | cons c rest =>
    have hc : isBlank c = false := @head_dropWhile_isBlank cs c (by simp [h])
    simp [solid, hc]

theorem head_solid_of_isTrimmed {cs : List Char} (h : IsTrimmed cs) :
    (solid cs).head? = cs.head? := by
  cases cs with
  | nil => rfl
  | cons c rest => simp [solid, h.head c rfl]

theorem solid_ne_nil_of_trim {cs : List Char} (h : trim cs ≠ []) : solid cs ≠ [] := by
  rw [← solid_trim]
  obtain ⟨c, rest, hcs⟩ := List.exists_cons_of_ne_nil h
  have hc : isBlank c = false := (isTrimmed_trim cs).head c (by rw [hcs]; rfl)
  simp [hcs, solid, hc]

theorem last_solid_of_isTrimmed {cs : List Char} (h : IsTrimmed cs) :
    (solid cs).getLast? = cs.getLast? := by
  rcases List.eq_nil_or_concat cs with rfl | ⟨init, c, rfl⟩
  · rfl
  · have hc : isBlank c = false := h.last c (by simp)
    simp [solid, hc]

theorem not_singleton_prefix_append {c : Char} {l l' : List Char} (h : ¬ [c] <+: l)
    (h' : ¬ [c] <+: l') : ¬ [c] <+: l ++ l' := by
  cases l with
  | nil => exact h'
  | cons d l => simpa [List.cons_prefix_cons] using h

theorem not_singleton_suffix_append {c : Char} {l l' : List Char} (h : ¬ [c] <:+ l)
    (h' : ¬ [c] <:+ l') : ¬ [c] <:+ l ++ l' := by
  rw [List.singleton_suffix_iff_getLast?_eq_some] at h h' ⊢
  rw [List.getLast?_append, Option.or_eq_some_iff]
  rintro (hlast | ⟨-, hlast⟩)
  · exact h' hlast
  · exact h hlast

/-! ## Joining -/

/-- Every part but the first has a separator before it. -/
theorem intercalate_cons (separator : Char) (part : List Char) (parts : List (List Char)) :
    [separator].intercalate (part :: parts) = part ++ parts.flatMap (separator :: ·) := by
  induction parts generalizing part with
  | nil => simp
  | cons next parts ih => simp [List.intercalate_cons_cons, ih]

theorem isTrimmed_intercalate (between : List Char) {parts : List (List Char)}
    (hne : parts ≠ []) (h : ∀ part ∈ parts, IsTrimmed part ∧ part ≠ []) :
    IsTrimmed (between.intercalate parts) ∧ between.intercalate parts ≠ [] := by
  induction parts with
  | nil => exact absurd rfl hne
  | cons part parts ih =>
    obtain ⟨⟨htrimmed, hpart⟩, hparts⟩ := List.forall_mem_cons.1 h
    cases parts with
    | nil => simpa using ⟨htrimmed, hpart⟩
    | cons next parts =>
      obtain ⟨htrimmed', hne'⟩ := ih (by simp) hparts
      rw [List.intercalate_cons_cons]
      refine ⟨?_, by simp [hpart]⟩
      exact htrimmed.append_between htrimmed' hpart hne' between

theorem mem_intercalate {between : List Char} {parts : List (List Char)} {c : Char}
    (h : c ∈ between.intercalate parts) : c ∈ between ∨ ∃ part ∈ parts, c ∈ part := by
  induction parts with
  | nil => simp at h
  | cons part parts ih =>
    cases parts with
    | nil => exact .inr ⟨part, by simp, by simpa using h⟩
    | cons next parts =>
      rw [List.intercalate_cons_cons, List.mem_append, List.mem_append] at h
      rcases h with (h | h) | h
      · exact .inr ⟨part, by simp, h⟩
      · exact .inl h
      · refine (ih h).imp_right ?_
        rintro ⟨part', hpart', hc⟩
        exact ⟨part', List.mem_cons_of_mem _ hpart', hc⟩

/-! ## Replacing characters -/

/-- The second text has, for every character of the first one and in the same order, one or several
characters that the relation allows for it. -/
inductive Expands (R : Char → Char → Prop) : List Char → List Char → Prop where
  | nil : Expands R [] []
  | cons {c : Char} {piece cs ds : List Char} (hne : piece ≠ []) (hpiece : ∀ d ∈ piece, R c d)
      (hrest : Expands R cs ds) : Expands R (c :: cs) (piece ++ ds)

namespace Expands

variable {R : Char → Char → Prop} {cs ds : List Char}

theorem exists_of_mem (h : Expands R cs ds) {d : Char} (hd : d ∈ ds) : ∃ c ∈ cs, R c d := by
  induction h with
  | nil => simp at hd
  | @cons c piece cs ds _ hpiece _ ih =>
    rcases List.mem_append.1 hd with hd | hd
    · exact ⟨c, by simp, hpiece d hd⟩
    · obtain ⟨c', hc', hR⟩ := ih hd
      exact ⟨c', by simp [hc'], hR⟩

theorem eq_nil_iff (h : Expands R cs ds) : ds = [] ↔ cs = [] := by
  cases h with
  | nil => simp
  | cons hne _ _ => simp [hne]

theorem head (h : Expands R cs ds) {d : Char} (hd : ds.head? = some d) :
    ∃ c, cs.head? = some c ∧ R c d := by
  cases h with
  | nil => simp at hd
  | @cons c piece cs ds hne hpiece _ =>
    obtain ⟨first, others, rfl⟩ := List.exists_cons_of_ne_nil hne
    obtain rfl : first = d := by simpa using hd
    exact ⟨c, rfl, hpiece first (by simp)⟩

theorem last (h : Expands R cs ds) {d : Char} (hd : ds.getLast? = some d) :
    ∃ c, cs.getLast? = some c ∧ R c d := by
  induction h with
  | nil => simp at hd
  | @cons c piece cs ds hne hpiece hrest ih =>
    rcases List.eq_nil_or_concat ds with hds | ⟨init, last, hds⟩
    · rw [hrest.eq_nil_iff.1 hds]
      refine ⟨c, rfl, hpiece d (List.mem_of_getLast? ?_)⟩
      simpa [hds] using hd
    · have hlast : ds.getLast? = some d := by
        rw [hds, List.concat_eq_append] at hd ⊢
        rw [← List.append_assoc, List.getLast?_concat] at hd
        rw [List.getLast?_concat, hd]
      obtain ⟨c', hc', hR⟩ := ih hlast
      refine ⟨c', ?_, hR⟩
      cases cs with
      | nil => simp at hc'
      | cons c₁ cs => rw [List.getLast?_cons_cons, hc']

/-- Replacing characters that are no white space by others that are none keeps a text trimmed. -/
theorem isTrimmed (h : Expands R cs ds)
    (hblank : ∀ c d, R c d → isBlank c = false → isBlank d = false) (hcs : IsTrimmed cs) :
    IsTrimmed ds := by
  constructor
  · intro d hd
    obtain ⟨c, hc, hR⟩ := h.head hd
    exact hblank c d hR (hcs.head c hc)
  · intro d hd
    obtain ⟨c, hc, hR⟩ := h.last hd
    exact hblank c d hR (hcs.last c hc)

end Expands

/-- Replacing every character on its own is an expansion. -/
theorem expands_flatMap {f : Char → List Char} (h : ∀ c, f c ≠ []) (cs : List Char) :
    Expands (fun c d => d ∈ f c) cs (cs.flatMap f) := by
  induction cs with
  | nil => exact .nil
  | cons c cs ih => exact .cons (h c) (fun _ hd => hd) ih

end Stylesheet.Text
