import Stylesheet.Proofs.Text.Trim
import Stylesheet.Selector.Merge

/-!
# What merging keeps

Merging drops the marks with which parts are attached and rearranges white space, and nothing else.
So the characters of a merged selector, apart from white space, are those of its parts one after the
other, and what the selector starts and ends with is told by the parts alone.

## Main definitions

* `Selector.withoutMark` — a part without the mark that attaches it.

## Main statements

* `Selector.solid_mergeChars` — the characters of a merged selector.
* `Selector.mergeChars_singleton` — a trimmed part without gaps stands for itself.
-/

namespace Stylesheet.Selector

open Text (isBlank solid trim IsTrimmed)

variable {mark : Char} {replacement : List Char}

theorem isBlank_gap : isBlank gap = false := by decide

/-! ## Closing gaps -/

theorem attach_cons_of_ne {c : Char} (h : c ≠ gap) (cs : List Char) :
    attach mark replacement (c :: cs) = c :: attach mark replacement cs := by
  cases cs with
  | nil => rfl
  | cons d rest => rw [attach, if_neg fun hmark => h hmark.1]

theorem attach_gap_of_mark (cs : List Char) :
    attach mark replacement (gap :: mark :: cs) =
      replacement ++ (attach mark replacement cs).dropWhile isBlank := by
  rw [attach, if_pos ⟨rfl, rfl⟩]

theorem attach_gap_of_ne {cs : List Char} (h : cs.head? ≠ some mark) :
    attach mark replacement (gap :: cs) = gap :: attach mark replacement cs := by
  cases cs with
  | nil => rfl
  | cons d rest => rw [attach, if_neg fun hmark => h (by simp [hmark.2])]

/-- What holds no gap is left alone, and nothing else depends on it. -/
theorem attach_append {cs : List Char} (h : gap ∉ cs) (cs' : List Char) :
    attach mark replacement (cs ++ cs') = cs ++ attach mark replacement cs' := by
  induction cs with
  | nil => rfl
  | cons c rest ih =>
    obtain ⟨hc, hrest⟩ := not_or.1 (mt List.mem_cons.2 h)
    rw [List.cons_append, attach_cons_of_ne (Ne.symm hc), ih hrest]
    rfl

/-- Induction on a text along the gaps in it that are closed. -/
@[elab_as_elim]
theorem attach_induction {motive : List Char → Prop} (mark : Char) (nil : motive [])
    (closed : ∀ cs, motive cs → motive (gap :: mark :: cs))
    (kept : ∀ c cs, ¬ (c = gap ∧ cs.head? = some mark) → motive cs → motive (c :: cs))
    (cs : List Char) : motive cs := by
  fun_induction attach mark [] cs with
  | case1 => exact nil
  | case2 c => exact kept c [] (by simp) nil
  | case3 c d rest hmark ih =>
    obtain ⟨rfl, rfl⟩ := hmark
    exact closed rest ih
  | case4 c d rest hmark ih => exact kept c (d :: rest) (by simpa using hmark) ih

theorem attach_of_kept {c : Char} {cs : List Char} (h : ¬ (c = gap ∧ cs.head? = some mark)) :
    attach mark replacement (c :: cs) = c :: attach mark replacement cs := by
  by_cases hc : c = gap
  · subst hc
    exact attach_gap_of_ne fun hmark => h ⟨rfl, hmark⟩
  · exact attach_cons_of_ne hc cs

theorem mem_attach {cs : List Char} {c : Char} (h : c ∈ attach mark replacement cs) :
    c ∈ cs ∨ c ∈ replacement := by
  induction cs using attach_induction mark with
  | nil => exact .inl h
  | closed cs ih =>
    rw [attach_gap_of_mark] at h
    rcases List.mem_append.1 h with h | h
    · exact .inr h
    · exact (ih (List.dropWhile_subset isBlank h)).imp (by simp_all) id
  | kept d cs hd ih =>
    rw [attach_of_kept hd] at h
    rcases List.mem_cons.1 h with rfl | h
    · exact .inl (by simp)
    · exact (ih h).imp (List.mem_cons_of_mem d) id

/-- Closing gaps leaves no white space at the front of a text that has none there. -/
theorem dropWhile_attach (hreplacement : ∀ c ∈ replacement, isBlank c = false) {cs : List Char}
    (h : ∀ c, cs.head? = some c → isBlank c = false) :
    (attach mark replacement cs).dropWhile isBlank = attach mark replacement cs := by
  cases cs using attach_induction mark with
  | nil => rfl
  | closed cs _ =>
    rw [attach_gap_of_mark]
    cases replacement with
    | nil => exact List.dropWhile_idempotent _ _
    | cons c rest => exact List.dropWhile_cons_of_neg (by simp [hreplacement c])
  | kept c cs hc _ =>
    rw [attach_of_kept hc]
    exact List.dropWhile_cons_of_neg (by simp [h c rfl])

/-- What starts neither with white space nor with the mark does not depend on what stands before
it, nor the other way round. -/
theorem attach_append_of_head (hreplacement : ∀ c ∈ replacement, isBlank c = false)
    {cs' : List Char} (h : ∀ c, cs'.head? = some c → isBlank c = false ∧ c ≠ mark)
    (cs : List Char) :
    attach mark replacement (cs ++ cs') =
      attach mark replacement cs ++ attach mark replacement cs' := by
  have hdrop : (attach mark replacement cs').dropWhile isBlank = attach mark replacement cs' :=
    dropWhile_attach hreplacement fun c hc => (h c hc).1
  induction cs using attach_induction mark with
  | nil => rfl
  | closed cs ih =>
    rw [List.cons_append, List.cons_append, attach_gap_of_mark, attach_gap_of_mark, ih,
      List.append_assoc, List.dropWhile_append]
    split
    · next hnil => rw [hdrop, List.isEmpty_iff.1 hnil, List.nil_append]
    · rfl
  | kept c cs hc ih =>
    have hkept : ¬ (c = gap ∧ (cs ++ cs').head? = some mark) := by
      rintro ⟨hgap, hmark⟩
      rw [List.head?_append, Option.or_eq_some_iff] at hmark
      exact hmark.elim (fun hmark => hc ⟨hgap, hmark⟩) fun hmark => (h _ hmark.2).2 rfl
    rw [List.cons_append, attach_of_kept hkept, attach_of_kept hc, ih, List.cons_append]

/-! ## Characters apart from white space -/

/-- A text with spaces for the gaps that are left. -/
def spaced (cs : List Char) : List Char :=
  cs.map fun c => if c = gap then ' ' else c

theorem spaced_append (cs cs' : List Char) : spaced (cs ++ cs') = spaced cs ++ spaced cs' :=
  List.map_append

theorem spaced_of_gap_notMem {cs : List Char} (h : gap ∉ cs) : spaced cs = cs := by
  have hkept : ∀ c ∈ cs, (if c = gap then ' ' else c) = id c := by
    intro c hc
    have hne : c ≠ gap := by
      rintro rfl
      exact h hc
    rw [if_neg hne, id]
  rw [spaced, List.map_congr_left hkept, List.map_id]

theorem solid_spaced_gap_cons (cs : List Char) :
    solid (spaced (gap :: cs)) = solid (spaced cs) := by
  have hspace : isBlank ' ' = true := by decide
  simp [spaced, solid, hspace]

theorem solid_spaced_dropWhile (cs : List Char) :
    solid (spaced (cs.dropWhile isBlank)) = solid (spaced cs) := by
  induction cs with
  | nil => rfl
  | cons c rest ih =>
    by_cases hc : isBlank c = true
    · have hne : c ≠ gap := by
        rintro rfl
        simp [isBlank_gap] at hc
      rw [List.dropWhile_cons_of_pos hc, ih]
      simp [spaced, solid, hne, hc]
    · rw [List.dropWhile_cons_of_neg hc]

/-- A mark that stays only loses the white space around it. -/
theorem solid_attach_self (mark : Char) (cs : List Char) :
    solid (spaced (attach mark [mark] cs)) = solid (spaced cs) := by
  induction cs using attach_induction mark with
  | nil => rfl
  | closed cs ih =>
    rw [attach_gap_of_mark, spaced_append, Text.solid_append, solid_spaced_dropWhile, ih,
      solid_spaced_gap_cons, ← Text.solid_append, ← spaced_append]
    rfl
  | kept c cs hc ih =>
    rw [attach_of_kept hc, ← List.singleton_append, spaced_append, Text.solid_append, ih,
      ← Text.solid_append, ← spaced_append]
    rfl

/-! ## Merging -/

/-- A part without the mark that attaches it to the one before it. -/
def withoutMark : List Char → List Char
  | '&' :: rest => rest
  | part => part

theorem withoutMark_of_head {part : List Char} (h : part.head? ≠ some '&') :
    withoutMark part = part := by
  unfold withoutMark
  split
  · simp at h
  · rfl

theorem mergeChars_eq (parts : List (List Char)) :
    mergeChars parts =
      trim (spaced (attach ':' [':'] (attach '&' [] ([gap].intercalate parts)))) := rfl

theorem intercalate_gap (part : List Char) (parts : List (List Char)) :
    [gap].intercalate (part :: parts) = part ++ parts.flatMap (gap :: ·) :=
  Text.intercalate_cons gap part parts

theorem intercalate_gap_append {parts : List (List Char)} (h : parts ≠ [])
    (others : List (List Char)) :
    [gap].intercalate (parts ++ others) = [gap].intercalate parts ++ others.flatMap (gap :: ·) := by
  obtain ⟨part, rest, rfl⟩ := List.exists_cons_of_ne_nil h
  rw [List.cons_append, intercalate_gap, intercalate_gap, List.flatMap_append, List.append_assoc]

theorem head_flatMap_gap {parts : List (List Char)} {c : Char}
    (h : (parts.flatMap (gap :: ·)).head? = some c) : c = gap := by
  cases parts with
  | nil => simp at h
  | cons part parts => simpa [eq_comm] using h

theorem head_append_flatMap_gap {mark : Char} (hgap : gap ≠ mark) {part : List Char}
    (h : part.head? ≠ some mark) (parts : List (List Char)) :
    (part ++ parts.flatMap (gap :: ·)).head? ≠ some mark := by
  rw [List.head?_append, ne_eq, Option.or_eq_some_iff]
  rintro (hhead | ⟨-, hhead⟩)
  · exact h hhead
  · exact hgap (head_flatMap_gap hhead).symm

/-- The characters of a part that follows others, without the mark that attaches it. -/
theorem solid_attach_part {part : List Char} (h : gap ∉ part) (parts : List (List Char)) :
    solid (spaced (attach '&' [] (gap :: (part ++ parts.flatMap (gap :: ·))))) =
      solid (withoutMark part) ++ solid (spaced (attach '&' [] (parts.flatMap (gap :: ·)))) := by
  by_cases hmark : part.head? = some '&'
  · obtain ⟨rest, rfl⟩ := List.head?_eq_some_iff.1 hmark
    have hrest : gap ∉ rest := fun hgap => h (List.mem_cons_of_mem _ hgap)
    rw [List.cons_append, attach_gap_of_mark, List.nil_append, solid_spaced_dropWhile,
      attach_append hrest, spaced_append, Text.solid_append, spaced_of_gap_notMem hrest]
    rfl
  · rw [attach_gap_of_ne (head_append_flatMap_gap (by decide) hmark parts), solid_spaced_gap_cons,
      attach_append h, spaced_append, Text.solid_append, spaced_of_gap_notMem h,
      withoutMark_of_head hmark]

theorem solid_attach_parts {parts : List (List Char)} (h : ∀ part ∈ parts, gap ∉ part) :
    solid (spaced (attach '&' [] (parts.flatMap (gap :: ·)))) =
      parts.flatMap fun part => solid (withoutMark part) := by
  induction parts with
  | nil => rfl
  | cons part parts ih =>
    obtain ⟨hpart, hparts⟩ := List.forall_mem_cons.1 h
    rw [List.flatMap_cons, List.flatMap_cons, List.cons_append, solid_attach_part hpart, ih hparts]

/-- The characters of a merged selector are those of its parts, without the marks that attach
them. -/
theorem solid_mergeChars {part : List Char} {parts : List (List Char)}
    (h : ∀ p ∈ part :: parts, gap ∉ p) :
    solid (mergeChars (part :: parts)) =
      solid part ++ parts.flatMap fun part => solid (withoutMark part) := by
  obtain ⟨hpart, hparts⟩ := List.forall_mem_cons.1 h
  rw [mergeChars_eq, Text.solid_trim, solid_attach_self, intercalate_gap, attach_append hpart,
    spaced_append, Text.solid_append, spaced_of_gap_notMem hpart, solid_attach_parts hparts]

theorem isTrimmed_mergeChars (parts : List (List Char)) : IsTrimmed (mergeChars parts) :=
  Text.isTrimmed_trim _

/-- Every character of a merged selector comes from a part, or is the mark that stays or a space. -/
theorem mem_mergeChars {parts : List (List Char)} {c : Char} (h : c ∈ mergeChars parts) :
    (∃ part ∈ parts, c ∈ part) ∨ c = ':' ∨ c = ' ' := by
  obtain ⟨d, hd, rfl⟩ := List.mem_map.1 (Text.mem_of_mem_trim h)
  by_cases hgap : d = gap
  · exact .inr (.inr (if_pos hgap))
  · rw [if_neg hgap]
    rcases mem_attach hd with hd | hd
    · rcases mem_attach hd with hd | hd
      · left
        cases parts with
        | nil => simp at hd
        | cons part parts =>
          rw [intercalate_gap, List.mem_append, List.mem_flatMap] at hd
          rcases hd with hd | ⟨next, hnext, hd⟩
          · exact ⟨part, by simp, hd⟩
          · exact ⟨next, by simp [hnext], (List.mem_cons.1 hd).resolve_left hgap⟩
      · simp at hd
    · exact .inr (.inl (List.mem_singleton.1 hd))

/-- A merged selector has no gaps. -/
theorem gap_notMem_mergeChars (parts : List (List Char)) : gap ∉ mergeChars parts := by
  intro h
  obtain ⟨d, -, hd⟩ := List.mem_map.1 (Text.mem_of_mem_trim h)
  by_cases hgap : d = gap
  · rw [if_pos hgap] at hd
    exact absurd hd (by decide)
  · rw [if_neg hgap] at hd
    exact hgap hd

/-- A trimmed part without gaps stands for itself. -/
theorem mergeChars_singleton {part : List Char} (ht : IsTrimmed part) (h : gap ∉ part) :
    mergeChars [part] = part := by
  have hjoined : [gap].intercalate [part] = part := by simp
  rw [mergeChars_eq, hjoined, attach_of_gap_notMem h, attach_of_gap_notMem h,
    spaced_of_gap_notMem h, Text.trim_eq_of_isTrimmed ht]

end Stylesheet.Selector
