import Stylesheet.Proofs.Selector.Merge

/-!
# Attaching fragments one by one

Fragments are merged by joining them with gaps and closing the gaps before each of the two marks in
turn, through the whole text.  Here the merged selector is told from the fragments by themselves:
what each of them adds depends on its first character alone.

The joined text is a list of pieces, a gap and a fragment each.  Closing gaps changes every piece by
itself, since no piece but the first starts with white space or ends in a gap, and it gives pieces
of the same kind.  So the statement about one mark serves for both.

## Main definitions

* `Selector.glue` — what a fragment adds to the ones before it.
* `Selector.IsPiece` — the pieces of a joined text.

## Main statements

* `Selector.attach_flatten` — closing gaps, piece by piece.
* `Selector.merge_eq_trimmed_glue` — the selector that a list of fragments stands for.
-/

namespace Stylesheet.Selector

open Text (isBlank trim trimLeft)

/-- What a fragment adds to the ones before it: attached fragments lose the white space after their
mark, and `&` itself; all others are set apart by a space. -/
def glueChars : List Char → List Char
  | '&' :: rest => trimLeft rest
  | ':' :: rest => ':' :: trimLeft rest
  | fragment => ' ' :: fragment

/-- What a fragment adds to the ones before it. -/
def glue (fragment : String) : String :=
  String.ofList (glueChars fragment.toList)

/-! ## Pieces -/

/-- A piece of a joined text: it starts with a gap or with no white space, there is no other gap in
it, and it is not just a gap. -/
structure IsPiece (piece : List Char) : Prop where
  head : ∀ c, piece.head? = some c → isBlank c = false
  gap : Selector.gap ∉ piece.tail
  ne : piece ≠ [Selector.gap]

/-- A piece with its gap closed, if it has one that is before the mark. -/
def closed (mark : Char) (replacement : List Char) : List Char → List Char
  | c :: d :: rest =>
    if c = gap ∧ d = mark then replacement ++ trimLeft rest else c :: d :: rest
  | piece => piece

variable {mark : Char} {replacement : List Char}

theorem closed_gap_of_mark (rest : List Char) :
    closed mark replacement (gap :: mark :: rest) = replacement ++ trimLeft rest :=
  if_pos ⟨rfl, rfl⟩

/-- A piece that does not have the mark after a gap stays as it is. -/
theorem closed_of_kept {piece : List Char}
    (h : ∀ rest, piece ≠ gap :: mark :: rest) : closed mark replacement piece = piece := by
  match piece, h with
  | [], _ => rfl
  | [c], _ => rfl
  | c :: d :: rest, h =>
    refine if_neg ?_
    rintro ⟨rfl, rfl⟩
    exact h rest rfl

/-- Pieces in a row start with no white space. -/
theorem head_flatten {pieces : List (List Char)} (h : ∀ piece ∈ pieces, IsPiece piece) {c : Char}
    (hc : pieces.flatten.head? = some c) : isBlank c = false := by
  induction pieces with
  | nil => cases hc
  | cons piece rest ih =>
    obtain ⟨hpiece, hrest⟩ := List.forall_mem_cons.1 h
    rw [List.flatten_cons, List.head?_append, Option.or_eq_some_iff] at hc
    exact hc.elim (hpiece.head c) fun hc => ih hrest hc.2

/-- The gap that a piece starts with is closed by itself, whatever comes after the piece. -/
theorem attach_piece_append (hreplacement : ∀ c ∈ replacement, isBlank c = false)
    {piece : List Char} (h : IsPiece piece) {cs : List Char}
    (hcs : ∀ c, cs.head? = some c → isBlank c = false) :
    attach mark replacement (piece ++ cs) =
      closed mark replacement piece ++ attach mark replacement cs := by
  by_cases hclosed : ∃ rest, piece = gap :: mark :: rest
  · obtain ⟨rest, rfl⟩ := hclosed
    have hrest : gap ∉ rest := fun hmem => h.gap (List.mem_cons_of_mem _ hmem)
    have hnext : (attach mark replacement cs).dropWhile isBlank = attach mark replacement cs :=
      dropWhile_attach hreplacement hcs
    rw [closed_gap_of_mark, List.cons_append, List.cons_append, attach_gap_of_mark,
      attach_append hrest, List.dropWhile_append, List.append_assoc]
    split
    · next hblank => rw [trimLeft, List.isEmpty_iff.1 hblank, hnext, List.nil_append]
    · rfl
  · rw [closed_of_kept fun rest heq => hclosed ⟨rest, heq⟩]
    rcases piece with _ | ⟨c, _ | ⟨d, rest⟩⟩
    · rfl
    · have hc : c ≠ gap := fun heq => h.ne (congrArg (fun c => [c]) heq)
      exact attach_cons_of_ne hc cs
    · have hkept : ¬ (c = gap ∧ (d :: rest ++ cs).head? = some mark) := by
        rintro ⟨rfl, hmark⟩
        exact hclosed ⟨rest, by rw [Option.some.inj hmark]⟩
      have htail : gap ∉ d :: rest := h.gap
      rw [List.cons_append, attach_of_kept hkept, attach_append htail]
      rfl

/-- Closing gaps changes every piece by itself. -/
theorem attach_flatten (hreplacement : ∀ c ∈ replacement, isBlank c = false)
    {pieces : List (List Char)} (h : ∀ piece ∈ pieces, IsPiece piece) :
    attach mark replacement pieces.flatten = (pieces.map (closed mark replacement)).flatten := by
  induction pieces with
  | nil => rfl
  | cons piece rest ih =>
    obtain ⟨hpiece, hrest⟩ := List.forall_mem_cons.1 h
    rw [List.flatten_cons, attach_piece_append hreplacement hpiece fun c => head_flatten hrest,
      ih hrest, List.map_cons, List.flatten_cons]

/-! ## Fragments -/

variable {fragment : List Char}

theorem isPiece_gap_cons (hne : fragment ≠ []) (hgap : gap ∉ fragment) :
    IsPiece (gap :: fragment) where
  head c hc := by
    cases hc
    exact isBlank_gap
  gap := hgap
  ne heq := hne (List.cons.inj heq).2

/-- Closing the gap before `&` leaves a piece. -/
theorem isPiece_closed (hne : fragment ≠ []) (hgap : gap ∉ fragment) :
    IsPiece (closed '&' [] (gap :: fragment)) := by
  by_cases hmark : ∃ rest, fragment = '&' :: rest
  · obtain ⟨rest, rfl⟩ := hmark
    have hrest : gap ∉ trimLeft rest :=
      fun hmem => hgap (List.mem_cons_of_mem _ (List.dropWhile_subset isBlank hmem))
    rw [closed_gap_of_mark, List.nil_append]
    refine ⟨fun c hc => Text.head_dropWhile_isBlank hc, fun hmem => ?_, fun heq => ?_⟩
    · exact hrest (List.mem_of_mem_tail hmem)
    · exact hrest (heq ▸ List.mem_singleton_self gap)
  · rw [closed_of_kept fun rest heq => hmark ⟨rest, (List.cons.inj heq).2⟩]
    exact isPiece_gap_cons hne hgap

/-- What is left of a gap and a fragment once both marks have been gone through. -/
theorem spaced_closed_closed (hgap : gap ∉ fragment) :
    spaced (closed ':' [':'] (closed '&' [] (gap :: fragment))) = glueChars fragment := by
  unfold glueChars
  split
  · next rest =>
    have hrest : gap ∉ trimLeft rest :=
      fun hmem => hgap (List.mem_cons_of_mem _ (List.dropWhile_subset isBlank hmem))
    rw [closed_gap_of_mark, List.nil_append, closed_of_kept, spaced_of_gap_notMem hrest]
    rintro others heq
    exact hrest (heq ▸ List.mem_cons_self)
  · next rest =>
    have hrest : gap ∉ ':' :: trimLeft rest := by
      rw [List.mem_cons, not_or]
      exact ⟨by decide, fun hmem =>
        hgap (List.mem_cons_of_mem _ (List.dropWhile_subset isBlank hmem))⟩
    have hkept : closed '&' [] (gap :: ':' :: rest) = gap :: ':' :: rest := closed_of_kept (by simp)
    rw [hkept, closed_gap_of_mark, List.singleton_append, spaced_of_gap_notMem hrest]
  · next hand hcolon =>
    have hkept : closed '&' [] (gap :: fragment) = gap :: fragment :=
      closed_of_kept fun rest heq => hand rest (List.cons.inj heq).2
    rw [hkept, closed_of_kept fun rest heq => hcolon rest (List.cons.inj heq).2,
      ← List.singleton_append, spaced_append, spaced_of_gap_notMem hgap]
    rfl

/-- Fragments that are joined with gaps, once both marks have been gone through. -/
theorem spaced_attach_fragments {fragments : List (List Char)} (hne : ∀ f ∈ fragments, f ≠ [])
    (hgap : ∀ f ∈ fragments, gap ∉ f) :
    spaced (attach ':' [':'] (attach '&' [] (fragments.flatMap (gap :: ·)))) =
      fragments.flatMap glueChars := by
  have hpieces : ∀ piece ∈ fragments.map (gap :: ·), IsPiece piece := by
    rw [List.forall_mem_map]
    exact fun f hf => isPiece_gap_cons (hne f hf) (hgap f hf)
  have hpieces' : ∀ piece ∈ (fragments.map (gap :: ·)).map (closed '&' []), IsPiece piece := by
    rw [List.map_map, List.forall_mem_map]
    exact fun f hf => isPiece_closed (hne f hf) (hgap f hf)
  have hcolon : ∀ c ∈ [':'], isBlank c = false := List.forall_mem_singleton.2 (by decide)
  rw [List.flatMap_def, attach_flatten (List.forall_mem_nil _) hpieces,
    attach_flatten hcolon hpieces', spaced, List.map_flatten, List.map_map, List.map_map,
    List.map_map, List.flatMap_def]
  exact congrArg List.flatten (List.map_congr_left fun f hf => spaced_closed_closed (hgap f hf))

/-! ## Merging -/

/-- Fragments are merged by adding to the first one what each of the others adds.  None of these may
be empty, and none of them all may hold the character that marks gaps. -/
theorem merge_eq_trimmed_glue :
    merge [] = "" ∧ ∀ (first : String) (rest : List String),
      (∀ fragment ∈ first :: rest, gap ∉ fragment.toList) → (∀ fragment ∈ rest, fragment ≠ "") →
        merge (first :: rest) = trimmed (first ++ String.join (rest.map glue)) := by
  refine ⟨rfl, fun first rest hgap hne => ?_⟩
  obtain ⟨hfirst, hrest⟩ := List.forall_mem_cons.1 hgap
  have hfragments : ∀ f ∈ rest.map String.toList, f ≠ [] ∧ gap ∉ f := by
    rw [List.forall_mem_map]
    exact fun f hf => ⟨by simpa using hne f hf, hrest f hf⟩
  have hglued : (String.join (rest.map glue)).toList =
      (rest.map String.toList).flatMap glueChars := by
    rw [String.toList_join, List.flatMap_map, List.flatMap_map]
    simp only [glue, String.toList_ofList]
  rw [merge, trimmed, List.map_cons, mergeChars_eq, intercalate_gap, attach_append hfirst,
    attach_append hfirst, spaced_append, spaced_of_gap_notMem hfirst,
    spaced_attach_fragments (fun f hf => (hfragments f hf).1) fun f hf => (hfragments f hf).2,
    String.toList_append, hglued]

theorem merge_eq_trimmed_glue_marked :
    merge [" :a", ": ", "& :b", "& ", ":\t c", "d &"] = ":a::b:c d &" :=
  (merge_eq_trimmed_glue.2 " :a" [": ", "& :b", "& ", ":\t c", "d &"] (by decide +kernel)
    (by decide +kernel)).trans (by decide +kernel)

end Stylesheet.Selector
