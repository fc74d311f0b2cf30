import Stylesheet.Proofs.Text.Trim
import Stylesheet.Selector.Fragment

/-!
# Fragments of keys

A key that is trimmed and has no commas is a fragment already, and the fragments of any key are of
this form.

## Main definitions

* `Selector.IsClean` — keys that are trimmed and have no commas.

## Main statements

* `Selector.isClean_of_mem_fragments`, `Selector.fragments_of_isClean` — the fragments of a key are
  clean, and a clean key is its only fragment.
-/

namespace Stylesheet.Selector

open Text (IsTrimmed trim fields)

/-- A key that is trimmed and has no commas. -/
structure IsClean (key : String) : Prop where
  trimmed : IsTrimmed key.toList
  comma : ',' ∉ key.toList

theorem isClean_empty : IsClean "" := ⟨Text.isTrimmed_nil, by simp⟩

/-- A clean key is its only fragment. -/
theorem fragments_of_isClean {key : String} (h : IsClean key) : fragments key = [key] := by
  unfold fragments
  split
  · next hempty => rw [hempty]
  · next hne =>
    have hnil : key.toList ≠ [] := by simpa using hne
    rw [Text.fields_eq_of_notMem h.comma, List.map_singleton,
      Text.trim_eq_of_isTrimmed h.trimmed]
    simp [hnil]

/-- The fragments of a key are clean. -/
theorem isClean_of_mem_fragments {key fragment : String} (h : fragment ∈ fragments key) :
    IsClean fragment := by
  unfold fragments at h
  split at h
  · rw [List.mem_singleton.1 h]
    exact isClean_empty
  · simp only [List.mem_map, List.mem_filter] at h
    obtain ⟨-, ⟨⟨part, hpart, rfl⟩, -⟩, rfl⟩ := h
    constructor
    · simpa using Text.isTrimmed_trim part
    · intro hcomma
      refine Text.separator_notMem_of_mem_fields hpart ?_
      exact Text.mem_of_mem_trim (by simpa using hcomma)

end Stylesheet.Selector
