import Stylesheet.Proofs.Selector.Fragment
import Stylesheet.Proofs.Text.Lowercase
import Stylesheet.Property

/-!
# Names of properties

The name of a property is the name of the property with that name, and it is clean if the key that
it comes from is.

## Main statements

* `Property.name_name` — taking the name of a property is idempotent.
* `Property.isClean_name` — the name of a property with a clean key is clean.
-/

namespace Stylesheet.Property

open Selector (IsClean)
open Text (Expands IsTrimmed isBlank lower)

/-- What a character of a key may be replaced by when words are separated by dashes. -/
theorem eq_dash_or_eq_of_mem_dashed {c d : Char}
    (h : d ∈ (if c.isUpper then ['-', c] else if c = '_' then ['-'] else [c])) :
    d = '-' ∨ d = c := by
  split at h
  · simpa using h
  · split at h
    · exact .inl (by simpa using h)
    · exact .inr (by simpa using h)

theorem expands_dashed (cs : List Char) :
    Expands (fun c d => d ∈ (if c.isUpper then ['-', c] else if c = '_' then ['-'] else [c])) cs
      (dashed cs) := by
  refine Text.expands_flatMap (fun c => ?_) cs
  split
  · simp
  · split <;> simp

/-- A text without capital letters and underscores has its dashes already. -/
theorem dashed_eq_self {cs : List Char} (h : ∀ c ∈ cs, c.isUpper = false ∧ c ≠ '_') :
    dashed cs = cs := by
  unfold dashed
  induction cs with
  | nil => rfl
  | cons c rest ih =>
    obtain ⟨⟨hupper, hunderscore⟩, hrest⟩ := List.forall_mem_cons.1 h
    rw [List.flatMap_cons, ih hrest]
    simp [hupper, hunderscore]

theorem underscore_notMem_dashed (cs : List Char) : '_' ∉ dashed cs := by
  intro h
  obtain ⟨c, -, hc⟩ := List.mem_flatMap.1 h
  by_cases hupper : c.isUpper = true
  · obtain h | rfl := eq_dash_or_eq_of_mem_dashed hc
    · simp at h
    · simp at hupper
  · by_cases hc' : c = '_' <;> simp [hupper, hc'] at hc
    exact hc' hc.symm

theorem underscore_notMem_cssName (key : String) : '_' ∉ (cssName key).toList := by
  intro h
  rw [cssName, String.toList_ofList] at h
  obtain ⟨c, hc, -, rfl | hletter⟩ := (Text.expands_lower _).exists_of_mem h
  · exact underscore_notMem_dashed _ hc
  · simp [Text.isLetter] at hletter

/-- A name with dashes and in lower case stays as it is. -/
theorem cssName_cssName (key : String) : cssName (cssName key) = cssName key := by
  have hdashed : dashed (cssName key).toList = (cssName key).toList := by
    refine dashed_eq_self fun c hc => ⟨?_, ?_⟩
    · rw [cssName, String.toList_ofList] at hc
      exact Text.isUpper_eq_false_of_isFinal (Text.isFinal_of_mem_lower hc)
    · rintro rfl
      exact underscore_notMem_cssName key hc
  rw [cssName, hdashed]
  simp [cssName, Text.lower_lower]

/-- The name of a property is the name of the property with that name. -/
theorem name_name (isCustom : String → Bool) (key : String) :
    name isCustom (name isCustom key) = name isCustom key := by
  have hdash : ∀ s : String, s.toList.head? = some '-' → name isCustom s = s := by
    intro s hs
    rw [name, if_pos hs]
  by_cases hkey : key.toList.head? = some '-'
  · rw [hdash key hkey, hdash key hkey]
  · have hname : name isCustom key =
        if isCustom (cssName key) then "--" ++ cssName key else cssName key := by
      rw [name, if_neg hkey]
    by_cases hcustom : isCustom (cssName key) = true
    · rw [hname, if_pos hcustom]
      exact hdash _ (by simp)
    · rw [hname, if_neg hcustom, name, cssName_cssName, if_neg hcustom]
      split <;> rfl

/-! ## Clean names -/

theorem isClean_cssName {key : String} (h : IsClean key) : IsClean (cssName key) := by
  have hblankDash : ∀ c d : Char,
      d ∈ (if c.isUpper then ['-', c] else if c = '_' then ['-'] else [c]) →
        isBlank c = false → isBlank d = false := by
    intro c d hd hc
    obtain rfl | rfl := eq_dash_or_eq_of_mem_dashed hd
    · decide
    · exact hc
  have hblankLower : ∀ c d, Text.Lowers c d → isBlank c = false → isBlank d = false := by
    rintro c d ⟨-, rfl | hletter⟩ hc
    · exact hc
    · simp only [Text.isLetter, Bool.and_eq_true, Bool.not_eq_true'] at hletter
      exact hletter.1.1.1
  constructor
  · rw [cssName, String.toList_ofList]
    exact (Text.expands_lower _).isTrimmed hblankLower
      ((expands_dashed _).isTrimmed hblankDash h.trimmed)
  · rw [cssName, String.toList_ofList]
    intro hcomma
    obtain ⟨c, hc, -, rfl | hletter⟩ := (Text.expands_lower _).exists_of_mem hcomma
    · obtain ⟨c, hc, hd⟩ := (expands_dashed _).exists_of_mem hc
      obtain hd | rfl := eq_dash_or_eq_of_mem_dashed hd
      · simp at hd
      · exact h.comma hc
    · simp [Text.isLetter] at hletter

/-- The name of a property with a clean key is clean. -/
theorem isClean_name (isCustom : String → Bool) {key : String} (h : IsClean key) :
    IsClean (name isCustom key) := by
  unfold name
  split
  · exact h
  · have hcss := isClean_cssName h
    split
    · constructor
      · rw [String.toList_append]
        exact IsTrimmed.append (by decide) hcss.trimmed
      · simpa using hcss.comma
    · exact hcss

end Stylesheet.Property
