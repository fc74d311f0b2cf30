import Stylesheet.Proofs.Text.Trim
import Stylesheet.Text.Lowercase

/-!
# Lower case is final

A text in lower case stays as it is, and nothing but letters has been put into it.  Which characters
lower case puts in is read off the case table once, run by run, by `shifts_checked`; the rest is
about texts.

## Main definitions

* `IsFinal` — characters that lower case leaves alone wherever they stand.
* `isLetter` — characters without a meaning of their own in selectors and names.

## Main statements

* `expands_lower` — lower case replaces every character by letters, unless it keeps it.
* `lower_lower` — lower case is idempotent.
* `lower_of_ascii` — lower case of a text of ASCII.
-/

namespace Stylesheet.Text

/-- A character that lower case leaves alone wherever it stands: one in no run of the case table,
and not the letter that has a rule of its own. -/
structure IsFinal (c : Char) : Prop where
  ne_dotted : c ≠ 'İ'
  not_has : ∀ run ∈ lowerShifts, run.has c = false

/-- Whether a character is neither white space nor a comma, an underscore or a capital letter of
ASCII. -/
def isLetter (c : Char) : Bool :=
  !isBlank c && c != ',' && c != '_' && !c.isUpper

/-- What lower case may put in the place of a character: itself, if lower case leaves it alone, or a
letter. -/
def Lowers (c d : Char) : Prop :=
  IsFinal d ∧ (d = c ∨ isLetter d = true)

/-! ## The case table -/

/-- The code points that no lower-case form of one character has: those of a comma, an underscore, a
capital letter with a rule of its own and white space, and those of no character. -/
def reserved : CodeRanges :=
  (0x2c, 0x2c) :: (0x5f, 0x5f) :: (0x130, 0x130) :: (0xd800, 0xdfff) :: blankRanges

namespace CaseShift

/-- The code point of the lower-case form of the first character of a run. -/
def lowest (run : CaseShift) : Nat :=
  (run.first + run.shift).toNat

/-- The code point of the lower-case form of the last character of a run. -/
def highest (run : CaseShift) : Nat :=
  (run.last + run.shift).toNat

/-- Whether no character of a run has its lower-case form in a range of code points. -/
def misses (run : CaseShift) (range : Nat × Nat) : Bool :=
  Nat.blt run.highest range.1 || Nat.blt range.2 run.lowest

/-- Whether no character of a run has its lower-case form in another run.  Where the two cross, they
go through the code points by twos, and one is ahead of the other. -/
def avoids (run other : CaseShift) : Bool :=
  run.misses (other.first, other.last) ||
    (run.stride == 2 || run.first == run.last) && other.stride == 2 &&
      (run.lowest + other.first) % 2 == 1

/-- Whether the lower-case forms of a run are characters that are not reserved and in no run. -/
def isChecked (run : CaseShift) : Bool :=
  (decide (0 ≤ run.first + run.shift) && Nat.blt run.highest 0x110000) &&
    (reserved.all run.misses && lowerShifts.all run.avoids)

variable {run : CaseShift} {c d : Char}

theorem le_of_has (h : run.has c = true) :
    run.first ≤ c.toNat ∧ c.toNat ≤ run.last ∧ (c.toNat - run.first) % run.stride = 0 := by
  simpa [has, and_assoc] using h

theorem not_mem_of_misses {range : Nat × Nat} (hrun : run.misses range = true)
    (hc : run.has c = true) (hd : (d.toNat : Int) = c.toNat + run.shift) :
    ¬ (range.1 ≤ d.toNat ∧ d.toNat ≤ range.2) := by
  obtain ⟨hfirst, hlast, -⟩ := le_of_has hc
  have hlow : run.lowest ≤ d.toNat := by unfold lowest; omega
  have hhigh : d.toNat ≤ run.highest := by unfold highest; omega
  simp only [misses, Bool.or_eq_true, Nat.blt_eq] at hrun
  omega

theorem not_has_of_avoids {other : CaseShift} (hpos : 0 ≤ run.first + run.shift)
    (hrun : run.avoids other = true) (hc : run.has c = true)
    (hd : (d.toNat : Int) = c.toNat + run.shift) : other.has d = false := by
  rw [Bool.eq_false_iff]
  intro hother
  obtain ⟨hfirst', hlast', hstride'⟩ := le_of_has hother
  rcases Bool.or_eq_true_iff.1 hrun with hmisses | hparity
  · exact not_mem_of_misses hmisses hc hd ⟨hfirst', hlast'⟩
  · obtain ⟨hfirst, hlast, hstride⟩ := le_of_has hc
    simp only [lowest, Bool.and_eq_true, Bool.or_eq_true, beq_iff_eq] at hparity
    -- The two code points are in different classes modulo two, so the strides never meet.
    obtain ⟨⟨htwo | hsingle, htwo'⟩, hparity⟩ := hparity
    · rw [htwo] at hstride
      rw [htwo'] at hstride'
      omega
    · rw [htwo'] at hstride'
      omega

end CaseShift

theorem shifts_checked : lowerShifts.all CaseShift.isChecked = true := by
  decide +kernel

/-! ## Single characters -/

theorem lowerChar_of_isFinal {c : Char} (h : IsFinal c) : lowerChar c = [c] := by
  have hfind : lowerShifts.find? (·.has c) = none := List.find?_eq_none.2 (by simpa using h.not_has)
  rw [lowerChar, if_neg h.ne_dotted, hfind]

theorem ne_sigma_of_isFinal {c : Char} (h : IsFinal c) : c ≠ 'Σ' := by
  have hsigma : ∃ run ∈ lowerShifts, run.has 'Σ' = true := by decide +kernel
  obtain ⟨run, hrun, hhas⟩ := hsigma
  rintro rfl
  simp [h.not_has run hrun] at hhas

/-- No capital letter of ASCII is final. -/
theorem isUpper_eq_false_of_isFinal {c : Char} (h : IsFinal c) : c.isUpper = false := by
  have hascii := h.not_has ⟨0x41, 0x5a, 1, 32⟩ (List.mem_cons_self ..)
  rw [Bool.eq_false_iff] at hascii ⊢
  intro hupper
  have hrange : 65 ≤ c.val ∧ c.val ≤ 90 := of_decide_eq_true hupper
  rw [UInt32.le_iff_toNat_le, UInt32.le_iff_toNat_le] at hrange
  exact hascii (by simpa [CaseShift.has, Nat.mod_one] using hrange)

/-- The lower-case form of a character in a run is a letter, which no run changes again. -/
theorem lowers_shifted {run : CaseShift} (hrun : run ∈ lowerShifts) {c : Char}
    (hc : run.has c = true) : Lowers c (Char.ofNat (c.toNat + run.shift).toNat) := by
  have hchecked := List.all_eq_true.1 shifts_checked run hrun
  simp only [CaseShift.isChecked, Bool.and_eq_true, decide_eq_true_eq, Nat.blt_eq,
    List.all_eq_true] at hchecked
  obtain ⟨⟨hpos, hhighest⟩, hreserved, hruns⟩ := hchecked
  obtain ⟨hfirst, hlast, -⟩ := CaseShift.le_of_has hc
  have hcode : ((c.toNat + run.shift).toNat : Int) = c.toNat + run.shift := by omega
  generalize hd : Char.ofNat (c.toNat + run.shift).toNat = d
  have hvalid : (c.toNat + run.shift).toNat.isValidChar := by
    have hsurrogate := hreserved (0xd800, 0xdfff) (by simp [reserved])
    simp only [CaseShift.misses, CaseShift.lowest, CaseShift.highest, Bool.or_eq_true,
      Nat.blt_eq] at hsurrogate hhighest
    unfold Nat.isValidChar
    omega
  have hshift : (d.toNat : Int) = c.toNat + run.shift := by
    have hofNat : (Char.ofNat (c.toNat + run.shift).toNat).toNat = (c.toNat + run.shift).toNat := by
      rw [Char.ofNat, dif_pos hvalid]
      rfl
    rw [← hd, hofNat, hcode]
  have hnot : ∀ range ∈ reserved, ¬ (range.1 ≤ d.toNat ∧ d.toNat ≤ range.2) :=
    fun range hrange => CaseShift.not_mem_of_misses (hreserved range hrange) hc hshift
  have hhas : ∀ other ∈ lowerShifts, other.has d = false :=
    fun other hother => CaseShift.not_has_of_avoids hpos (hruns other hother) hc hshift
  have hblank : isBlank d = false := by
    rw [Bool.eq_false_iff, isBlank, ne_eq, CodeRanges.has_eq_true_iff]
    rintro ⟨range, hrange, hmem⟩
    exact hnot range (by simp [reserved, hrange]) hmem
  have hplain : ∀ n, (n, n) ∈ reserved → d.toNat ≠ n := by
    rintro n hn rfl
    exact hnot _ hn ⟨le_rfl, le_rfl⟩
  have hcomma : d ≠ ',' := fun h => hplain 0x2c (by simp [reserved]) (h ▸ rfl)
  have hunderscore : d ≠ '_' := fun h => hplain 0x5f (by simp [reserved]) (h ▸ rfl)
  have hdotted : d ≠ 'İ' := fun h => hplain 0x130 (by simp [reserved]) (h ▸ rfl)
  have hfinal : IsFinal d := ⟨hdotted, hhas⟩
  refine ⟨hfinal, .inr ?_⟩
  simp [isLetter, hblank, hcomma, hunderscore, isUpper_eq_false_of_isFinal hfinal]

/-- The letters that take the place of the two letters with rules of their own. -/
theorem special_checked : ['i', '\u0307', 'ς', 'σ'].all (fun d =>
    d != 'İ' && lowerShifts.all (!·.has d) && isLetter d) = true := by
  decide +kernel

theorem lowers_special (c : Char) {d : Char} (h : d ∈ ['i', '\u0307', 'ς', 'σ']) : Lowers c d := by
  have hchecked := List.all_eq_true.1 special_checked d h
  simp only [Bool.and_eq_true, bne_iff_ne, List.all_eq_true, Bool.not_eq_true'] at hchecked
  obtain ⟨⟨hdotted, hhas⟩, hletter⟩ := hchecked
  exact ⟨⟨hdotted, hhas⟩, .inr hletter⟩

theorem lowers_of_mem_lowerChar {c d : Char} (h : d ∈ lowerChar c) : Lowers c d := by
  unfold lowerChar at h
  split at h
  · refine lowers_special c ?_
    rcases List.mem_pair.1 h with rfl | rfl <;> simp
  · next hdotted =>
    split at h
    · next run hrun =>
      rw [List.mem_singleton.1 h]
      have hhas : run.has c = true := by simpa using List.find?_some hrun
      exact lowers_shifted (List.mem_of_find?_eq_some hrun) hhas
    · next hnone =>
      obtain rfl := List.mem_singleton.1 h
      exact ⟨⟨hdotted, by simpa using hnone⟩, .inl rfl⟩

theorem lowerChar_ne_nil (c : Char) : lowerChar c ≠ [] := by
  unfold lowerChar
  split
  · simp
  · split <;> simp

/-! ## Texts -/

theorem expands_lowerAfter (cased : Bool) (cs : List Char) :
    Expands Lowers cs (lowerAfter cased cs) := by
  induction cs generalizing cased with
  | nil => exact .nil
  | cons c rest ih =>
    rw [lowerAfter]
    refine .cons ?_ ?_ (ih _)
    · split
      · simp
      · exact lowerChar_ne_nil c
    · intro d hd
      split at hd
      · refine lowers_special c ?_
        rw [List.mem_singleton.1 hd]
        split <;> simp
      · exact lowers_of_mem_lowerChar hd

/-- Lower case replaces every character by letters, unless it keeps it. -/
theorem expands_lower (cs : List Char) : Expands Lowers cs (lower cs) :=
  expands_lowerAfter false cs

theorem lowerAfter_of_isFinal (cased : Bool) {cs : List Char} (h : ∀ c ∈ cs, IsFinal c) :
    lowerAfter cased cs = cs := by
  induction cs generalizing cased with
  | nil => rfl
  | cons c rest ih =>
    obtain ⟨hc, hrest⟩ := List.forall_mem_cons.1 h
    rw [lowerAfter, if_neg (ne_sigma_of_isFinal hc), lowerChar_of_isFinal hc, ih _ hrest]
    rfl

theorem isFinal_of_mem_lower {cs : List Char} {d : Char} (h : d ∈ lower cs) : IsFinal d := by
  obtain ⟨c, -, hlowers⟩ := (expands_lower cs).exists_of_mem h
  exact hlowers.1

/-- Lower case is idempotent. -/
theorem lower_lower (cs : List Char) : lower (lower cs) = lower cs :=
  lowerAfter_of_isFinal false fun _ hd => isFinal_of_mem_lower hd

/-! ## ASCII -/

theorem lowerChar_of_ascii {c : Char} (h : c.toNat < 128) : lowerChar c = [c.toLower] := by
  have hchecked : ∀ n < 128, lowerChar (Char.ofNat n) = [(Char.ofNat n).toLower] := by
    decide +kernel
  simpa using hchecked c.toNat h

theorem lowerAfter_of_ascii (cased : Bool) {cs : List Char} (h : ∀ c ∈ cs, c.toNat < 128) :
    lowerAfter cased cs = cs.map Char.toLower := by
  induction cs generalizing cased with
  | nil => rfl
  | cons c rest ih =>
    obtain ⟨hc, hrest⟩ := List.forall_mem_cons.1 h
    have hsigma : c ≠ 'Σ' := by
      rintro rfl
      exact absurd hc (by decide)
    rw [lowerAfter, if_neg hsigma, lowerChar_of_ascii hc, ih _ hrest]
    rfl

/-- A text of ASCII is brought to lower case one character after the other. -/
theorem lower_of_ascii {cs : List Char} (h : ∀ c ∈ cs, c.toNat < 128) :
    lower cs = cs.map Char.toLower :=
  lowerAfter_of_ascii false h

end Stylesheet.Text
