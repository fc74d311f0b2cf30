import Stylesheet.Proofs.Declaration.FunctionFree
import Stylesheet.Proofs.Property.Value

/-!
# Values that can be written

An integer of too many digits is all that keeps a value from being written, if everything in it
that can be called has a shown form.  A floating-point number that is an integer is written as one,
but it never has so many digits.

## Main definitions

* `Value.hasShortIntegers` — values in which no integer has too many digits.

## Main statements

* `Value.exists_shown`, `Value.exists_fragments` — such a value has a shown form, and as a key it
  has fragments.
* `Property.exists_value` — the value of a declaration has a text.
* `Property.value_eq_written` — without a unit, the value of a property is what is printed for it.
* `Property.written_of_long` — a long integer is all that is not printed.
-/

namespace Stylesheet

namespace Value

mutual

/-- Whether no integer in a value, in keys and in members of all kinds, has too many digits. -/
def hasShortIntegers : Value → Bool
  | int i => (Nat.toDigits 10 i.natAbs).length ≤ IntegerText.maxDigits
  | seq _ items => itemsHaveShortIntegers items
  | mapping _ entries => entriesHaveShortIntegers entries
  | set _ items => itemsHaveShortIntegers items
  | method _ owner => hasShortIntegers owner
  | _ => true

/-- Whether no integer in the elements of a list has too many digits. -/
def itemsHaveShortIntegers : List Value → Bool
  | [] => true
  | item :: rest => hasShortIntegers item && itemsHaveShortIntegers rest

/-- Whether no integer in the keys and values of a mapping has too many digits. -/
def entriesHaveShortIntegers : List (Value × Value) → Bool
  | [] => true
  | (key, value) :: rest =>
    hasShortIntegers key && hasShortIntegers value && entriesHaveShortIntegers rest

end

theorem hasShortIntegers_seq (kind : SeqKind) (items : List Value) :
    (seq kind items).hasShortIntegers = items.all hasShortIntegers := by
  rw [hasShortIntegers]
  induction items with
  | nil => rfl
  | cons item rest ih => rw [itemsHaveShortIntegers, ih, List.all_cons]

theorem hasShortIntegers_mapping (kind : MappingKind) (entries : List (Value × Value)) :
    (mapping kind entries).hasShortIntegers =
      entries.all fun entry => entry.1.hasShortIntegers && entry.2.hasShortIntegers := by
  rw [hasShortIntegers]
  induction entries with
  | nil => rfl
  | cons entry rest ih => rw [entriesHaveShortIntegers, ih, List.all_cons]

theorem isFunctionFree_of_isScalar {value : Value} (h : value.isScalar = true) :
    value.isFunctionFree = true := by
  cases value with
  | bool | int | float | text => rfl
  | _ => cases h

theorem isShowable_of_isScalar {value : Value} (h : value.isScalar = true) :
    value.isShowable = true :=
  isShowable_of_isFunctionFree (isFunctionFree_of_isScalar h)

/-- An integer below the limit is written. -/
theorem exists_showInt {i : Int} (h : i.natAbs < Nat.pow 10 IntegerText.maxDigits) :
    ∃ text, showInt i = .ok text := by
  unfold showInt
  split
  · exact ⟨_, rfl⟩
  · next hnone =>
    unfold IntegerText.write? at hnone
    simp only [h, if_true] at hnone
    cases hnone

/-- An integer that is not below the limit is not written. -/
theorem showInt_of_long {i : Int} (h : ¬ i.natAbs < Nat.pow 10 IntegerText.maxDigits) :
    showInt i = .error .tooManyDigits := by
  unfold showInt
  split
  · next text hsome =>
    unfold IntegerText.write? at hsome
    simp only [h, if_false] at hsome
    cases hsome
  · rfl

/-- What the number of its digits says of a number. -/
theorem lt_of_length_toDigits {n digits : Nat} (hpos : 0 < digits)
    (h : (Nat.toDigits 10 n).length ≤ digits) : n < Nat.pow 10 digits :=
  (Nat.length_toDigits_le_iff (by decide) hpos).1 h

theorem not_lt_of_length_toDigits {n digits : Nat} (hpos : 0 < digits)
    (h : ¬ (Nat.toDigits 10 n).length ≤ digits) : ¬ n < Nat.pow 10 digits :=
  mt (Nat.length_toDigits_le_iff (by decide) hpos).2 h

theorem exists_showInt_of_length {i : Int}
    (h : (Nat.toDigits 10 i.natAbs).length ≤ IntegerText.maxDigits) :
    ∃ text, showInt i = .ok text :=
  exists_showInt (lt_of_length_toDigits (by decide) h)

mutual

/-- A value without long integers has a shown form. -/
theorem exists_shown : ∀ value : Value, value.isShowable = true →
    value.hasShortIntegers = true → ∃ s, shown value = .ok s
  | none, _, _ | bool _, _, _ | float _, _, _ | text _, _, _ | bytes _, _, _ | symbol _ _, _, _
  | stream _ _ _ _, _, _ => ⟨_, rfl⟩
  | int i, _, h => exists_showInt_of_length (of_decide_eq_true h)
  | seq kind items, hshow, h => by
    obtain ⟨ss, hss⟩ := exists_shownItems items (areShowable_iff.1 hshow) h
    exact ⟨showSeq kind ss, by rw [shown, hss]; rfl⟩
  | mapping kind entries, hshow, h => by
    obtain ⟨ss, hss⟩ := exists_shownEntries entries (entriesShowable_iff.1 hshow) h
    exact ⟨showMapping kind ss, by rw [shown, hss]; rfl⟩
  | set frozen items, hshow, h => by
    obtain ⟨ss, hss⟩ := exists_shownItems items (areShowable_iff.1 hshow) h
    exact ⟨showSet frozen ss, by rw [shown, hss]; rfl⟩
  | deferred _ (.ok s), _, _ => ⟨s, rfl⟩
  | deferred _ (.error _), hshow, _ => nomatch hshow
  | method m owner, hshow, h => by
    obtain ⟨s, hs⟩ := exists_shown owner hshow h
    rw [shown, hs, Method.describe]
    cases m.form <;> exact ⟨_, rfl⟩

theorem exists_shownItems : ∀ items : List Value, (∀ item ∈ items, item.isShowable = true) →
    itemsHaveShortIntegers items = true → ∃ ss, shownItems items = .ok ss
  | [], _, _ => ⟨[], rfl⟩
  | item :: rest, hshow, h => by
    obtain ⟨hitem, hrest⟩ := (Bool.and_eq_true _ _).mp h
    obtain ⟨hshow, hshows⟩ := List.forall_mem_cons.1 hshow
    obtain ⟨s, hs⟩ := exists_shown item hshow hitem
    obtain ⟨ss, hss⟩ := exists_shownItems rest hshows hrest
    exact ⟨s :: ss, by rw [shownItems, hs, hss]; rfl⟩

theorem exists_shownEntries : ∀ entries : List (Value × Value),
    (∀ entry ∈ entries, entry.1.isShowable = true ∧ entry.2.isShowable = true) →
    entriesHaveShortIntegers entries = true → ∃ ss, shownEntries entries = .ok ss
  | [], _, _ => ⟨[], rfl⟩
  | (key, value) :: rest, hshow, h => by
    obtain ⟨hentry, hrest⟩ := (Bool.and_eq_true _ _).mp h
    obtain ⟨hkey, hvalue⟩ := (Bool.and_eq_true _ _).mp hentry
    obtain ⟨⟨hshowKey, hshowValue⟩, hshows⟩ := List.forall_mem_cons.1 hshow
    obtain ⟨k, hk⟩ := exists_shown key hshowKey hkey
    obtain ⟨v, hv⟩ := exists_shown value hshowValue hvalue
    obtain ⟨ss, hss⟩ := exists_shownEntries rest hshows hrest
    exact ⟨(k ++ ": " ++ v) :: ss, by rw [shownEntries, hk, hv, hss]; rfl⟩

end

/-- A value without long integers stands for a text. -/
theorem exists_asText {value : Value} (hshow : value.isShowable = true)
    (h : value.hasShortIntegers = true) : ∃ s, asText value = .ok s := by
  unfold asText
  split
  · exact ⟨_, rfl⟩
  · next entries => exact exists_shown (mapping .plain entries) hshow h
  · exact exists_shown value hshow h

/-- A key without long integers has fragments, though there may be none of them. -/
theorem exists_fragments {key : Value} (hshow : key.isShowable = true)
    (h : key.hasShortIntegers = true) : ∃ fragments, key.fragments = .ok fragments := by
  obtain ⟨s, hs⟩ := exists_asText hshow h
  exact ⟨Selector.fragments s, by rw [fragments, hs]; rfl⟩

end Value

/-! ## Numbers -/

/-- A floating-point number has at most 1024 bits before its point, and no more digits. -/
theorem Binary64.Finite.integerPart_lt (x : Binary64.Finite) {digits : Nat} (h : 1024 ≤ digits) :
    x.integerPart < Nat.pow 10 digits := by
  refine Nat.lt_of_lt_of_le ?_ (Nat.pow_le_pow_left (by omega : 2 ≤ 10) digits)
  obtain ⟨hmantissa, -, hexponent, -⟩ := x.canonical
  have hbits : x.mantissa < 2 ^ 53 := by
    have hnormal : 2 * Binary64.leastNormal = 2 ^ 53 := by decide
    omega
  unfold Binary64.Finite.integerPart
  split
  · have hpower : Nat.pow 2 x.exponent.toNat ≤ 2 ^ (digits - 53) :=
      Nat.pow_le_pow_right (by omega) (by omega)
    calc x.mantissa * Nat.pow 2 x.exponent.toNat
        ≤ x.mantissa * 2 ^ (digits - 53) := Nat.mul_le_mul_left _ hpower
      _ < 2 ^ 53 * 2 ^ (digits - 53) := Nat.mul_lt_mul_of_pos_right hbits (Nat.two_pow_pos _)
      _ = 2 ^ digits := by rw [← Nat.pow_add, show 53 + (digits - 53) = digits by omega]
  · calc x.mantissa / Nat.pow 2 (-x.exponent).toNat
        ≤ x.mantissa := Nat.div_le_self _ _
      _ < 2 ^ 53 := hbits
      _ ≤ 2 ^ digits := Nat.pow_le_pow_right (by omega) (by omega)

theorem Binary64.Finite.natAbs_truncate (x : Binary64.Finite) :
    x.truncate.natAbs = x.integerPart := by
  unfold Binary64.Finite.truncate
  split <;> simp

namespace Property

open Value (exists_showInt)

/-- A scalar is written as a number is, unless it is a long integer. -/
theorem exists_number {v : Value} (hscalar : v.isScalar = true) (h : v.hasShortIntegers = true) :
    ∃ text, number v = .ok text := by
  unfold number
  split
  · next x =>
    split
    · refine exists_showInt ?_
      rw [x.natAbs_truncate]
      exact x.integerPart_lt (by decide)
    · exact ⟨_, rfl⟩
  · exact Value.exists_asText (Value.isShowable_of_isScalar hscalar) h

/-- A scalar has a text by itself that is its text as a word. -/
theorem value_of_isScalar (unit name : String) {v : Value} (h : v.isScalar = true) :
    value unit name v = some <$> scalar unit name v := by
  cases v with
  | bool | int | float | text => rfl
  | _ => cases h

section

variable {v : Value}

/-- Without a unit, a scalar is written for a property as it is printed. -/
theorem scalar_eq_written (name : String) (hscalar : v.isScalar = true) (hne : v ≠ .text "") :
    scalar "" name v = written v := by
  have hnumber : ∀ result : Except Fault String, (do
      let text ← result
      return if v.isTrue && !isUnitless name then text ++ "" else text) = result := by
    intro result
    simp only [String.append_empty, ite_self]
    exact bind_pure result
  cases v with
  | text s =>
    have hs : s ≠ "" := fun h => hne (congrArg Value.text h)
    exact congrArg Except.ok (if_neg hs)
  | bool b => rfl
  | int i => exact hnumber (number (.int i))
  | float x => exact hnumber (number (.float x))
  | _ => cases hscalar

theorem value_eq_written (name : String) (hscalar : v.isScalar = true) (hne : v ≠ .text "") :
    value "" name v = some <$> written v := by
  rw [value_of_isScalar "" name hscalar, scalar_eq_written name hscalar hne]

theorem exists_written (hscalar : v.isScalar = true) (h : v.hasShortIntegers = true) :
    ∃ text, written v = .ok text := by
  unfold written
  split
  · exact ⟨_, rfl⟩
  · exact exists_number hscalar h

/-- A long integer is the only scalar that is not printed. -/
theorem written_of_long (hscalar : v.isScalar = true) (h : v.hasShortIntegers = false) :
    written v = .error .tooManyDigits := by
  cases v with
  | int i =>
    have hwritten : written (.int i) = number (.int i) := rfl
    rw [hwritten, number_int]
    exact Value.showInt_of_long
      (Value.not_lt_of_length_toDigits (by decide) (of_decide_eq_false h))
  | bool | float | text => cases h
  | _ => cases hscalar

theorem eq_tooManyDigits_of_written (hscalar : v.isScalar = true) {fault : Fault}
    (h : written v = .error fault) : fault = .tooManyDigits := by
  cases hshort : v.hasShortIntegers with
  | true =>
    obtain ⟨text, htext⟩ := exists_written hscalar hshort
    cases htext.symm.trans h
  | false => exact Except.error.inj (h.symm.trans (written_of_long hscalar hshort))

end

end Property

end Stylesheet
