import Stylesheet.Property

/-!
# The text of a value

What the value of a property is written as, by cases, and what follows from it: only an empty value
has no text, and a text is never empty.

## Main statements

* `Property.value_eq_ok` — all outcomes of writing a value.
* `Property.value_eq_ok_none_iff` — a value without a text is empty.
* `Property.value_ne_empty` — no text is empty.
* `Property.value_text` — a text stands for itself.
-/

namespace Stylesheet.Property

open Value (shown showInt isScalar)

/-- An outcome that is always wrapped. -/
private theorem map_some_eq_ok {r : Except Fault String} {text? : Option String}
    (h : some <$> r = .ok text?) : ∃ text, r = .ok text ∧ text? = some text := by
  cases r with
  | error fault => cases h
  | ok text => exact ⟨text, rfl, (Except.ok.inj h).symm⟩

/-- What has no rule has no text: the fault needs the shown form, which may fail as well. -/
private theorem throw_shown_ne_ok {r : Except Fault String} {fault : String → Fault}
    {text? : Option String} :
    (do throw (fault (← r)) : Except Fault (Option String)) ≠ .ok text? := by
  cases r <;> nofun

/-- All outcomes of writing a value: nothing for an empty one, the text of a scalar, or the joined
words of a list of scalars. -/
theorem value_eq_ok {unit name : String} {v : Value} {text? : Option String}
    (h : value unit name v = .ok text?) :
    v.kind = .empty ∧ text? = none ∨
      (∃ text, v.isScalar = true ∧ scalar unit name v = .ok text ∧ text? = some text) ∨
      v.kind = .simpleList ∧ ∃ words,
        text? = some (visible (String.ofList (Text.trim (" ".intercalate words).toList))) := by
  cases v with
  | none => exact .inl ⟨rfl, (Except.ok.inj h).symm⟩
  | bool b | int i | float x | text s =>
    obtain ⟨text, htext, rfl⟩ := map_some_eq_ok h
    exact .inr (.inl ⟨text, rfl, htext, rfl⟩)
  | seq kind items =>
    by_cases hempty : items.isEmpty = true
    · have hkind : (Value.seq kind items).kind = .empty := by simp [Value.kind, hempty]
      unfold value at h
      rw [hkind] at h
      exact .inl ⟨hkind, (Except.ok.inj h).symm⟩
    · by_cases hall : items.all isScalar = true
      · have hkind : (Value.seq kind items).kind = .simpleList := by
          simp [Value.kind, hempty, hall]
        unfold value at h
        rw [hkind] at h
        cases hwords : items.mapM (scalar unit name) with
        | error fault => simp [hwords, bind, Except.bind] at h
        | ok words =>
          simp only [hwords] at h
          exact .inr (.inr ⟨hkind, words, (Except.ok.inj h).symm⟩)
      · have hkind : (Value.seq kind items).kind = .list := by simp [Value.kind, hempty, hall]
        unfold value at h
        rw [hkind] at h
        exact absurd h throw_shown_ne_ok
  | mapping kind entries =>
    by_cases hempty : entries.isEmpty = true
    · have hkind : (Value.mapping kind entries).kind = .empty := by simp [Value.kind, hempty]
      unfold value at h
      rw [hkind] at h
      exact .inl ⟨hkind, (Except.ok.inj h).symm⟩
    · have hkind : (Value.mapping kind entries).kind = .mapping := by simp [Value.kind, hempty]
      unfold value at h
      rw [hkind] at h
      exact absurd h throw_shown_ne_ok
  | bytes _ | set _ _ | symbol _ _ | stream _ _ _ _ | deferred _ _ | method _ _ =>
    exact absurd h throw_shown_ne_ok

/-- The values without a text are the empty ones. -/
theorem value_eq_ok_none_iff {unit name : String} {v : Value} :
    value unit name v = .ok none ↔ v.kind = .empty := by
  constructor
  · intro h
    obtain ⟨hkind, -⟩ | ⟨text, -, -, htext⟩ | ⟨-, words, htext⟩ := value_eq_ok h
    · exact hkind
    · cases htext
    · cases htext
  · intro h
    unfold value
    split <;> simp_all

/-! ## No text is empty -/

theorem visible_ne_empty (s : String) : visible s ≠ "" := by
  unfold visible
  split
  · decide
  · assumption

theorem showInt_ne_empty {i : Int} {text : String} (h : showInt i = .ok text) : text ≠ "" := by
  unfold showInt IntegerText.write? IntegerText.digits at h
  split at h
  · next s hs =>
    obtain rfl := Except.ok.inj h
    split at hs
    · obtain rfl := Option.some.inj hs
      split <;> simp [← String.toList_inj]
    · cases hs
  · cases h

theorem layout_ne_nil (style : DecimalStyle) (coefficient : Nat) (power : Int) :
    style.layout coefficient power ≠ [] := by
  unfold DecimalStyle.layout
  dsimp only
  split
  · split <;> simp
  · simp

theorem write_ne_empty (x : Binary64) : x.write ≠ "" := by
  cases x with
  | nan tag => exact of_decide_eq_false rfl
  | infinite negative => cases negative <;> decide
  | finite x =>
    simp only [Binary64.write, Binary64.Finite.write]
    split <;> simp [← String.toList_inj, layout_ne_nil]

theorem number_int (i : Int) : number (.int i) = showInt i := rfl

theorem number_ne_empty {v : Value} {text : String} (hv : (∃ i, v = .int i) ∨ ∃ x, v = .float x)
    (h : number v = .ok text) : text ≠ "" := by
  obtain ⟨i, rfl⟩ | ⟨x, rfl⟩ := hv
  · rw [number_int] at h
    exact showInt_ne_empty h
  · cases x with
    | nan tag | infinite negative =>
      obtain rfl := Except.ok.inj h
      exact write_ne_empty _
    | finite x =>
      rw [number] at h
      split at h
      · exact showInt_ne_empty h
      · obtain rfl := Except.ok.inj h
        exact write_ne_empty (.finite x)

/-- A number is written with or without the unit. -/
theorem scalar_eq_ok_of_number {unit name : String} {v : Value} {text : String}
    (hv : (∃ i, v = .int i) ∨ ∃ x, v = .float x) (h : scalar unit name v = .ok text) :
    ∃ digits, number v = .ok digits ∧ (text = digits ++ unit ∨ text = digits) := by
  have hscalar : scalar unit name v = (do
      let digits ← number v
      return if v.isTrue && !isUnitless name then digits ++ unit else digits) := by
    obtain ⟨i, rfl⟩ | ⟨x, rfl⟩ := hv <;> rfl
  rw [hscalar] at h
  cases hnumber : number v with
  | error fault =>
    rw [hnumber] at h
    cases h
  | ok digits =>
    rw [hnumber] at h
    obtain rfl := Except.ok.inj h
    refine ⟨digits, rfl, ?_⟩
    split <;> simp

theorem scalar_ne_empty {unit name : String} {v : Value} {text : String}
    (hv : v.isScalar = true) (h : scalar unit name v = .ok text) : text ≠ "" := by
  have hnumber : (∃ i, v = .int i) ∨ (∃ x, v = .float x) → text ≠ "" := by
    intro hv
    obtain ⟨digits, hdigits, rfl | rfl⟩ := scalar_eq_ok_of_number hv h
    · exact fun hempty => number_ne_empty hv hdigits (String.append_eq_empty_iff.1 hempty).1
    · exact number_ne_empty hv hdigits
  cases v with
  | text s =>
    obtain rfl := Except.ok.inj h
    exact visible_ne_empty s
  | bool b =>
    obtain rfl := Except.ok.inj h
    cases b <;> decide
  | int i => exact hnumber (.inl ⟨i, rfl⟩)
  | float x => exact hnumber (.inr ⟨x, rfl⟩)
  | _ => cases hv

/-- No value has an empty text. -/
theorem value_ne_empty {unit name : String} {v : Value} {text : String}
    (h : value unit name v = .ok (some text)) : text ≠ "" := by
  obtain ⟨-, htext⟩ | ⟨text, hscalar, hvalue, htext⟩ | ⟨-, words, htext⟩ := value_eq_ok h
  · cases htext
  · obtain rfl := Option.some.inj htext
    exact scalar_ne_empty hscalar hvalue
  · obtain rfl := Option.some.inj htext
    exact visible_ne_empty _

/-- A text that is not empty stands for itself. -/
theorem value_text {unit name s : String} (h : s ≠ "") :
    value unit name (.text s) = .ok (some s) := by
  change some <$> Except.ok (visible s) = _
  rw [visible, if_neg h]
  rfl

end Stylesheet.Property
