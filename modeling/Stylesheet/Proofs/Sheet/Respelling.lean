import Stylesheet.Proofs.Property.Spelling
import Stylesheet.Proofs.Sheet.Write

/-!
# Declarations that are spelled alike

Declarations of one selector whose properties are spelled from the same words go to the same place.
So it makes no difference to a sheet which spelling is used, and where several are used, the last
declaration with a value is the one that counts.

## Main definitions

* `Declaration.Respells` — declarations that differ in a spelling, if at all.
* `Sheet.AreOneProperty` — words whose spellings are one property.

## Main statements

* `Sheet.ofDeclarations_respelled` — declarations that are spelled in other ways build the same.
* `Sheet.ofDeclarations_overwritten` — an overwritten declaration leaves no trace.
* `Sheet.areOneProperty_of_areWords` — the spellings of words are one property.
-/

namespace Stylesheet

open Property (AreWords nameOfWords spellings)

/-- Declarations that are the same, unless the properties are two spellings of the same words. -/
inductive Declaration.Respells (words : List String) : Declaration → Declaration → Prop where
  | same (d : Declaration) : Respells words d d
  | spelled {selector : List String} {key key' : String} {value : Value}
      (hkey : key ∈ spellings words) (hkey' : key' ∈ spellings words) :
      Respells words ⟨selector, key, value⟩ ⟨selector, key', value⟩

namespace Sheet

variable {words : List String} {o : Options}

/-! ## Spelling declarations in other ways -/

theorem add_respelled (h : AreWords words) {d d' : Declaration} (hd : d.Respells words d')
    (sheet : Sheet) : add o sheet d = add o sheet d' := by
  cases hd with
  | same => rfl
  | spelled hkey hkey' =>
    simp only [add, Property.name_of_mem_spellings h o.isCustom hkey,
      Property.name_of_mem_spellings h o.isCustom hkey']

/-- Declarations that are spelled in other ways build the same, or fail in the same way. -/
theorem ofDeclarations_respelled (h : AreWords words) {ds ds' : List Declaration}
    (hds : List.Forall₂ (Declaration.Respells words) ds ds') :
    ofDeclarations o ds = ofDeclarations o ds' := by
  have hrun : ∀ sheet, ds.foldlM (add o) sheet = ds'.foldlM (add o) sheet := by
    induction hds with
    | nil => exact fun _ => rfl
    | cons hd _ ih =>
      intro sheet
      rw [List.foldlM_cons, List.foldlM_cons, add_respelled h hd]
      exact congrArg _ (funext ih)
  exact hrun .empty

/-! ## Overwriting -/

theorem ofClash_bind (result : Block.Clash String Sheet)
    (next : Sheet → Block.Clash String Sheet) :
    (ofClash result >>= fun sheet => ofClash (next sheet)) = ofClash (result >>= next) := by
  cases result <;> rfl

/-- A declaration that is overwritten right away leaves no trace. -/
theorem add_add {d d' : Declaration} {text? : Option String} {text' : String}
    (hselector : d.selector = d'.selector) (hname : d.name o = d'.name o)
    (htext : d.text? o = .ok text?) (htext' : d'.text? o = .ok (some text')) (sheet : Sheet) :
    (add o sheet d >>= fun added => add o added d') = add o sheet d' := by
  have hadd : ∀ added, add o added d' = ofClash (added.put (d'.write o)) :=
    fun added => add_eq_put htext'
  have hvalue : (d'.write o).value? ≠ none := by simp [Declaration.value?_write htext']
  simp only [add_eq_put htext, hadd, ofClash_bind]
  exact congrArg ofClash (Block.put_put hselector hname hvalue sheet)

/-- A declaration that is overwritten by the next one leaves no trace in what is built. -/
theorem ofDeclarations_overwritten {before after : List Declaration} {d d' : Declaration}
    {text? : Option String} {text' : String} (hselector : d.selector = d'.selector)
    (hname : d.name o = d'.name o) (htext : d.text? o = .ok text?)
    (htext' : d'.text? o = .ok (some text')) :
    ofDeclarations o (before ++ d :: d' :: after) = ofDeclarations o (before ++ d' :: after) := by
  have hafter : ∀ sheet, (d :: d' :: after).foldlM (add o) sheet =
      (d' :: after).foldlM (add o) sheet := by
    intro sheet
    rw [List.foldlM_cons, List.foldlM_cons, ← add_add hselector hname htext htext' sheet,
      bind_assoc]
    rfl
  rw [ofDeclarations, ofDeclarations, List.foldlM_append, List.foldlM_append]
  exact congrArg _ (funext hafter)

/-- The text at a place is that of the last declaration with a value that goes there. -/
theorem at?_ofDeclarations_of_last {before after : List Declaration} {d : Declaration}
    {sheet : Sheet} (h : ofDeclarations o (before ++ d :: after) = .ok sheet)
    (hkind : d.value.kind ≠ .empty) (hlast : ∀ later ∈ after, ¬ later.Assigns o (d.place o)) :
    ∃ text, d.text? o = .ok (some text) ∧ sheet.at? (d.place o) = some (.value text) := by
  obtain ⟨htext, hrun⟩ := ofDeclarations_eq_ok_iff.1 h
  obtain ⟨result, hresult⟩ := htext d (by simp)
  cases result with
  | none => exact absurd (Property.value_eq_ok_none_iff.1 hresult) hkind
  | some text =>
    refine ⟨text, hresult, ?_⟩
    rw [List.map_append, List.map_cons] at hrun
    refine Block.value_ofWrites_of_last hrun (Declaration.value?_write hresult) fun v hv => ?_
    obtain ⟨later, hmem, rfl⟩ := List.mem_map.1 hv
    rw [Declaration.assigns_write_iff (htext later (by simp [hmem]))]
    exact hlast later hmem

/-! ## One property -/

/-- The spellings of words are one property. -/
structure AreOneProperty (words : List String) : Prop where
  /-- They have one name, whatever names are custom. -/
  name_eq : ∀ isCustom, ∀ key ∈ spellings words,
    Property.name isCustom key = nameOfWords isCustom words
  /-- A number gets a unit under all of them or under none. -/
  isUnitless_eq : ∀ isCustom, ∀ key ∈ spellings words, ∀ key' ∈ spellings words,
    Property.isUnitless (Property.name isCustom key) =
      Property.isUnitless (Property.name isCustom key')
  /-- Which of them is used makes no difference to what is built. -/
  respelled : ∀ o ds ds', List.Forall₂ (Declaration.Respells words) ds ds' →
    ofDeclarations o ds = ofDeclarations o ds'
  /-- A declaration leaves no trace if the next one has a value for the same property. -/
  overwritten : ∀ o before d d' after text? text', d.selector = d'.selector →
    d.property ∈ spellings words → d'.property ∈ spellings words → d.text? o = .ok text? →
      d'.text? o = .ok (some text') →
        ofDeclarations o (before ++ d :: d' :: after) = ofDeclarations o (before ++ d' :: after)
  /-- The last value that goes to the place of the property is the one that is found there. -/
  last : ∀ o before d after sheet, ofDeclarations o (before ++ d :: after) = .ok sheet →
    d.property ∈ spellings words → d.value.kind ≠ .empty →
      (∀ later ∈ after, ¬ later.Assigns o (d.selector ++ [nameOfWords o.isCustom words])) →
        ∃ text, Property.value o.unit (nameOfWords o.isCustom words) d.value = .ok (some text) ∧
          sheet.at? (d.selector ++ [nameOfWords o.isCustom words]) = some (.value text)

/-- The spellings of words are one property. -/
theorem areOneProperty_of_areWords (h : AreWords words) : AreOneProperty words where
  name_eq isCustom _ hkey := Property.name_of_mem_spellings h isCustom hkey
  isUnitless_eq isCustom key hkey key' hkey' := by
    rw [Property.name_of_mem_spellings h isCustom hkey,
      Property.name_of_mem_spellings h isCustom hkey']
  respelled o ds ds' hds := ofDeclarations_respelled h hds
  overwritten o before d d' after text? text' hselector hkey hkey' htext htext' := by
    have hname : d.name o = d'.name o := by
      rw [Declaration.name, Declaration.name, Property.name_of_mem_spellings h o.isCustom hkey,
        Property.name_of_mem_spellings h o.isCustom hkey']
    exact ofDeclarations_overwritten hselector hname htext htext'
  last o before d after sheet hsheet hkey hkind hlast := by
    have hname : d.name o = nameOfWords o.isCustom words :=
      Property.name_of_mem_spellings h o.isCustom hkey
    have hplace : d.place o = d.selector ++ [nameOfWords o.isCustom words] := by
      rw [Declaration.place, hname]
    rw [← hplace] at hlast ⊢
    rw [← hname]
    exact at?_ofDeclarations_of_last hsheet hkind hlast

/-- Words of which one has a single letter and two have digits. -/
def lineWords : List String := ["line2", "x", "h1"]

theorem areOneProperty_lineWords :
    spellings lineWords = ["line2XH1", "line2_x_h1", "line2-x-h1"] ∧ AreOneProperty lineWords := by
  have hwords : AreWords lineWords := by
    have hall : ∀ word ∈ lineWords, word ≠ "" ∧ word.toList.all Property.isWordChar = true := by
      decide
    have hhead : ∀ word ∈ lineWords.tail, word.toList.head?.all Char.isLower = true := by decide
    refine ⟨by decide, fun word hword => ?_, fun word hword c hc => ?_⟩
    · obtain ⟨hne, hchars⟩ := hall word hword
      exact ⟨hne, List.all_eq_true.1 hchars⟩
    · exact (Option.all_eq_true _ _).1 (hhead word hword) c hc
  exact ⟨by decide +kernel, areOneProperty_of_areWords hwords⟩

end Sheet

end Stylesheet
