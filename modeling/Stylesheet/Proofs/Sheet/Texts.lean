import Stylesheet.Proofs.Block.MapKeys
import Stylesheet.Untyped.Property
import Stylesheet.Untyped.Sheet

/-!
# Sheets of texts that are given as values

Selectors, properties and keys may be given as values of any kind.  Where they are texts, names,
weights and sheets are those of the texts.

## Main definitions

* `Untyped.Declaration.ofTexts` — a declaration, given as values.

## Main statements

* `Untyped.propertyName_text`, `Untyped.weight_text` — names and weights of texts.
* `Untyped.add_ofTexts`, `Untyped.sheet_ofTexts` — sheets of declarations with texts.
-/

namespace Stylesheet.Untyped

/-! ## Names and weights -/

/-- Whether a name is custom matters only for the name that the key is written as. -/
theorem name_congr {isCustom isCustom' : String → Bool} {key : String}
    (h : isCustom (Property.cssName key) = isCustom' (Property.cssName key)) :
    Property.name isCustom key = Property.name isCustom' key := by
  rw [Property.name, Property.name, h]

/-- The custom names of options hold a text if it is a custom name. -/
theorem holdsText_customsValue {o : Options} (h : o.customsValue.isTrue = true) (s : String) :
    holdsText o.customsValue s = .ok (o.isCustom s) := by
  obtain ⟨unit, sort, indent, customs, extras⟩ := o
  cases customs with
  | none => cases h
  | some names => rfl

/-- Without custom names, no text is one. -/
theorem isCustom_of_not_isTrue {o : Options} (h : o.customsValue.isTrue = false) (s : String) :
    o.isCustom s = false := by
  obtain ⟨unit, sort, indent, customs, extras⟩ := o
  cases customs with
  | none => rfl
  | some names =>
    cases names with
    | nil => rfl
    | cons => cases h

/-- The name of a text is that of a property, where the custom names are those of options. -/
theorem propertyName_text (o : Options) (key : String) :
    propertyName (.text key) o.customsValue = .ok (Property.name o.isCustom key) := by
  change (if (key.toList.head? = some '-' || !o.customsValue.isTrue) = true
    then Except.ok (Property.name (fun _ => false) key)
    else do
      let isCustom ← holdsText o.customsValue (Property.cssName key)
      return Property.name (fun _ => isCustom) key) = _
  by_cases hdash : key.toList.head? = some '-'
  · simp [hdash, Property.name]
  · cases htrue : o.customsValue.isTrue with
    | false =>
      rw [if_pos (by simp)]
      exact congrArg Except.ok (name_congr (isCustom_of_not_isTrue htrue _).symm)
    | true =>
      rw [if_neg (by simp [hdash]), holdsText_customsValue htrue]
      exact congrArg Except.ok (name_congr rfl)

/-- The weight of a text is that of a key. -/
theorem weight_text (key : String) : weight (.text key) = .ok (Selector.weight key) := by
  rw [weight, Selector.weight]
  rcases hkey : key.toList with _ | ⟨c, cs⟩
  · have hempty : key = "" := String.toList_injective hkey
    simp [Value.isTrue, hempty]
  · have hne : key ≠ "" := by
      rintro rfl
      cases hkey
    simp [Value.isTrue, hne]

/-! ## Sheets -/

/-- A declaration whose selector is a list of texts and whose property is a text. -/
def Declaration.ofTexts (kind : SeqKind) (d : Stylesheet.Declaration) : Declaration :=
  ⟨.seq kind (d.selector.map .text), .text d.property, d.value⟩

theorem clashFault_texts (path : List String) :
    clashFault (path.map .text) = Sheet.clashFault path := by
  rw [clashFault, mapM_textOr_text]

theorem takeWhile_isHashable_texts (texts : List String) :
    (texts.map Value.text).takeWhile Value.isHashable = texts.map .text := by
  induction texts with
  | nil => rfl
  | cons s rest ih => exact congrArg (Value.text s :: ·) ih

theorem beq_text (s s' : String) : (Value.text s == Value.text s') = (s == s') := rfl

/-- A sheet with values that are texts for keys is changed by a declaration as the sheet with the
texts is. -/
theorem add_ofTexts (o : Options) (kind : SeqKind) (sheet : Sheet) (d : Stylesheet.Declaration) :
    add o (Block.mapKeys .text sheet) (.ofTexts kind d) =
      Block.mapKeys .text <$> Sheet.add o sheet d := by
  have hopen : Block.descend .ok (d.selector.map .text) (Block.mapKeys .text sheet) =
      Block.Clash.mapKeys Value.text (Block.descend .ok d.selector sheet) :=
    Block.descend_mapKeys beq_text (fun _ => rfl) d.selector sheet
  have hassign : ∀ (name text : String) (opened : Sheet),
      Block.descend (Block.assign (.text name) text) (d.selector.map .text)
          (Block.mapKeys .text opened) =
        Block.Clash.mapKeys Value.text
          (Block.descend (Block.assign name text) d.selector opened) :=
    fun name text opened =>
      Block.descend_mapKeys beq_text (Block.assign_mapKeys beq_text name text) d.selector opened
  have helements : elements (Declaration.ofTexts kind d).selector = .ok (d.selector.map .text) :=
    rfl
  have hproperty : (Declaration.ofTexts kind d).property.asText = .ok d.property := rfl
  unfold add Sheet.add
  rw [helements]
  simp only [bind, Except.bind, takeWhile_isHashable_texts, hopen, Nat.lt_irrefl, if_false,
    hproperty]
  cases hdescend : Block.descend .ok d.selector sheet with
  | error path =>
    have hcut : isCuttable (Declaration.ofTexts kind d).selector = true := rfl
    simp only [Block.Clash.mapKeys, hcut, if_true, clashFault_texts]
    rfl
  | ok opened =>
    have hvalue : (Declaration.ofTexts kind d).value = d.value := rfl
    simp only [Block.Clash.mapKeys, hvalue, Sheet.ofClash, pure, Except.pure]
    cases hwritten : Property.value o.unit (Property.name o.isCustom d.property) d.value with
    | error fault => rfl
    | ok text? =>
      cases text? with
      | none => rfl
      | some text =>
        simp only [hassign]
        cases Block.descend (Block.assign (Property.name o.isCustom d.property) text) d.selector
          opened with
        | error path =>
          simp only [Block.Clash.mapKeys, clashFault_texts]
          rfl
        | ok sheet => rfl

/-- The sheet of declarations that are given as values is the sheet of the declarations. -/
theorem sheet_ofTexts (o : Options) (kind : SeqKind) (ds : List Stylesheet.Declaration) :
    sheet o (ds.map (.ofTexts kind)) = Sheet.toValue <$> Sheet.ofDeclarations o ds := by
  have hfold : ∀ start : Sheet,
      (ds.map (Declaration.ofTexts kind)).foldlM (add o) (Block.mapKeys .text start) =
        Block.mapKeys .text <$> ds.foldlM (Sheet.add o) start := by
    induction ds with
    | nil => exact fun _ => rfl
    | cons d rest ih =>
      intro start
      rw [List.map_cons, List.foldlM_cons, List.foldlM_cons, add_ofTexts]
      cases Sheet.add o start d with
      | error fault => rfl
      | ok sheet => exact ih sheet
  have hempty := hfold .empty
  rw [Sheet.ofDeclarations]
  change (do
    let sheet ← (ds.map (Declaration.ofTexts kind)).foldlM (add o) (Block.mapKeys .text .empty)
    return Value.mapping .plain (Block.entries id .text sheet)) = _
  rw [hempty]
  cases ds.foldlM (Sheet.add o) .empty with
  | error fault => rfl
  | ok sheet =>
    exact congrArg (fun entries => Except.ok (Value.mapping .plain entries))
      (Block.entries_mapKeys .text .text sheet)

end Stylesheet.Untyped
