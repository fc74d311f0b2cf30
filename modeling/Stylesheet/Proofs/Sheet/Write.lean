import Stylesheet.Proofs.Block.History
import Stylesheet.Proofs.Property.Value
import Stylesheet.Sheet

/-!
# Declarations as writes

A composed declaration whose value can be written is a write to a block, so that a sheet is built by
the writes of its declarations.

## Main definitions

* `Declaration.name`, `Declaration.place`, `Declaration.text?` — where a declaration goes, and what
  it puts there.
* `Declaration.Assigns`, `Declaration.Uses` — what a declaration does at a place.
* `Declaration.write` — the write to a block that a declaration is.

## Main statements

* `Sheet.add_eq_put` — adding a declaration is making its write.
* `Sheet.ofDeclarations_eq_ok_iff` — a sheet is built from declarations exactly if all their values
  can be written and their writes build it.
-/

namespace Stylesheet

namespace Declaration

/-- The name of the property, as it is written in a sheet. -/
def name (o : Options) (d : Declaration) : String :=
  Property.name o.isCustom d.property

/-- Where the value of a composed declaration goes: under the name, in the block of the selector. -/
def place (o : Options) (d : Declaration) : List String :=
  d.selector ++ [d.name o]

/-- The text of the value, and nothing for an empty one. -/
def text? (o : Options) (d : Declaration) : Except Fault (Option String) :=
  Property.value o.unit (d.name o) d.value

/-- Whether a declaration puts a text at a place. -/
def Assigns (o : Options) (d : Declaration) (p : List String) : Prop :=
  d.value.kind ≠ .empty ∧ d.place o = p

/-- Whether a declaration uses a key of the block at a place: its selector goes on through the key,
or it puts its text under it. -/
def Uses (o : Options) (d : Declaration) (p : List String) (key : String) : Prop :=
  p ++ [key] <+: d.selector ∨ d.Assigns o (p ++ [key])

instance (o : Options) (d : Declaration) (p : List String) : Decidable (d.Assigns o p) :=
  inferInstanceAs (Decidable (_ ∧ _))

instance (o : Options) (d : Declaration) (p : List String) (key : String) :
    Decidable (d.Uses o p key) :=
  inferInstanceAs (Decidable (_ ∨ _))

/-- The write that a declaration is, if its value can be written. -/
def write (o : Options) (d : Declaration) : Block.Write String String :=
  ⟨d.selector, d.name o, (d.text? o).toOption.join⟩

@[simp] theorem place_write (o : Options) (d : Declaration) : (d.write o).place = d.place o := rfl

@[simp] theorem path_write (o : Options) (d : Declaration) : (d.write o).path = d.selector := rfl

theorem value?_write {o : Options} {d : Declaration} {result : Option String}
    (h : d.text? o = .ok result) : (d.write o).value? = result := by
  simp [write, h, Except.toOption]

theorem assigns_write_iff {o : Options} {d : Declaration} (h : ∃ result, d.text? o = .ok result)
    (p : List String) : (d.write o).Assigns p ↔ d.Assigns o p := by
  obtain ⟨result, hresult⟩ := h
  have hkind : result = none ↔ d.value.kind = .empty := by
    rw [← @Property.value_eq_ok_none_iff o.unit (d.name o)]
    change _ ↔ d.text? o = _
    rw [hresult, Except.ok.injEq]
  rw [Block.Write.Assigns, Assigns, value?_write hresult, place_write, ne_eq, ne_eq, hkind]

theorem uses_write_iff {o : Options} {d : Declaration} (h : ∃ result, d.text? o = .ok result)
    (p : List String) (key : String) : (d.write o).Uses p key ↔ d.Uses o p key := by
  rw [Block.Write.Uses, Uses, assigns_write_iff h, path_write]

variable {o : Options} {ds : List Declaration}

theorem exists_mem_assigns_iff (h : ∀ d ∈ ds, ∃ result, d.text? o = .ok result)
    (p : List String) :
    (∃ w ∈ ds.map (write o), w.Assigns p) ↔ ∃ d ∈ ds, d.Assigns o p := by
  simp only [List.mem_map, exists_exists_and_eq_and]
  exact exists_congr fun d => and_congr_right fun hd => assigns_write_iff (h d hd) p

theorem exists_mem_uses_iff (h : ∀ d ∈ ds, ∃ result, d.text? o = .ok result) (p : List String)
    (key : String) :
    (∃ w ∈ ds.map (write o), w.Uses p key) ↔ ∃ d ∈ ds, d.Uses o p key := by
  simp only [List.mem_map, exists_exists_and_eq_and]
  exact exists_congr fun d => and_congr_right fun hd => uses_write_iff (h d hd) p key

theorem exists_mem_path_iff (p : List String) :
    (∃ w ∈ ds.map (write o), p <+: w.path) ↔ ∃ d ∈ ds, p <+: d.selector := by
  simp

end Declaration

namespace Sheet

/-! ## Declarations as writes -/

/-- A declaration whose value can be written is a write. -/
theorem add_eq_put {o : Options} {sheet : Sheet} {d : Declaration} {result : Option String}
    (h : d.text? o = .ok result) : add o sheet d = ofClash (sheet.put (d.write o)) := by
  have hvalue : Property.value o.unit (Property.name o.isCustom d.property) d.value =
      .ok result := h
  rw [Block.put, Declaration.value?_write h]
  cases result with
  | none =>
    simp only [add, hvalue, Declaration.write]
    cases sheet.descend .ok d.selector <;> rfl
  | some text =>
    simp only [add, hvalue, Declaration.write]
    have hbind := Block.descend_bind (Block.assign (d.name o) text) d.selector sheet
    cases hopened : sheet.descend .ok d.selector <;> rw [hopened] at hbind <;>
      exact congrArg ofClash hbind

/-- A declaration whose value cannot be written does not succeed. -/
theorem add_ne_ok {o : Options} {sheet sheet' : Sheet} {d : Declaration} {fault : Fault}
    (h : d.text? o = .error fault) : add o sheet d ≠ .ok sheet' := by
  rw [Declaration.text?, Declaration.name] at h
  simp only [add, h]
  cases ofClash (sheet.descend .ok d.selector) <;> nofun

theorem ofClash_eq_ok_iff {result : Block.Clash String Sheet} {sheet : Sheet} :
    ofClash result = .ok sheet ↔ result = .ok sheet := by
  cases result <;> simp [ofClash]

theorem foldlM_add_eq_put {o : Options} {ds : List Declaration}
    (h : ∀ d ∈ ds, ∃ result, d.text? o = .ok result) (sheet : Sheet) :
    ds.foldlM (add o) sheet =
      ofClash ((ds.map (Declaration.write o)).foldlM Block.put sheet) := by
  induction ds generalizing sheet with
  | nil => rfl
  | cons d ds ih =>
    obtain ⟨result, hresult⟩ := h d (by simp)
    rw [List.map_cons, List.foldlM_cons, List.foldlM_cons, add_eq_put hresult]
    cases sheet.put (d.write o) with
    | error path => rfl
    | ok sheet' => exact ih (fun d hd => h d (by simp [hd])) sheet'

/-- Declarations whose values can be written build what their writes build. -/
theorem ofDeclarations_eq_ofWrites {o : Options} {ds : List Declaration}
    (h : ∀ d ∈ ds, ∃ result, d.text? o = .ok result) :
    ofDeclarations o ds = ofClash (Block.ofWrites (ds.map (Declaration.write o))) :=
  foldlM_add_eq_put h .empty

theorem text?_of_foldlM_add {o : Options} {ds : List Declaration} {sheet sheet' : Sheet}
    (h : ds.foldlM (add o) sheet = .ok sheet') : ∀ d ∈ ds, ∃ result, d.text? o = .ok result := by
  induction ds generalizing sheet with
  | nil => simp
  | cons d ds ih =>
    rw [List.foldlM_cons] at h
    cases hadd : add o sheet d with
    | error fault => simp [hadd, bind, Except.bind] at h
    | ok sheet₁ =>
      rw [hadd] at h
      rintro d' hd'
      obtain rfl | hd' := List.mem_cons.1 hd'
      · cases htext : d'.text? o with
        | error fault => exact absurd hadd (add_ne_ok htext)
        | ok result => exact ⟨result, rfl⟩
      · exact ih h d' hd'

/-- A sheet is built from declarations exactly if all their values can be written and their writes
build it. -/
theorem ofDeclarations_eq_ok_iff {o : Options} {ds : List Declaration} {sheet : Sheet} :
    ofDeclarations o ds = .ok sheet ↔
      (∀ d ∈ ds, ∃ result, d.text? o = .ok result) ∧
        Block.ofWrites (ds.map (Declaration.write o)) = .ok sheet := by
  constructor
  · intro h
    have htext := text?_of_foldlM_add h
    rw [ofDeclarations_eq_ofWrites htext, ofClash_eq_ok_iff] at h
    exact ⟨htext, h⟩
  · rintro ⟨htext, h⟩
    rwa [ofDeclarations_eq_ofWrites htext, ofClash_eq_ok_iff]

end Sheet

end Stylesheet
