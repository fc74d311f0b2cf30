import Stylesheet.Proofs.Sheet.Write

/-!
# Nesting conflicts

A place of a sheet cannot hold a text and a block.  Two declarations clash if the place of one,
which has a value, is the start of the selector of the other.  Clashes are all that a sheet can fail
by once the values of its declarations can be written, whichever of the two declarations comes
first, and they are found at the first declaration that makes one.

## Main definitions

* `Sheet.ClashAt`, `Sheet.HasClash` — the clashes in a list of declarations.

## Main statements

* `Sheet.ofDeclarations_eq_conflict_iff` — when a conflict is raised, at which declaration, and what
  it tells.
-/

namespace Stylesheet.Sheet

/-- Whether a list of declarations puts a text at a place that is on the selector of a
declaration. -/
def ClashAt (o : Options) (ds : List Declaration) (p : List String) : Prop :=
  ∃ r ∈ ds, ∃ s ∈ ds, r.value.kind ≠ .empty ∧ r.place o = p ∧ p <+: s.selector

/-- Whether two declarations of a list clash. -/
def HasClash (o : Options) (ds : List Declaration) : Prop :=
  ∃ r ∈ ds, ∃ s ∈ ds, r.value.kind ≠ .empty ∧ r.place o <+: s.selector

instance (o : Options) (ds : List Declaration) : Decidable (HasClash o ds) :=
  inferInstanceAs (Decidable (∃ r ∈ ds, ∃ s ∈ ds, _ ∧ _))

variable {o : Options} {ds : List Declaration}

theorem exists_clashAt_iff : (∃ p, ClashAt o ds p) ↔ HasClash o ds := by
  constructor
  · rintro ⟨p, r, hr, s, hs, hkind, rfl, hpath⟩
    exact ⟨r, hr, s, hs, hkind, hpath⟩
  · rintro ⟨r, hr, s, hs, hkind, hpath⟩
    exact ⟨r.place o, r, hr, s, hs, hkind, rfl, hpath⟩

/-- The clashes of declarations are those of their writes. -/
theorem clashAt_write_iff (h : ∀ d ∈ ds, ∃ result, d.text? o = .ok result) (p : List String) :
    Block.ClashAt (ds.map (Declaration.write o)) p ↔ ClashAt o ds p := by
  rw [Block.ClashAt, Declaration.exists_mem_assigns_iff h, Declaration.exists_mem_path_iff]
  constructor
  · rintro ⟨⟨r, hr, hkind, hplace⟩, s, hs, hpath⟩
    exact ⟨r, hr, s, hs, hkind, hplace, hpath⟩
  · rintro ⟨r, hr, s, hs, hkind, hplace, hpath⟩
    exact ⟨⟨r, hr, hkind, hplace⟩, s, hs, hpath⟩

theorem ofClash_eq_error_iff {result : Block.Clash String Sheet} {fault : Fault} :
    ofClash result = .error fault ↔ ∃ e, result = .error e ∧ fault = clashFault e := by
  cases result <;> simp [ofClash, eq_comm]

/-- The fault of a clash tells its place. -/
theorem clashFault_concat (path : List String) (key : String) :
    clashFault (path ++ [key]) = .conflict path (some key) := by
  simp [clashFault]

/-- A list of declarations whose values can be written fails at the first declaration that clashes
with it or an earlier one, and with the place of such a clash. -/
theorem exists_add_eq_error {fault : Fault} (h : ∀ d ∈ ds, ∃ result, d.text? o = .ok result)
    (hfault : ofDeclarations o ds = .error fault) :
    ∃ before d after sheet e, ds = before ++ d :: after ∧ ofDeclarations o before = .ok sheet ∧
      add o sheet d = .error fault ∧ fault = clashFault e ∧ (¬ HasClash o before) ∧
      ClashAt o (before ++ [d]) e := by
  rw [ofDeclarations_eq_ofWrites h] at hfault
  obtain ⟨e, hrun, rfl⟩ := ofClash_eq_error_iff.1 hfault
  obtain ⟨ws, w, ws', sheet, hws, hbefore, hput⟩ := Block.exists_put_eq_error hrun
  obtain ⟨before, rest, rfl, rfl, hrest⟩ := List.map_eq_append_iff.1 hws
  obtain ⟨d, after, rfl, rfl, rfl⟩ := List.map_eq_cons_iff.1 hrest
  have htext : ∀ d' ∈ before ++ [d], ∃ result, d'.text? o = .ok result := by
    intro d' hd'
    refine h d' ?_
    rw [List.mem_append, List.mem_singleton] at hd'
    rw [List.mem_append, List.mem_cons]
    exact hd'.imp_right .inl
  have htext' : ∀ d' ∈ before, ∃ result, d'.text? o = .ok result :=
    fun d' hd' => htext d' (List.mem_append_left _ hd')
  obtain ⟨result, hresult⟩ := htext d (by simp)
  refine ⟨before, d, after, sheet, e, rfl, ?_, ?_, rfl, ?_, ?_⟩
  · exact ofDeclarations_eq_ok_iff.2 ⟨htext', hbefore⟩
  · rw [add_eq_put hresult, hput]
    rfl
  · rw [← exists_clashAt_iff]
    rintro ⟨p, hp⟩
    exact Block.not_clashAt_of_ofWrites hbefore p ((clashAt_write_iff htext' p).2 hp)
  · rw [← clashAt_write_iff htext, List.map_append]
    exact Block.clashAt_of_put_eq_error hbefore hput

theorem exists_ofDeclarations_eq_error_iff (h : ∀ d ∈ ds, ∃ result, d.text? o = .ok result) :
    (∃ fault, ofDeclarations o ds = .error fault) ↔ HasClash o ds := by
  have hclash : (∃ p, Block.ClashAt (ds.map (Declaration.write o)) p) ↔ ∃ p, ClashAt o ds p :=
    exists_congr (clashAt_write_iff h)
  rw [← exists_clashAt_iff, ← hclash, ← Block.exists_ofWrites_eq_error_iff,
    ofDeclarations_eq_ofWrites h]
  simp only [ofClash_eq_error_iff]
  constructor
  · rintro ⟨fault, e, he, -⟩
    exact ⟨e, he⟩
  · rintro ⟨e, he⟩
    exact ⟨_, e, he, rfl⟩

/-- Declarations whose values can be written raise a conflict exactly if two of them clash, in
whichever order they come, and no other fault.  The conflict is raised at the first declaration
after which two have clashed, and it tells the place of two that have. -/
theorem ofDeclarations_eq_conflict_iff (o : Options) (ds : List Declaration)
    (h : ∀ d ∈ ds, ∃ result,
      Property.value o.unit (Property.name o.isCustom d.property) d.value = .ok result) :
    ((∃ path key, ofDeclarations o ds = .error (.conflict path key)) ↔ HasClash o ds) ∧
      ∀ fault, ofDeclarations o ds = .error fault →
        ∃ before d after sheet path key, ds = before ++ d :: after ∧
          fault = .conflict path (some key) ∧
          ofDeclarations o before = .ok sheet ∧ add o sheet d = .error fault ∧
          (¬ HasClash o before) ∧ ClashAt o (before ++ [d]) (path ++ [key]) := by
  have hraised : ∀ fault, ofDeclarations o ds = .error fault →
      ∃ before d after sheet path key, ds = before ++ d :: after ∧
        fault = .conflict path (some key) ∧
        ofDeclarations o before = .ok sheet ∧ add o sheet d = .error fault ∧
        (¬ HasClash o before) ∧ ClashAt o (before ++ [d]) (path ++ [key]) := by
    intro fault hfault
    obtain ⟨before, d, after, sheet, e, hds, hbefore, hadd, rfl, hfirst, hclash⟩ :=
      exists_add_eq_error h hfault
    obtain ⟨r, -, s, -, -, rfl, -⟩ := id hclash
    rw [Declaration.place] at hadd hclash ⊢
    exact ⟨before, d, after, sheet, r.selector, r.name o, hds, clashFault_concat _ _, hbefore,
      hadd, hfirst, hclash⟩
  refine ⟨?_, hraised⟩
  rw [← exists_ofDeclarations_eq_error_iff h]
  constructor
  · rintro ⟨path, key, hfault⟩
    exact ⟨_, hfault⟩
  · rintro ⟨fault, hfault⟩
    obtain ⟨_, _, _, _, path, key, _, rfl, _⟩ := hraised fault hfault
    exact ⟨path, some key, hfault⟩

/-- Declarations of which the third puts a text where the first has opened a block. -/
def blockThenText : List Declaration :=
  [⟨["@media print", "b"], "color", .text "blue"⟩, ⟨["i"], "margin", .none⟩,
   ⟨["@media print"], "b", .text "red"⟩, ⟨["i", "u"], "color", .text "red"⟩]

theorem exists_conflict_blockThenText :
    (∀ d ∈ blockThenText, ∃ result,
      Property.value "px" (Property.name Options.default.isCustom d.property) d.value =
        .ok result) ∧
      HasClash .default blockThenText ∧
      ∃ path key, ofDeclarations .default blockThenText = .error (.conflict path key) :=
  have htext : ∀ d ∈ blockThenText, ∃ result,
      Property.value "px" (Property.name Options.default.isCustom d.property) d.value =
        .ok result := by
    simp only [blockThenText, List.forall_mem_cons]
    exact ⟨⟨_, rfl⟩, ⟨_, rfl⟩, ⟨_, rfl⟩, ⟨_, rfl⟩, by simp⟩
  have hclash : HasClash .default blockThenText := by decide +kernel
  ⟨htext, hclash, (ofDeclarations_eq_conflict_iff .default blockThenText htext).1.2 hclash⟩

end Stylesheet.Sheet
