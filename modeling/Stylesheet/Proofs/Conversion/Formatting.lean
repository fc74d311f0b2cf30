import Stylesheet.Proofs.Conversion.Assemble
import Stylesheet.Proofs.Conversion.EntryPoints
import Stylesheet.Proofs.Print.Tree

/-!
# Formatting a finished tree

A tree whose keys are what a conversion makes of them can be formatted as it is, without a unit and
in its own order, or it can be converted first.  Formatting writes the scalars of the tree line by
line; the conversion finds them as declarations, writes them as values of properties, and builds a
sheet that is formatted then.  Both give the same text.

What can keep either of them from giving a text are integers with too many digits, and lines for
whose spaces there is no room.  The conversion meets the former first, and formatting whichever
comes first.

## Main definitions

* `Declaration.IsSettled` — leaves of a tree that a conversion writes as they are printed.
* `Conversion.PrintedAlike` — what it is for a tree to be printed alike in both ways.

## Main statements

* `Conversion.assemble_of_short`, `Conversion.assemble_of_long` — the sheet that the leaves of a
  tree build, and what happens if one of them cannot be written.
* `Conversion.printedAlike_formatted` — a finished tree is printed alike in both ways.
-/

namespace Stylesheet

open Block (Write)

/-! ## Leaves -/

namespace Declaration

/-- A leaf of a tree that a conversion writes as it is printed: its keys, as the fragments of a
selector and as the name of a property, stand for themselves, and it is no empty text. -/
structure IsSettled (isCustom : String → Bool) (w : Write String Value) : Prop where
  keys : ∀ key ∈ w.place, Selector.fragments key = [key]
  name : Property.name isCustom w.key = w.key
  path : Selector.compose w.path = w.path
  value : ∃ v, w.value? = some v ∧ v.isScalar = true ∧ v ≠ .text ""

/-- Whether a value is some text. -/
def decidableEqText (s : String) : ∀ v : Value, Decidable (v = .text s)
  | .text s' => decidable_of_iff (s' = s) ⟨congrArg Value.text, Value.text.inj⟩
  | .none | .bool _ | .int _ | .float _ | .bytes _ | .seq _ _ | .mapping _ _ | .set _ _
  | .symbol _ _ | .stream _ _ _ _ | .deferred _ _ | .method _ _ => isFalse nofun

instance (isCustom : String → Bool) (w : Write String Value) : Decidable (IsSettled isCustom w) :=
  have := decidableEqText ""
  have : Decidable (∃ v, w.value? = some v ∧ v.isScalar = true ∧ v ≠ .text "") :=
    inferInstanceAs (Decidable (∃ v, v ∈ w.value? ∧ v.isScalar = true ∧ v ≠ .text ""))
  decidable_of_iff
    ((∀ key ∈ w.place, Selector.fragments key = [key]) ∧ Property.name isCustom w.key = w.key ∧
      Selector.compose w.path = w.path ∧
        ∃ v, w.value? = some v ∧ v.isScalar = true ∧ v ≠ .text "")
    ⟨fun ⟨hkeys, hname, hpath, hvalue⟩ => ⟨hkeys, hname, hpath, hvalue⟩,
      fun h => ⟨h.keys, h.name, h.path, h.value⟩⟩

variable {o : Options} {w : Write String Value} {v : Value}

theorem IsSettled.isScalar (h : IsSettled o.isCustom w) (hv : w.value? = some v) :
    v.isScalar = true ∧ v ≠ .text "" := by
  obtain ⟨v', hv', hleaf⟩ := h.value
  obtain rfl := Option.some.inj (hv'.symm.trans hv)
  exact hleaf

theorem IsSettled.text?_ofLeaf (h : IsSettled o.isCustom w) (hunit : o.unit = "")
    (hv : w.value? = some v) : (ofLeaf w).composed.text? o = some <$> Property.written v := by
  obtain ⟨hscalar, hne⟩ := h.isScalar hv
  have hvalue : (ofLeaf w).composed.value = v := by simp [composed, ofLeaf, hv]
  rw [text?, hunit, hvalue, Property.value_eq_written _ hscalar hne]

/-- The write that a leaf is converted to, if it is printed. -/
theorem IsSettled.write_ofLeaf (h : IsSettled o.isCustom w) (hunit : o.unit = "")
    (hv : w.value? = some v) {text : String} (hwritten : Property.written v = .ok text) :
    (ofLeaf w).composed.write o = w.mapValue Property.writtenD := by
  have htext : (ofLeaf w).composed.text? o = .ok (some text) := by
    rw [h.text?_ofLeaf hunit hv, hwritten]
    rfl
  have hpath : (ofLeaf w).composed.selector = w.path := h.path
  have hname : (ofLeaf w).composed.name o = w.key := h.name
  rw [write, hpath, hname, htext, Write.mapValue, hv, Option.map_some,
    Property.writtenD_of_written hwritten]
  rfl

end Declaration

/-! ## Converting -/

namespace Conversion

open Declaration (ofLeaf IsSettled)

variable {o : Options} {kind : MappingKind} {entries : List (Value × Value)}
  {b : Block String Value}

/-- The leaves of a tree build the sheet of their texts. -/
theorem ofDeclarations_leaves (hunit : o.unit = "") (hproper : b.IsProper)
    (hsettled : ∀ w ∈ b.leaves, IsSettled o.isCustom w)
    (hwritten : ∀ w ∈ b.leaves, ∀ v, w.value? = some v → ∃ text, Property.written v = .ok text) :
    Sheet.ofDeclarations o ((b.leaves.map ofLeaf).map Declaration.composed) =
      .ok (b.mapValues Property.writtenD) := by
  have hwrites : ∀ w ∈ b.leaves, (∃ result, (ofLeaf w).composed.text? o = .ok result) ∧
      (ofLeaf w).composed.write o = w.mapValue Property.writtenD := by
    intro w hw
    obtain ⟨v, hv, -⟩ := (hsettled w hw).value
    obtain ⟨text, htext⟩ := hwritten w hw v hv
    refine ⟨⟨some text, ?_⟩, (hsettled w hw).write_ofLeaf hunit hv htext⟩
    rw [(hsettled w hw).text?_ofLeaf hunit hv, htext]
    rfl
  refine Sheet.ofDeclarations_of_leaves (Block.isProper_mapValues hproper) ?_ ?_
  · rw [List.forall_mem_map, List.forall_mem_map]
    exact fun w hw => (hwrites w hw).1
  · rw [Block.leaves_mapValues, List.map_map, List.map_map]
    exact List.map_congr_left fun w hw => (hwrites w hw).2

/-- A declaration whose value has no text fails by that, if its blocks can be opened. -/
theorem add_eq_error {sheet opened : Sheet} {d : Declaration} {fault : Fault}
    (hopened : sheet.descend .ok d.selector = .ok opened) (h : d.text? o = .error fault) :
    Sheet.add o sheet d = .error fault := by
  rw [Declaration.text?, Declaration.name] at h
  simp only [Sheet.add, hopened, h]
  rfl

/-- If the texts of the leaves can be put into a sheet, then the leaves are added one by one up to
the first long integer. -/
theorem foldlM_add_eq_error (hunit : o.unit = "") {ws : List (Write String Value)}
    (hsettled : ∀ w ∈ ws, IsSettled o.isCustom w) {sheet built : Sheet}
    (hbuilt : (ws.map (Write.mapValue Property.writtenD)).foldlM Block.put sheet = .ok built)
    (hlong : ∃ w ∈ ws, ∃ v, w.value? = some v ∧ v.hasShortIntegers = false) :
    ((ws.map ofLeaf).map Declaration.composed).foldlM (Sheet.add o) sheet =
      .error .tooManyDigits := by
  induction ws generalizing sheet with
  | nil => simp at hlong
  | cons w rest ih =>
    obtain ⟨hw, hrest⟩ := List.forall_mem_cons.1 hsettled
    obtain ⟨v, hv, hscalar, -⟩ := hw.value
    rw [List.map_cons, List.foldlM_cons] at hbuilt
    rw [List.map_cons, List.map_cons, List.foldlM_cons]
    cases hput : sheet.put (w.mapValue Property.writtenD) with
    | error path =>
      rw [hput] at hbuilt
      cases hbuilt
    | ok sheet' =>
      rw [hput] at hbuilt
      cases hshort : v.hasShortIntegers with
      | true =>
        obtain ⟨text, htext⟩ := Property.exists_written hscalar hshort
        have hadd : Sheet.add o sheet (ofLeaf w).composed = .ok sheet' := by
          have hvalue : (ofLeaf w).composed.text? o = .ok (some text) := by
            rw [hw.text?_ofLeaf hunit hv, htext]
            rfl
          rw [Sheet.add_eq_put hvalue, hw.write_ofLeaf hunit hv htext, hput]
          rfl
        have hothers : ∃ w ∈ rest, ∃ v, w.value? = some v ∧ v.hasShortIntegers = false := by
          obtain ⟨w', hw', v', hv', hlong'⟩ := hlong
          rcases List.mem_cons.1 hw' with rfl | hw'
          · obtain rfl := Option.some.inj (hv.symm.trans hv')
            cases hshort.symm.trans hlong'
          · exact ⟨w', hw', v', hv', hlong'⟩
        rw [hadd]
        exact ih hrest hbuilt hothers
      | false =>
        have hadd : Sheet.add o sheet (ofLeaf w).composed = .error .tooManyDigits := by
          -- The blocks are opened, since something can be put into them.
          obtain ⟨opened, hopened⟩ := Block.exists_descend_eq_ok_of_put hput
          have hselector : (ofLeaf w).composed.selector = w.path := hw.path
          have htext : (ofLeaf w).composed.text? o = .error .tooManyDigits := by
            rw [hw.text?_ofLeaf hunit hv, Property.written_of_long hscalar hshort]
            rfl
          exact add_eq_error (hselector ▸ hopened) htext
        rw [hadd]
        rfl

/-- A tree without long integers is converted to the sheet of its texts. -/
theorem assemble_of_short (hunit : o.unit = "") (hsort : o.sort = false) (hproper : b.IsProper)
    (hsettled : ∀ w ∈ b.leaves, IsSettled o.isCustom w)
    (hshort : ∀ w ∈ b.leaves, ∀ v, w.value? = some v → v.hasShortIntegers = true) :
    assemble o (b.leaves.map ofLeaf) = .ok (b.mapValues Property.writtenD) := by
  rw [assemble, ofDeclarations_leaves hunit hproper hsettled fun w hw v hv =>
    Property.exists_written ((hsettled w hw).isScalar hv).1 (hshort w hw v hv)]
  have harranged : ∀ sheet, Sheet.arranged o sheet = sheet := by
    intro sheet
    rw [Sheet.arranged, hsort]
    rfl
  exact congrArg Except.ok (harranged _)

/-- A tree with a long integer is not converted. -/
theorem assemble_of_long (hunit : o.unit = "") (hproper : b.IsProper)
    (hsettled : ∀ w ∈ b.leaves, IsSettled o.isCustom w)
    (hlong : ∃ w ∈ b.leaves, ∃ v, w.value? = some v ∧ v.hasShortIntegers = false) :
    assemble o (b.leaves.map ofLeaf) = .error .tooManyDigits := by
  have hbuilt : (b.leaves.map (Write.mapValue Property.writtenD)).foldlM Block.put Block.empty =
      .ok (b.mapValues Property.writtenD) := by
    rw [← Block.leaves_mapValues]
    exact Block.ofWrites_leaves (Block.isProper_mapValues hproper)
  rw [assemble, Sheet.ofDeclarations, foldlM_add_eq_error hunit hsettled hbuilt hlong]
  rfl

/-! ## Both ways -/

/-- The options of a conversion without a unit and without sorting are those of formatting, but for
these two. -/
theorem readOptions_plain (customs indent : Value) :
    readOptions ["rules"] none [("unit", .text ""), ("sort", .bool false), ("customs", customs),
        ("indent", indent)] =
      (fun o => { o with unit := "", sort := false }) <$>
        readOptions ["node"] none [("customs", customs), ("indent", indent)] := by
  have hconverted : readOptions ["rules"] none [("unit", .text ""), ("sort", .bool false),
      ("customs", customs), ("indent", indent)] = (do
        let indent ← Options.readIndent indent
        let customs ← Options.readCustoms customs
        return ⟨"", false, indent, customs, []⟩) := rfl
  have hdirect : readOptions ["node"] none [("customs", customs), ("indent", indent)] = (do
        let indent ← Options.readIndent indent
        let customs ← Options.readCustoms customs
        return ⟨"px", false, indent, customs, []⟩) := rfl
  rw [hconverted, hdirect]
  cases Options.readIndent indent <;> cases Options.readCustoms customs <;> rfl

/-- The text of a tree, by its declarations. -/
theorem result_text_of_declarations {σ : Type} {caller : Caller σ} {rules : Value} {s : σ}
    {keywords : List (String × Value)} {ds : List Declaration}
    (ho : readOptions ["rules"] none keywords = .ok o)
    (hds : declarations caller o rules = pure ds)
    (hfree : ∀ d ∈ ds, d.value.isFunctionFree = true) :
    ((text caller rules none keywords).run s).1.result =
      assemble o ds >>= fun sheet => format o.indent sheet.toValue := by
  have hrun : (declarations caller o rules).run.run s = (.ok ds, s) := by
    rw [hds]
    rfl
  simp only [result_text caller rules s ho, sheet, ho, run_sheetWith, hrun,
    Declaration.map_reread_eq_self hfree]

/-- What it is for a tree to be printed alike in both ways, converted first and as it is. -/
structure PrintedAlike (options : Except Fault Options) (node : Value)
    (converted direct : Except Fault String) : Prop where
  /-- Options that cannot be read are refused in both ways. -/
  refused : ∀ fault, options = .error fault → converted = .error fault ∧ direct = .error fault
  /-- Without long integers the results are the same. -/
  same : node.hasShortIntegers = true → converted = direct
  /-- They are a text exactly if there is room for the lines of the tree. -/
  room : ∀ o, options = .ok o → node.hasShortIntegers = true →
    ((∃ text, direct = .ok text) ↔ node.HasRoom o.indent)
  /-- With a long integer both fail: the conversion for that reason, and formatting for that reason
  or because there is no room for a line. -/
  long : ∀ o, options = .ok o → node.hasShortIntegers = false →
    converted = .error .tooManyDigits ∧ ∃ fault, direct = .error fault ∧
      (fault = .tooManyDigits ∨ ∃ line, .ok line ∈ node.lines 0 ∧
        Writer.padding o.indent line.level = .error fault)

/-- What is assembled from the leaves of a tree is printed as the tree is. -/
theorem printedAlike_assemble {o' : Options} (hunit : o'.unit = "") (hsort : o'.sort = false)
    (hspells : Value.Spells entries b) (hproper : b.IsProper)
    (hsettled : ∀ w ∈ b.leaves, IsSettled o'.isCustom w) :
    PrintedAlike (.ok o) (.mapping kind entries)
      (assemble o' (b.leaves.map ofLeaf) >>= fun sheet => format o.indent sheet.toValue)
      (format o.indent (.mapping kind entries)) := by
  have hiff : (Value.mapping kind entries).hasShortIntegers = true ↔
      ∀ w ∈ b.leaves, ∀ v, w.value? = some v → v.hasShortIntegers = true := by
    rw [Value.hasShortIntegers]
    exact Value.entriesHaveShortIntegers_iff hspells
  have hscalar : ∀ w ∈ b.leaves, ∀ v, w.value? = some v → v.isScalar = true :=
    fun w hw v hv => ((hsettled w hw).isScalar hv).1
  refine ⟨fun _ hfault => ?_, fun hshort => ?_, fun o₁ ho₁ hshort => ?_, fun o₁ ho₁ hlong => ?_⟩
  · cases hfault
  · have hwritten := fun w hw v hv =>
      Property.exists_written (hscalar w hw v hv) (hiff.1 hshort w hw v hv)
    rw [assemble_of_short hunit hsort hproper hsettled (hiff.1 hshort)]
    exact (format_of_spells hspells hwritten kind o.indent).symm
  · obtain rfl := Except.ok.inj ho₁
    have hwritten := fun w hw v hv =>
      Property.exists_written (hscalar w hw v hv) (hiff.1 hshort w hw v hv)
    exact exists_format_iff_hasRoom hspells hwritten kind o.indent
  · obtain rfl := Except.ok.inj ho₁
    have hsome : ∃ w ∈ b.leaves, ∃ v, w.value? = some v ∧ v.hasShortIntegers = false := by
      rw [← Bool.not_eq_true, hiff] at hlong
      simpa using hlong
    rw [assemble_of_long hunit hproper hsettled hsome]
    exact ⟨rfl, exists_format_eq_error_of_long hspells hscalar hsome kind o.indent⟩

/-- A tree of mappings whose leaves are settled is printed alike in both ways, whatever the names of
custom properties and the indentation are. -/
theorem printedAlike_formatted {σ : Type} (caller : Caller σ) (s : σ) (customs indent : Value)
    (kind : MappingKind) {entries : List (Value × Value)} {b : Block String Value}
    (hspells : Value.Spells entries b) (hproper : b.IsProper)
    (hsettled : ∀ o, readOptions ["node"] none [("customs", customs), ("indent", indent)] = .ok o →
      ∀ w ∈ b.leaves, IsSettled o.isCustom w) :
    PrintedAlike (readOptions ["node"] none [("customs", customs), ("indent", indent)])
      (.mapping kind entries)
      ((text caller (.mapping kind entries) none [("unit", .text ""), ("sort", .bool false),
        ("customs", customs), ("indent", indent)]).run s).1.result
      (formatted (.mapping kind entries) none [("customs", customs), ("indent", indent)]) := by
  have hplain := readOptions_plain customs indent
  cases ho : readOptions ["node"] none [("customs", customs), ("indent", indent)] with
  | error fault =>
    rw [ho] at hplain
    have hconverted : ((text caller (.mapping kind entries) none [("unit", .text ""),
        ("sort", .bool false), ("customs", customs), ("indent", indent)]).run s).1.result =
          .error fault := by
      rw [text, hplain]
      rfl
    have hdirect : formatted (.mapping kind entries) none
        [("customs", customs), ("indent", indent)] = .error fault := by
      rw [formatted, ho]
      rfl
    rw [hconverted, hdirect]
    refine ⟨fun fault' hfault' => ?_, fun _ => rfl, fun _ ho' => ?_, fun _ ho' => ?_⟩
    · obtain rfl := Except.error.inj hfault'
      exact ⟨rfl, rfl⟩
    · cases ho'
    · cases ho'
  | ok o =>
    rw [ho] at hplain
    obtain ⟨o', ho', hunit, hsort, hindent, hcustom⟩ : ∃ o', readOptions ["rules"] none
        [("unit", .text ""), ("sort", .bool false), ("customs", customs), ("indent", indent)] =
          .ok o' ∧ o'.unit = "" ∧ o'.sort = false ∧ o'.indent = o.indent ∧
          o'.isCustom = o.isCustom := ⟨_, hplain, rfl, rfl, rfl, rfl⟩
    have hleaves : ∀ w ∈ b.leaves, IsSettled o'.isCustom w := hcustom ▸ hsettled o ho
    have hscalar : ∀ w ∈ b.leaves, ∀ v, w.value? = some v → v.isScalar = true :=
      fun w hw v hv => ((hleaves w hw).isScalar hv).1
    have hdeclarations : declarations caller o' (.mapping kind entries) =
        pure (b.leaves.map ofLeaf) :=
      Value.declarations_of_spells hspells hproper (fun w hw => (hleaves w hw).keys) hscalar
    have hdirect : formatted (.mapping kind entries) none
        [("customs", customs), ("indent", indent)] = format o.indent (.mapping kind entries) := by
      rw [formatted, ho]
      rfl
    have hfree : ∀ d ∈ b.leaves.map ofLeaf, d.value.isFunctionFree = true := by
      rw [List.forall_mem_map]
      intro w hw
      obtain ⟨v, hv, hscalar, -⟩ := (hleaves w hw).value
      have hvalue : (ofLeaf w).value = v := by simp [ofLeaf, hv]
      exact hvalue ▸ Value.isFunctionFree_of_isScalar hscalar
    rw [result_text_of_declarations ho' hdeclarations hfree, hdirect, hindent]
    exact printedAlike_assemble hunit hsort hspells hproper hleaves

/-- The entries of a tree of scalars, with a mapping of another kind in it. -/
def scalarEntries : List (Value × Value) :=
  [(.text "@media print", .mapping .view
      [(.text "u", .mapping .plain [(.text "top", .float (.ofDecimal true 0 0))])]),
   (.text "b", .mapping .plain [(.text "--gap", .float (.ofDecimal false 30 (-1))),
     (.text "zoom", .bool true), (.text "margin", .int (-7)), (.text "color", .text "red")])]

/-- The block that `scalarEntries` spell. -/
def scalarBlock : Block String Value :=
  .nest "@media print" (.nest "u" (.declare "top" (.float (.ofDecimal true 0 0)) .empty) .empty)
    (.nest "b" (.declare "--gap" (.float (.ofDecimal false 30 (-1))) (.declare "zoom" (.bool true)
      (.declare "margin" (.int (-7)) (.declare "color" (.text "red") .empty)))) .empty)

/-- The text of `scalarEntries`. -/
def scalarText : String :=
  "@media print \x7b\n  u \x7b\n    top: 0;\n  \x7d\n\x7d\n" ++
    "b \x7b\n  --gap: 3;\n  zoom: true;\n  margin: -7;\n  color: red;\n\x7d"

theorem printedAlike_scalarEntries :
    ((text Ledger.call (.mapping .plain scalarEntries) none [("unit", .text ""),
        ("sort", .bool false), ("customs", .text "gap"), ("indent", .int 2)]).run .empty).1.result =
      .ok scalarText := by
  have hspells : Value.Spells scalarEntries scalarBlock :=
    .nest (.nest (.declare rfl .empty) .empty) (.nest (.declare rfl (.declare rfl (.declare rfl
      (.declare rfl .empty)))) .empty)
  have hproper : scalarBlock.IsProper := by
    simp [scalarBlock, Block.IsProper, Block.keys]
  have hsettled : ∀ o, readOptions ["node"] none [("customs", .text "gap"), ("indent", .int 2)] =
      .ok o → ∀ w ∈ scalarBlock.leaves, IsSettled o.isCustom w := by
    intro o ho
    obtain rfl : Options.mk "px" false 2 (some [.text "gap"]) [] = o := Except.ok.inj ho
    decide +kernel
  have hdirect : formatted (.mapping .plain scalarEntries) none
      [("customs", .text "gap"), ("indent", .int 2)] = .ok scalarText := by
    decide +kernel
  have halike := printedAlike_formatted Ledger.call .empty (.text "gap") (.int 2) .plain hspells
    hproper hsettled
  exact (halike.same (by decide +kernel)).trans hdirect

/-- The entries of a tree with an integer that is too long. -/
def longEntries : List (Value × Value) :=
  [(.text "a", .mapping .plain
    [(.text "top", .int 1), (.text "left", .int (Nat.pow 10 IntegerText.maxDigits))])]

/-- The block that `longEntries` spell. -/
def longBlock : Block String Value :=
  .nest "a" (.declare "top" (.int 1)
    (.declare "left" (.int (Nat.pow 10 IntegerText.maxDigits)) .empty)) .empty

/-- A line for whose spaces there is no room may come before the long integer. -/
theorem not_forall_text_or_tooManyDigits :
    ¬ ∀ (customs indent : Value) (kind : MappingKind) (entries : List (Value × Value))
      (b : Block String Value) (s : Ledger), Value.Spells entries b → b.IsProper →
      (∀ o, readOptions ["node"] none [("customs", customs), ("indent", indent)] = .ok o →
        ∀ w ∈ b.leaves, IsSettled o.isCustom w) →
      ∃ result, ((text Ledger.call (.mapping kind entries) none [("unit", .text ""),
          ("sort", .bool false), ("customs", customs), ("indent", indent)]).run s).1.result =
            result ∧
        formatted (.mapping kind entries) none [("customs", customs), ("indent", indent)] =
          result ∧
        ((∃ t, result = .ok t) ∨ result = .error .tooManyDigits) := by
  intro h
  have hspells : Value.Spells longEntries longBlock :=
    .nest (.declare rfl (.declare rfl .empty)) .empty
  have hproper : longBlock.IsProper := by
    refine ⟨List.not_mem_nil, ⟨fun heq => ?_, ?_, List.not_mem_nil, trivial⟩, trivial⟩
    · cases heq
    · decide +kernel
  have hsettled : ∀ o, readOptions ["node"] none [("customs", .seq .list []),
      ("indent", .int 100000000000000000000)] = .ok o →
        ∀ w ∈ longBlock.leaves, IsSettled o.isCustom w := by
    intro o ho
    obtain rfl : Options.mk "px" false 100000000000000000000 none [] = o := Except.ok.inj ho
    decide +kernel
  have hdirect : formatted (.mapping .plain longEntries) none
      [("customs", .seq .list []), ("indent", .int 100000000000000000000)] = .error .tooLarge := by
    decide +kernel
  obtain ⟨result, -, hresult, ⟨t, ht⟩ | hlong⟩ := h (.seq .list [])
    (.int 100000000000000000000) .plain longEntries longBlock .empty hspells hproper hsettled
  · cases hdirect.symm.trans (hresult.trans ht)
  · cases hdirect.symm.trans (hresult.trans hlong)

end Conversion

end Stylesheet
