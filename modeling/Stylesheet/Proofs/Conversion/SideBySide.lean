import Stylesheet.Proofs.Conversion.Assemble
import Stylesheet.Proofs.Declaration.FunctionFree
import Stylesheet.Proofs.Sheet.Merge

/-!
# Rules side by side

A mapping of rules and what stands beside it in a list are converted to their two sheets merged, as
long as nothing in them is computed and the options do not ask for sorting.

## Main statements

* `declarations_pair` — the declarations of rules side by side.
* `Conversion.result_sheet` — the result of a conversion whose declarations are known.
* `Conversion.isMergeOf_sideBySide` — the sheet of rules side by side.
-/

namespace Stylesheet

variable {σ : Type}

/-- The declarations of a mapping and of what stands beside it are those of the one and then those
of the other. -/
theorem declarations_pair (caller : Caller σ) (o : Options) (kind : SeqKind) {rules rules' : Value}
    (h : rules.isMapping = true) :
    declarations caller o (.seq kind [rules, rules']) = do
      let ds ← declarations caller o rules
      let ds' ← declarations caller o rules'
      return ds ++ ds' := by
  have hscalar : rules.isScalar = false := by
    cases rules <;> simp_all [Value.isMapping, Value.isScalar]
  have hitems : ∀ called : Value → List String → Run σ (List Declaration),
      Value.declarationsWith called (.seq kind [rules, rules']) [] = do
        let ds ← Value.declarationsWith called rules []
        let ds' ← Value.declarationsWith called rules' []
        return ds ++ ds' := by
    intro called
    simp [Value.declarationsWith, Value.declarationsOfItems, hscalar]
  rw [declarations, declarations, declarations]
  cases maxLevels <;> exact hitems _

namespace Conversion

/-- The result of a conversion whose declarations are known, and their values to no computation. -/
theorem result_sheet {caller : Caller σ} {o : Options} {rules : Value} {given : Option Value}
    {keywords : List (String × Value)} {result : Except Fault (List Declaration)}
    (ho : readOptions ["rules"] given keywords = .ok o)
    (h : declarations caller o rules = Run.ofExcept result)
    (hfree : ∀ ds, result = .ok ds → ∀ d ∈ ds, d.value.isFunctionFree = true) (s : σ) :
    ((Conversion.sheet caller rules given keywords).run s).1.result = result >>= assemble o := by
  rw [Conversion.sheet, ho]
  change ((sheetWith caller o rules).run s).1.result = _
  rw [run_sheetWith, h, Run.run_ofExcept]
  cases result with
  | error fault => rfl
  | ok ds =>
    dsimp only
    rw [Declaration.map_reread_eq_self (hfree ds rfl)]
    rfl

/-- The values that a tree without computations declares are known to none. -/
theorem isFunctionFree_of_result {caller : Caller σ} {o : Options} {rules : Value}
    {result : Except Fault (List Declaration)} (hfree : rules.isFunctionFree = true) (s : σ)
    (h : declarations caller o rules = Run.ofExcept result) :
    ∀ ds, result = .ok ds → ∀ d ∈ ds, d.value.isFunctionFree = true := by
  rintro ds rfl
  have hrun : (declarations caller o rules).run.run s = (.ok ds, s) := by
    rw [h]
    rfl
  exact isFunctionFree_of_declarations hfree hrun

/-- Two lists of declarations, one after the other, are assembled to their sheets merged, unless
these are sorted. -/
theorem isMergeOf_assemble {o : Options} (hsort : o.sort = false)
    (result result' : Except Fault (List Declaration)) :
    Sheet.IsMergeOf
      ((do
        let ds ← result
        let ds' ← result'
        return ds ++ ds') >>= assemble o)
      (result >>= assemble o) (result' >>= assemble o) := by
  have hassemble : ∀ ds, assemble o ds = Sheet.ofDeclarations o (ds.map Declaration.composed) := by
    intro ds
    have harranged : Sheet.arranged o = id := funext fun sheet => by simp [Sheet.arranged, hsort]
    rw [assemble, harranged, id_map]
  rcases result with fault | ds
  · exact ⟨nofun, nofun, nofun⟩
  · rcases result' with fault | ds'
    · exact ⟨nofun, nofun, nofun⟩
    · change Sheet.IsMergeOf (assemble o (ds ++ ds')) (assemble o ds) (assemble o ds')
      rw [hassemble, hassemble, hassemble, List.map_append]
      exact Sheet.isMergeOf_ofDeclarations o _ _

/-- The sheet of two lists of declarations, one after the other, is their sheets merged.  So is that
of a mapping and what stands beside it, if nothing in them is computed and the sheet is not
sorted. -/
theorem isMergeOf_sideBySide (caller : Caller σ) (o : Options) :
    (∀ ds ds' : List Declaration,
      Sheet.IsMergeOf (Sheet.ofDeclarations o (ds ++ ds')) (Sheet.ofDeclarations o ds)
        (Sheet.ofDeclarations o ds')) ∧
      ∀ (rules rules' : Value) (kind : SeqKind) (given : Option Value)
        (keywords : List (String × Value)),
        rules.isMapping = true → rules.isFunctionFree = true → rules'.isFunctionFree = true →
        readOptions ["rules"] given keywords = .ok o → o.sort = false →
        ∀ s s₁ s₂ : σ,
          Sheet.IsMergeOf
            ((sheet caller (.seq kind [rules, rules']) given keywords).run s).1.result
            ((sheet caller rules given keywords).run s₁).1.result
            ((sheet caller rules' given keywords).run s₂).1.result := by
  refine ⟨Sheet.isMergeOf_ofDeclarations o, ?_⟩
  intro rules rules' kind given keywords hmapping hfree hfree' ho hsort s s₁ s₂
  obtain ⟨result, hresult⟩ := isPure_declarations caller o hfree
  obtain ⟨result', hresult'⟩ := isPure_declarations caller o hfree'
  have hboth : declarations caller o (.seq kind [rules, rules']) =
      Run.ofExcept (do
        let ds ← result
        let ds' ← result'
        return ds ++ ds') := by
    rw [declarations_pair caller o kind hmapping, hresult, hresult']
    cases result with
    | error fault => rfl
    | ok ds => cases result' <;> rfl
  have hvalues := isFunctionFree_of_result hfree s hresult
  have hvalues' := isFunctionFree_of_result hfree' s hresult'
  rw [result_sheet ho hboth, result_sheet ho hresult hvalues, result_sheet ho hresult' hvalues']
  · exact isMergeOf_assemble hsort result result'
  · intro ds hds
    rcases result with fault | first
    · cases hds
    · rcases result' with fault | second
      · cases hds
      · obtain rfl := Except.ok.inj hds
        exact List.forall_mem_append.2 ⟨hvalues first rfl, hvalues' second rfl⟩

/-- Rules for a block, a block nested in it and a media query. -/
def baseRules : Value :=
  .mapping .plain
    [(.text "b", .mapping .plain
        [(.text "color", .text "red"), (.text "margin", .int 0),
         (.text "@media print", .mapping .plain [(.text "color", .text "black")])])]

/-- Rules of which some overwrite a text of `baseRules` and some are new. -/
def themeRules : Value :=
  .mapping .plain
    [(.text "i, b", .mapping .plain
        [(.text "padding", .int 1), (.text "color", .text "blue"),
         (.text "@media print", .mapping .plain [(.text "top", .int 2)])])]

/-- Rules with a text where `baseRules` have a block. -/
def bareRules : Value := .mapping .plain [(.text "b", .text "red")]

/-- The sheet of `baseRules`. -/
def baseSheet : Sheet :=
  .nest "b" (.declare "color" "red" (.declare "margin" "0" .empty))
    (.nest "@media print" (.nest "b" (.declare "color" "black" .empty) .empty) .empty)

/-- The sheet of `themeRules`. -/
def themeSheet : Sheet :=
  let coloured : Sheet := .declare "padding" "1px" (.declare "color" "blue" .empty)
  let placed : Sheet := .declare "top" "2px" .empty
  .nest "i" coloured
    (.nest "@media print" (.nest "i" placed (.nest "b" placed .empty)) (.nest "b" coloured .empty))

/-- The sheet of `baseRules` with that of `themeRules` merged into it. -/
def themedSheet : Sheet :=
  .nest "b" (.declare "color" "blue" (.declare "margin" "0" (.declare "padding" "1px" .empty)))
    (.nest "@media print"
      (.nest "b" (.declare "color" "black" (.declare "top" "2px" .empty))
        (.nest "i" (.declare "top" "2px" .empty) .empty))
      (.nest "i" (.declare "padding" "1px" (.declare "color" "blue" .empty)) .empty))

theorem isMergeOf_themedSheet :
    ((sheet Ledger.call (.seq .list [baseRules, themeRules]) none []).run .empty).1.result =
        .ok themedSheet ∧
      ∃ path key,
        ((sheet Ledger.call (.seq .tuple [baseRules, bareRules]) none []).run .empty).1.result =
          .error (.conflict path key) :=
  have hbase : ((sheet Ledger.call baseRules none []).run .empty).1.result = .ok baseSheet := by
    decide +kernel
  have htheme : ((sheet Ledger.call themeRules none []).run .empty).1.result = .ok themeSheet := by
    decide +kernel
  have hbare : ((sheet Ledger.call bareRules none []).run .empty).1.result =
      .ok (.declare "b" "red" .empty) := by
    decide +kernel
  have hread : readOptions ["rules"] none [] = .ok .default := rfl
  have hthemed := (isMergeOf_sideBySide Ledger.call .default).2 baseRules themeRules .list none []
    rfl rfl rfl hread rfl .empty .empty .empty
  have hclash := (isMergeOf_sideBySide Ledger.call .default).2 baseRules bareRules .tuple none []
    rfl rfl rfl hread rfl .empty .empty .empty
  ⟨hthemed.merged _ _ _ hbase htheme (by decide +kernel),
    hclash.conflict _ _ hbase hbare (by decide +kernel)⟩

end Conversion

end Stylesheet
