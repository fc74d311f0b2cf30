import Stylesheet.Proofs.Declaration.Clean
import Stylesheet.Proofs.Declaration.Enumeration

/-!
# Declarations that are read again

The declarations of a tree have all been found before the first of their values is written.  By then
computations may have changed lists that are among the values.  Nothing else of a declaration
changes, and in a tree without computations nothing at all does.

## Main definitions

* `ForallDeclarations` — what holds of all declarations of a tree.
* `KeepsValues` — runs in which no list is emptied between being found and being read.

## Main statements

* `Declaration.map_reread_eq_self`, `isFunctionFree_of_declarations` — declarations that stay as
  they are, and trees that have none but such.
* `KeepsValues.isLeaf_reread` — what declarations are like when they are read again.
-/

namespace Stylesheet

variable {σ : Type} {caller : Caller σ} {s : σ}

namespace Declaration

theorem selector_reread (d : Declaration) : (d.reread caller s).selector = d.selector := by
  unfold reread
  split <;> rfl

theorem property_reread (d : Declaration) : (d.reread caller s).property = d.property := by
  unfold reread
  split <;> rfl

/-- A declaration whose value no computation knows stays as it is. -/
theorem reread_eq_self {d : Declaration} (h : d.value.isFunctionFree = true) :
    d.reread caller s = d := by
  unfold reread
  split
  · next hvalue =>
    rw [hvalue] at h
    cases h
  · rfl

theorem map_reread_eq_self {ds : List Declaration}
    (h : ∀ d ∈ ds, d.value.isFunctionFree = true) : ds.map (reread caller s) = ds :=
  (List.map_congr_left fun d hd => reread_eq_self (h d hd)).trans (List.map_id ds)

/-- A declaration as a tree makes them stays one as long as it has a value. -/
theorem IsLeaf.reread {d : Declaration} (h : d.IsLeaf)
    (hvalue : (d.reread caller s).value.kind ≠ .empty) : (d.reread caller s).IsLeaf where
  selector := d.selector_reread ▸ h.selector
  property := d.property_reread ▸ h.property
  value := hvalue

end Declaration

/-- The leaf of a way through a tree without computations is itself without them. -/
theorem Value.Occurs.isFunctionFree {value : Value} {occ : Occurrence} (h : value.Occurs occ)
    (hfree : value.isFunctionFree = true) : occ.leaf.isFunctionFree = true := by
  induction h with
  | leaf => exact hfree
  | element _ hitem _ ih =>
    exact ih ((isFunctionFree_seq_iff.1 hfree).2 _ (List.mem_of_getElem? hitem))
  | entry hentry _ _ _ ih =>
    exact ih (isFunctionFree_mapping_iff.1 hfree _ (List.mem_of_getElem? hentry)).2

variable {o : Options} {rules : Value} {s' : σ} {ds : List Declaration}

/-- No computation knows a value that a tree without computations declares. -/
theorem isFunctionFree_of_declarations (hfree : rules.isFunctionFree = true)
    (h : (declarations caller o rules).run.run s = (.ok ds, s')) :
    ∀ d ∈ ds, d.value.isFunctionFree = true := by
  intro d hd
  obtain ⟨occ, hoccurs, hvalue⟩ := exists_occurs_of_declarations hfree h hd
  exact hvalue ▸ hoccurs.isFunctionFree hfree

/-- Whether all declarations of a tree have a property in the state in which they have been
found. -/
def ForallDeclarations (caller : Caller σ) (o : Options) (rules : Value) (s : σ)
    (P : σ → Declaration → Prop) : Prop :=
  ∀ ds s', (declarations caller o rules).run.run s = (.ok ds, s') → ∀ d ∈ ds, P s' d

instance {P : σ → Declaration → Prop} [∀ s d, Decidable (P s d)] :
    Decidable (ForallDeclarations caller o rules s P) :=
  match hrun : (declarations caller o rules).run.run s with
  | (.ok ds, s') =>
    decidable_of_iff (∀ d ∈ ds, P s' d)
      ⟨fun h _ _ hrun' => by cases hrun.symm.trans hrun'; exact h, fun h => h ds s' hrun⟩
  | (.error _, _) => isTrue fun _ _ hrun' => nomatch hrun.symm.trans hrun'

/-- Whether every value that a tree declares is there when the values are read: no computation
empties a list after it has been found. -/
def KeepsValues (caller : Caller σ) (o : Options) (rules : Value) (s : σ) : Prop :=
  ForallDeclarations caller o rules s fun s' d => (d.reread caller s').value.kind ≠ .empty

instance : Decidable (KeepsValues caller o rules s) :=
  inferInstanceAs (Decidable (ForallDeclarations caller o rules s _))

/-- What the declarations of a tree are like when their values are read. -/
theorem KeepsValues.isLeaf_reread (hkeeps : KeepsValues caller o rules s)
    (h : (declarations caller o rules).run.run s = (.ok ds, s')) :
    ∀ d ∈ ds.map (Declaration.reread caller s'), d.IsLeaf := by
  rw [List.forall_mem_map]
  exact fun d hd => (isLeaf_of_declarations h hd).reread (hkeeps ds s' h d hd)

/-- Rules with a list and a computation that knows the list. -/
def emptiedRules : Value :=
  .mapping .plain
    [(.text "a", .mapping .plain
        [(.text "b", .seq (.shared 0) [.int 1, .int 2]), (.text "c", Ledger.entered 0)])]

/-- The computation of `emptiedRules`, which empties the list. -/
def emptyingCall : Ledger := .of #[.change 0 []]

end Stylesheet
