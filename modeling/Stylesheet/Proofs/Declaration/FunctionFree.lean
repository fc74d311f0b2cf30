import Stylesheet.Proofs.Declaration.Tree

/-!
# Trees without computations

A tree in which nothing can be called has the same declarations wherever and whenever it is
converted: finding them neither looks at the state of a run nor changes it, and no list in it is
known to a computation that could change it.

## Main definitions

* `Value.isShowable` — values that nothing called in them keeps from being shown.
* `Value.isFunctionFree` — trees in which nothing can be called or changed.
* `Run.IsPure` — runs that leave their state alone.

## Main statements

* `isPure_declarations` — finding the declarations of a tree without computations is pure.
-/

namespace Stylesheet

namespace Value

mutual

/-- Whether everything in a value that can be called has a shown form. -/
def isShowable : Value → Bool
  | deferred _ shown => shown.isOk
  | method _ owner => isShowable owner
  | seq _ items | set _ items => areShowable items
  | mapping _ entries => entriesShowable entries
  | _ => true

/-- Whether everything in the elements of a list that can be called has a shown form. -/
def areShowable : List Value → Bool
  | [] => true
  | item :: rest => isShowable item && areShowable rest

/-- Whether everything in the entries of a mapping that can be called has a shown form. -/
def entriesShowable : List (Value × Value) → Bool
  | [] => true
  | (key, child) :: rest => isShowable key && isShowable child && entriesShowable rest

end

mutual

/-- Whether nothing in a tree can be called, or is known to something that can.  Keys and elements
of sets are not called, but they are shown. -/
def isFunctionFree : Value → Bool
  | deferred _ _ | method _ _ | seq (.shared _) _ => false
  | seq _ items => areFunctionFree items
  | set _ items => areShowable items
  | mapping _ entries => entriesFunctionFree entries
  | _ => true

/-- Whether nothing in the elements of a list can be called. -/
def areFunctionFree : List Value → Bool
  | [] => true
  | item :: rest => isFunctionFree item && areFunctionFree rest

/-- Whether nothing under the keys of a mapping can be called. -/
def entriesFunctionFree : List (Value × Value) → Bool
  | [] => true
  | (key, child) :: rest => isShowable key && isFunctionFree child && entriesFunctionFree rest

end

theorem areShowable_iff {items : List Value} :
    areShowable items = true ↔ ∀ item ∈ items, item.isShowable = true := by
  induction items with
  | nil => simp [areShowable]
  | cons item rest ih => rw [areShowable, Bool.and_eq_true, ih, List.forall_mem_cons]

theorem entriesShowable_iff {entries : List (Value × Value)} :
    entriesShowable entries = true ↔
      ∀ entry ∈ entries, entry.1.isShowable = true ∧ entry.2.isShowable = true := by
  induction entries with
  | nil => simp [entriesShowable]
  | cons entry rest ih =>
    rw [entriesShowable, Bool.and_eq_true, Bool.and_eq_true, ih, List.forall_mem_cons]

theorem isFunctionFree_seq_iff {kind : SeqKind} {items : List Value} :
    (seq kind items).isFunctionFree = true ↔
      (∀ id, kind ≠ .shared id) ∧ ∀ item ∈ items, item.isFunctionFree = true := by
  have hitems : areFunctionFree items = true ↔ ∀ item ∈ items, item.isFunctionFree = true := by
    induction items with
    | nil => simp [areFunctionFree]
    | cons item rest ih => rw [areFunctionFree, Bool.and_eq_true, ih, List.forall_mem_cons]
  rw [← hitems]
  cases kind <;> simp [isFunctionFree]

theorem isFunctionFree_mapping_iff {kind : MappingKind} {entries : List (Value × Value)} :
    (mapping kind entries).isFunctionFree = true ↔ ∀ entry ∈ entries,
      entry.1.isShowable = true ∧ entry.2.isFunctionFree = true := by
  rw [isFunctionFree]
  induction entries with
  | nil => simp [entriesFunctionFree]
  | cons entry rest ih =>
    rw [entriesFunctionFree, Bool.and_eq_true, Bool.and_eq_true, ih, List.forall_mem_cons]

/-- What cannot be called does not keep a tree from being shown. -/
theorem isShowable_of_isFunctionFree {value : Value} (h : value.isFunctionFree = true) :
    value.isShowable = true := by
  induction value using tree_induction with
  | seq kind items ih =>
    have hitems := (isFunctionFree_seq_iff.1 h).2
    exact areShowable_iff.2 fun item hitem => ih item hitem (hitems item hitem)
  | mapping kind entries ih =>
    have hentries := isFunctionFree_mapping_iff.1 h
    exact entriesShowable_iff.2 fun entry hentry =>
      ⟨(hentries entry hentry).1, ih entry hentry (hentries entry hentry).2⟩
  | other value hseq hmapping =>
    cases value with
    | seq => exact absurd rfl (hseq _ _)
    | mapping => exact absurd rfl (hmapping _ _)
    | deferred | method => cases h
    | set => exact h
    | none | bool | int | float | text | bytes | symbol | stream => rfl

end Value

namespace Run

variable {σ α β : Type}

/-- A run that leaves its state alone and gives the same result in every state. -/
def IsPure (run : Run σ α) : Prop :=
  ∃ result, run = Run.ofExcept result

theorem isPure_ofExcept (result : Except Fault α) : IsPure (Run.ofExcept result : Run σ α) :=
  ⟨result, rfl⟩

theorem isPure_pure (a : α) : IsPure (pure a : Run σ α) :=
  ⟨.ok a, rfl⟩

theorem IsPure.bind {first : Run σ α} {next : α → Run σ β} (h : IsPure first)
    (hnext : ∀ a, IsPure (next a)) : IsPure (first >>= next) := by
  obtain ⟨result, rfl⟩ := h
  cases result with
  | error fault => exact ⟨.error fault, rfl⟩
  | ok a => exact hnext a

theorem isPure_mapM {f : β → Run σ α} {bs : List β} (h : ∀ b ∈ bs, IsPure (f b)) :
    IsPure (bs.mapM f) := by
  induction bs with
  | nil => exact isPure_pure []
  | cons b bs ih =>
    obtain ⟨hb, hbs⟩ := List.forall_mem_cons.1 h
    rw [List.mapM_cons]
    exact hb.bind fun a => (ih hbs).bind fun as => isPure_pure (a :: as)

end Run

namespace Value

variable {σ : Type} {called : Value → List String → Run σ (List Declaration)}

theorem isPure_declarationsWith (value : Value) (path : List String)
    (h : value.isFunctionFree = true) : Run.IsPure (declarationsWith called value path) := by
  induction value using tree_induction generalizing path with
  | seq kind items ih =>
    have hitems := (isFunctionFree_seq_iff.1 h).2
    rw [declarationsWith]
    split
    · exact Run.isPure_pure []
    · split
      · exact Run.isPure_ofExcept _
      · rw [declarationsOfItems_eq]
        exact (Run.isPure_mapM fun item hitem => ih item hitem path (hitems item hitem)).bind
          fun _ => Run.isPure_pure _
  | mapping kind entries ih =>
    have hentries := isFunctionFree_mapping_iff.1 h
    rw [declarationsWith, declarationsOfEntries_eq]
    refine (Run.isPure_mapM fun entry hentry => ?_).bind fun _ => Run.isPure_pure _
    refine (Run.isPure_ofExcept _).bind fun fragments => ?_
    exact (Run.isPure_mapM fun _ _ => ih entry hentry _ (hentries entry hentry).2).bind
      fun _ => Run.isPure_pure _
  | other value hseq hmapping =>
    cases value with
    | none => exact Run.isPure_pure []
    | seq => exact absurd rfl (hseq _ _)
    | mapping => exact absurd rfl (hmapping _ _)
    | deferred | method => simp [isFunctionFree] at h
    | bool | int | float | text | bytes | set | symbol | stream => exact Run.isPure_ofExcept _

end Value

variable {σ : Type}

/-- Finding the declarations of a tree without computations is pure. -/
theorem isPure_declarations (caller : Caller σ) (o : Options) {rules : Value}
    (h : rules.isFunctionFree = true) : Run.IsPure (declarations caller o rules) := by
  rw [declarations]
  cases maxLevels <;> exact Value.isPure_declarationsWith rules [] h

end Stylesheet
