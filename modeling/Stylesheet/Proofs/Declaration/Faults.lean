import Stylesheet.Proofs.Declaration.Refusal

/-!
# Faults of trees

A tree without computations is refused by a message that shows what is wrong in it.  If that holds
an integer of too many digits then the message cannot be written, and this is the fault instead.

## Main definitions

* `Run.FaultsAre` — runs whose faults have a property.

## Main statements

* `Value.eq_tooManyDigits_of_shown` — why a value cannot be shown.
* `isRefusal_of_declarations` — the faults of trees without computations.
-/

namespace Stylesheet

/-! ## Faults of showing -/

namespace Value

variable {fault : Fault}

theorem showInt_eq_error {i : Int} (h : showInt i = .error fault) : fault = .tooManyDigits := by
  unfold showInt at h
  split at h
  · cases h
  · exact (Except.error.inj h).symm

/-- A fault is met in the first part or in the second. -/
theorem bind_eq_error {α β : Type} {first : Except Fault α} {next : α → Except Fault β}
    (h : first >>= next = .error fault) :
    first = .error fault ∨ ∃ a, next a = .error fault := by
  cases first with
  | error fault' => exact .inl (congrArg Except.error (Except.error.inj h))
  | ok a => exact .inr ⟨a, h⟩

/-- Putting a shown text into another one is never a fault. -/
theorem map_eq_error {α β : Type} {result : Except Fault α} {g : α → β}
    (h : (do return g (← result)) = .error fault) : result = .error fault := by
  rcases bind_eq_error h with h | ⟨a, h⟩
  · exact h
  · cases h

mutual

/-- A value cannot be shown for the digits of an integer only. -/
theorem eq_tooManyDigits_of_shown : ∀ value : Value, value.isShowable = true →
    shown value = .error fault → fault = .tooManyDigits
  | none, _ | bool _, _ | float _, _ | text _, _ | bytes _, _ | symbol _ _, _
  | stream _ _ _ _, _ => nofun
  | int _, _ => showInt_eq_error
  | seq _ items, hshow => fun h =>
    eq_tooManyDigits_of_shownItems items (areShowable_iff.1 hshow) (map_eq_error h)
  | mapping _ entries, hshow => fun h =>
    eq_tooManyDigits_of_shownEntries entries (entriesShowable_iff.1 hshow) (map_eq_error h)
  | set _ items, hshow => fun h =>
    eq_tooManyDigits_of_shownItems items (areShowable_iff.1 hshow) (map_eq_error h)
  | deferred _ (.ok _), _ => nofun
  | deferred _ (.error _), hshow => nomatch hshow
  | method m owner, hshow => fun h => by
    rw [shown, Method.describe] at h
    cases hform : m.form with
    | own | synonym =>
      rw [hform] at h
      exact eq_tooManyDigits_of_shown owner hshow (map_eq_error h)
    | shared | maker | general =>
      rw [hform] at h
      cases h

theorem eq_tooManyDigits_of_shownItems : ∀ items : List Value,
    (∀ item ∈ items, item.isShowable = true) → shownItems items = .error fault →
      fault = .tooManyDigits
  | [], _ => nofun
  | item :: rest, hshow => fun h => by
    obtain ⟨hitem, hrest⟩ := List.forall_mem_cons.1 hshow
    rcases bind_eq_error h with h | ⟨s, h⟩
    · exact eq_tooManyDigits_of_shown item hitem h
    · exact eq_tooManyDigits_of_shownItems rest hrest (map_eq_error h)

theorem eq_tooManyDigits_of_shownEntries : ∀ entries : List (Value × Value),
    (∀ entry ∈ entries, entry.1.isShowable = true ∧ entry.2.isShowable = true) →
      shownEntries entries = .error fault → fault = .tooManyDigits
  | [], _ => nofun
  | (key, value) :: rest, hshow => fun h => by
    obtain ⟨⟨hkey, hvalue⟩, hrest⟩ := List.forall_mem_cons.1 hshow
    rcases bind_eq_error h with h | ⟨k, h⟩
    · exact eq_tooManyDigits_of_shown key hkey h
    · rcases bind_eq_error h with h | ⟨v, h⟩
      · exact eq_tooManyDigits_of_shown value hvalue h
      · exact eq_tooManyDigits_of_shownEntries rest hrest (map_eq_error h)

end

theorem eq_tooManyDigits_of_asText {value : Value} (hshow : value.isShowable = true)
    (h : asText value = .error fault) : fault = .tooManyDigits := by
  unfold asText at h
  split at h
  · cases h
  · next entries => exact eq_tooManyDigits_of_shown (mapping .plain entries) hshow h
  · exact eq_tooManyDigits_of_shown value hshow h

end Value

/-! ## Faults of runs -/

namespace Run

variable {σ α β : Type} {P : Fault → Prop}

/-- A run whose fault has a property, if it fails. -/
def FaultsAre (P : Fault → Prop) (run : Run σ α) : Prop :=
  ∀ s fault s', run.run.run s = (.error fault, s') → P fault

theorem faultsAre_ofExcept {result : Except Fault α}
    (h : ∀ fault, result = .error fault → P fault) :
    FaultsAre P (Run.ofExcept result : Run σ α) := by
  intro s fault s' hrun
  rw [run_ofExcept, Prod.mk.injEq] at hrun
  exact h fault hrun.1

theorem faultsAre_pure (a : α) : FaultsAre P (pure a : Run σ α) := by
  change FaultsAre P (Run.ofExcept (.ok a))
  exact faultsAre_ofExcept nofun

theorem FaultsAre.bind {first : Run σ α} {next : α → Run σ β} (h : FaultsAre P first)
    (hnext : ∀ a, FaultsAre P (next a)) : FaultsAre P (first >>= next) := by
  intro s fault s' hrun
  rw [run_bind] at hrun
  rcases hfirst : first.run.run s with ⟨fault' | a, s₁⟩
  · rw [hfirst] at hrun
    cases hrun
    exact h s _ _ hfirst
  · rw [hfirst] at hrun
    exact hnext a s₁ fault s' hrun

theorem faultsAre_mapM {f : β → Run σ α} {bs : List β} (h : ∀ b ∈ bs, FaultsAre P (f b)) :
    FaultsAre P (bs.mapM f) := by
  induction bs with
  | nil => exact faultsAre_pure []
  | cons b bs ih =>
    obtain ⟨hb, hbs⟩ := List.forall_mem_cons.1 h
    rw [List.mapM_cons]
    exact hb.bind fun a => (ih hbs).bind fun as => faultsAre_pure (a :: as)

end Run

/-! ## Faults of trees -/

/-- Whether a fault refuses a tree, or is met on writing the message that would. -/
def Fault.isRefusalOrUnwritten (fault : Fault) : Prop :=
  fault.isRefusal = true ∨ fault = .tooManyDigits

namespace Value

variable {σ : Type} {called : Value → List String → Run σ (List Declaration)} {fault : Fault}

/-- A message is not written for the digits of an integer only. -/
theorem isRefusalOrUnwritten_of_shown {α : Type} {value : Value} {refusal : String → Fault}
    (hshow : value.isShowable = true) (hrefusal : ∀ s, (refusal s).isRefusal = true)
    (h : (do throw (refusal (← shown value)) : Except Fault α) = .error fault) :
    fault.isRefusalOrUnwritten := by
  rcases bind_eq_error h with hshown | ⟨s, h⟩
  · exact .inr (eq_tooManyDigits_of_shown value hshow hshown)
  · exact .inl (Except.error.inj h ▸ hrefusal s)

theorem faultsAre_leaf (path : List String) {value : Value}
    (hshow : value.isShowable = true) :
    Run.FaultsAre Fault.isRefusalOrUnwritten
      (Run.ofExcept (leafDeclarations path value) : Run σ (List Declaration)) := by
  refine Run.faultsAre_ofExcept fun fault h => ?_
  unfold leafDeclarations at h
  split at h
  · cases h
  · exact isRefusalOrUnwritten_of_shown hshow (fun _ => rfl) h

theorem faultsAre_refuse (path : List String) {value : Value}
    (hshow : value.isShowable = true) :
    Run.FaultsAre Fault.isRefusalOrUnwritten
      (Run.ofExcept (refuse path value) : Run σ (List Declaration)) :=
  Run.faultsAre_ofExcept fun _ h => isRefusalOrUnwritten_of_shown hshow (fun _ => rfl) h

theorem faultsAre_fragments {key : Value} (hshow : key.isShowable = true) :
    Run.FaultsAre Fault.isRefusalOrUnwritten
      (Run.ofExcept key.fragments : Run σ (List String)) := by
  refine Run.faultsAre_ofExcept fun fault h => ?_
  have htext : asText key = .error fault := map_eq_error h
  exact .inr (eq_tooManyDigits_of_asText hshow htext)

/-- The faults of a tree without computations. -/
theorem faultsAre_declarationsWith (value : Value) (path : List String)
    (hfree : value.isFunctionFree = true) :
    Run.FaultsAre Fault.isRefusalOrUnwritten (declarationsWith called value path) := by
  induction value using tree_induction generalizing path with
  | seq kind items ih =>
    have hitems := (isFunctionFree_seq_iff.1 hfree).2
    rw [declarationsWith]
    split
    · exact Run.faultsAre_pure []
    · split
      · exact faultsAre_leaf path (isShowable_of_isFunctionFree hfree)
      · rw [declarationsOfItems_eq]
        exact (Run.faultsAre_mapM fun item hitem => ih item hitem path (hitems item hitem)).bind
          fun _ => Run.faultsAre_pure _
  | mapping kind entries ih =>
    have hentries := isFunctionFree_mapping_iff.1 hfree
    rw [declarationsWith, declarationsOfEntries_eq]
    refine (Run.faultsAre_mapM fun entry hentry => ?_).bind fun _ => Run.faultsAre_pure _
    obtain ⟨hkey, hchild⟩ := hentries entry hentry
    refine (faultsAre_fragments hkey).bind fun fragments => ?_
    exact (Run.faultsAre_mapM fun _ _ => ih entry hentry _ hchild).bind
      fun _ => Run.faultsAre_pure _
  | other value hseq hmapping =>
    cases value with
    | none => exact Run.faultsAre_pure []
    | seq => exact absurd rfl (hseq _ _)
    | mapping => exact absurd rfl (hmapping _ _)
    | deferred | method => simp [isFunctionFree] at hfree
    | bool | int | float | text => exact faultsAre_leaf path rfl
    | bytes | set | symbol | stream =>
      exact faultsAre_refuse path (isShowable_of_isFunctionFree hfree)

end Value

/-- A tree without computations is refused if it has no declarations.  Only a long integer in it can
keep the message from being written. -/
theorem isRefusal_of_declarations {σ : Type} {caller : Caller σ} {o : Options} {rules : Value}
    {s s' : σ} {fault : Fault} (hfree : rules.isFunctionFree = true)
    (h : (declarations caller o rules).run.run s = (.error fault, s')) :
    fault.isRefusal = true ∨ (fault = .tooManyDigits ∧ rules.hasShortIntegers = false) := by
  have hfaults : Run.FaultsAre Fault.isRefusalOrUnwritten (declarations caller o rules) := by
    rw [declarations]
    cases maxLevels <;> exact Value.faultsAre_declarationsWith rules [] hfree
  refine (hfaults s fault s' h).imp id fun hdigits => ⟨hdigits, ?_⟩
  refine Bool.eq_false_iff.2 fun hshort => ?_
  obtain ⟨result, hrun, -, hrefusal⟩ := failsIff_declarations caller o hfree hshort
  rw [hrun, Run.run_ofExcept, Prod.mk.injEq] at h
  have hfault := hrefusal fault h.1
  rw [hdigits] at hfault
  cases hfault

end Stylesheet
