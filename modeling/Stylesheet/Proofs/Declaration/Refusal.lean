import Stylesheet.Proofs.Declaration.FunctionFree
import Stylesheet.Proofs.Value.Written

/-!
# Trees that are refused

A tree without computations has no declarations for two reasons only: something that no rule is
known for is reached from its root, wherever it stands, or a leaf is reached that has no key above
it.  Nothing is reached under a key without fragments.

## Main definitions

* `Value.Reaches` — what is reached in a tree, with the keys above it.
* `Value.IsRefused` — trees without declarations.
* `Run.FailsIff` — runs that refuse a tree in some case, and otherwise do not fail.

## Main statements

* `Value.failsIff_declarationsWith` — the induction on trees.
* `failsIff_declarations` — which trees are refused.
-/

namespace Stylesheet

/-- Whether a fault is one of those by which a tree without computations is refused. -/
def Fault.isRefusal : Fault → Bool
  | bareValue _ | unsupportedAt _ _ => true
  | _ => false

/-! ## What is reached -/

namespace Value

/-- What is reached from the root of a tree through the elements of lists and through the entries
whose keys have fragments, and the keys on the way to it. -/
inductive Reaches : Value → List Value → Value → Prop
  | root (value : Value) : Reaches value [] value
  | element {kind : SeqKind} {items keys : List Value} {item value : Value}
      (hkind : (seq kind items).kind = .list) (hitem : item ∈ items)
      (h : Reaches item keys value) : Reaches (seq kind items) keys value
  | entry {kind : MappingKind} {entries : List (Value × Value)} {keys : List Value}
      {key child value : Value} {fragments : List String} (hentry : (key, child) ∈ entries)
      (hkey : key.fragments = .ok fragments) (hne : fragments ≠ [])
      (h : Reaches child keys value) : Reaches (mapping kind entries) (key :: keys) value

/-- Trees without declarations: something of no known kind is reached, or a leaf through lists
only. -/
def IsRefused (rules : Value) : Prop :=
  (∃ keys value, rules.Reaches keys value ∧ value.kind = .symbol) ∨
    ∃ value, rules.Reaches [] value ∧ value.kind.isLeaf = true

/-- Trees without declarations at the end of a path, which is the path of fragments above them. -/
def IsRefusedAt (path : List String) (tree : Value) : Prop :=
  (∃ keys value, tree.Reaches keys value ∧ value.kind = .symbol) ∨
    (path = [] ∧ ∃ value, tree.Reaches [] value ∧ value.kind.isLeaf = true)

theorem isRefusedAt_nil_iff {rules : Value} : rules.IsRefusedAt [] ↔ rules.IsRefused := by
  simp [IsRefusedAt, IsRefused]

variable {path : List String} {value : Value}

/-- Nothing but itself is reached from what is neither a list nor a mapping. -/
theorem Reaches.eq_of_kind {tree : Value} {keys : List Value} (hlist : tree.kind ≠ .list)
    (hmapping : tree.kind ≠ .mapping) (h : tree.Reaches keys value) : value = tree := by
  cases h with
  | root => rfl
  | element hkind _ _ => exact absurd hkind hlist
  | @entry kind entries _ _ _ _ _ hentry _ _ _ =>
    refine absurd ?_ hmapping
    cases entries with
    | nil => cases hentry
    | cons => rfl

theorem isRefusedAt_of_isLeaf (h : value.kind.isLeaf = true) :
    value.IsRefusedAt path ↔ path = [] := by
  have hlist : value.kind ≠ .list := fun hkind => by simp [hkind, Kind.isLeaf] at h
  have hmapping : value.kind ≠ .mapping := fun hkind => by simp [hkind, Kind.isLeaf] at h
  constructor
  · rintro (⟨keys, v, hv, hkind⟩ | ⟨hpath, -⟩)
    · rw [hv.eq_of_kind hlist hmapping] at hkind
      simp [hkind, Kind.isLeaf] at h
    · exact hpath
  · intro hpath
    exact .inr ⟨hpath, value, .root value, h⟩

theorem isRefusedAt_of_symbol (h : value.kind = .symbol) : value.IsRefusedAt path :=
  .inl ⟨[], value, .root value, h⟩

theorem not_isRefusedAt_of_empty (h : value.kind = .empty) : ¬ value.IsRefusedAt path := by
  have heq : ∀ keys v, value.Reaches keys v → v = value :=
    fun keys v hv => hv.eq_of_kind (by simp [h]) (by simp [h])
  rintro (⟨keys, v, hv, hkind⟩ | ⟨-, v, hv, hleaf⟩)
  · rw [heq keys v hv, h] at hkind
    cases hkind
  · rw [heq [] v hv, h] at hleaf
    cases hleaf

/-- A list is refused if one of its elements is. -/
theorem isRefusedAt_seq {kind : SeqKind} {items : List Value}
    (hkind : (seq kind items).kind = .list) :
    (seq kind items).IsRefusedAt path ↔ ∃ item ∈ items, item.IsRefusedAt path := by
  constructor
  · rintro (⟨keys, v, hv, hsymbol⟩ | ⟨hpath, v, hv, hleaf⟩)
    · cases hv with
      | root => simp [hkind] at hsymbol
      | element _ hitem h => exact ⟨_, hitem, .inl ⟨keys, v, h, hsymbol⟩⟩
    · cases hv with
      | root => simp [hkind, Kind.isLeaf] at hleaf
      | element _ hitem h => exact ⟨_, hitem, .inr ⟨hpath, v, h, hleaf⟩⟩
  · rintro ⟨item, hitem, ⟨keys, v, hv, hsymbol⟩ | ⟨hpath, v, hv, hleaf⟩⟩
    · exact .inl ⟨keys, v, .element hkind hitem hv, hsymbol⟩
    · exact .inr ⟨hpath, v, .element hkind hitem hv, hleaf⟩

/-- A mapping is refused if what is under one of its keys is refused under a fragment of the key,
where it is not at the end of the empty path. -/
theorem isRefusedAt_mapping {kind : MappingKind} {entries : List (Value × Value)} :
    (mapping kind entries).IsRefusedAt path ↔
      ∃ entry ∈ entries, ∃ fragments, entry.1.fragments = .ok fragments ∧
        ∃ fragment ∈ fragments, entry.2.IsRefusedAt (path ++ [fragment]) := by
  have hkind : (mapping kind entries).kind = .empty ∨ (mapping kind entries).kind = .mapping := by
    cases entries with
    | nil => exact .inl rfl
    | cons => exact .inr rfl
  constructor
  · rintro (⟨keys, v, hv, hsymbol⟩ | ⟨-, v, hv, hleaf⟩)
    · cases hv with
      | root => simp [hsymbol] at hkind
      | @entry _ _ keys key child _ fragments hentry hkey hne h =>
        obtain ⟨fragment, hfragment⟩ := List.exists_mem_of_ne_nil _ hne
        exact ⟨(key, child), hentry, fragments, hkey, fragment, hfragment,
          .inl ⟨keys, v, h, hsymbol⟩⟩
    · cases hv
      rcases hkind with hkind | hkind <;> simp [hkind, Kind.isLeaf] at hleaf
  · rintro ⟨⟨key, child⟩, hentry, fragments, hkey, fragment, hfragment, hrefused⟩
    obtain ⟨keys, v, hv, hsymbol⟩ | ⟨hpath, -⟩ := hrefused
    · exact .inl ⟨key :: keys, v, .entry hentry hkey (List.ne_nil_of_mem hfragment) hv, hsymbol⟩
    · simp at hpath

end Value

/-! ## Runs that refuse -/

namespace Run

variable {σ α β : Type} {P Q : Prop}

/-- A run that leaves its state alone and fails exactly in some case, by a fault that refuses a
tree. -/
def FailsIff (P : Prop) (run : Run σ α) : Prop :=
  ∃ result, run = Run.ofExcept result ∧ ((∃ fault, result = .error fault) ↔ P) ∧
    ∀ fault, result = .error fault → fault.isRefusal = true

theorem FailsIff.congr {run : Run σ α} (h : FailsIff P run) (hiff : P ↔ Q) : FailsIff Q run := by
  obtain ⟨result, hrun, hfails, hfault⟩ := h
  exact ⟨result, hrun, hfails.trans hiff, hfault⟩

theorem failsIff_pure (a : α) (h : ¬ P) : FailsIff P (pure a : Run σ α) := by
  refine ⟨.ok a, rfl, ?_, nofun⟩
  simp [h]

theorem failsIff_error {fault : Fault} (h : P) (hfault : fault.isRefusal = true) :
    FailsIff P (Run.ofExcept (.error fault) : Run σ α) := by
  refine ⟨.error fault, rfl, ?_, ?_⟩
  · simp [h]
  · intro fault' hfault'
    rwa [← Except.error.inj hfault']

theorem FailsIff.bind {first : Run σ α} {next : α → Run σ β} (h : FailsIff P first)
    (hnext : ∀ a, FailsIff Q (next a)) : FailsIff (P ∨ Q) (first >>= next) := by
  obtain ⟨result, rfl, hfails, hfault⟩ := h
  cases result with
  | error fault =>
    have hp : P := hfails.1 ⟨fault, rfl⟩
    exact failsIff_error (.inl hp) (hfault fault rfl)
  | ok a =>
    have hp : ¬ P := fun hp => nomatch hfails.2 hp
    exact (hnext a).congr (by simp [hp])

theorem FailsIff.map {first : Run σ α} (h : FailsIff P first) (g : α → β) :
    FailsIff P (first >>= fun a => pure (g a)) :=
  (h.bind fun a => failsIff_pure (P := False) (g a) not_false).congr (by simp)

/-- Runs for the elements of a list fail if one of them does. -/
theorem failsIff_mapM {P : β → Prop} {f : β → Run σ α} {bs : List β}
    (h : ∀ b ∈ bs, FailsIff (P b) (f b)) : FailsIff (∃ b ∈ bs, P b) (bs.mapM f) := by
  induction bs with
  | nil => exact failsIff_pure [] (by simp)
  | cons b bs ih =>
    obtain ⟨hb, hbs⟩ := List.forall_mem_cons.1 h
    rw [List.mapM_cons]
    exact (hb.bind fun a => (ih hbs).map fun as => a :: as).congr (by simp)

end Run

/-! ## Declarations -/

namespace Value

variable {σ : Type} {called : Value → List String → Run σ (List Declaration)}

theorem failsIff_leaf {value : Value} {path : List String} (hleaf : value.kind.isLeaf = true)
    (hfree : value.isFunctionFree = true) (hshort : value.hasShortIntegers = true) :
    Run.FailsIff (value.IsRefusedAt path)
      (Run.ofExcept (leafDeclarations path value) : Run σ (List Declaration)) := by
  refine Run.FailsIff.congr ?_ (isRefusedAt_of_isLeaf hleaf).symm
  obtain ⟨s, hs⟩ := exists_shown value (isShowable_of_isFunctionFree hfree) hshort
  unfold leafDeclarations
  split
  · next property hproperty =>
    refine Run.failsIff_pure _ ?_
    rintro rfl
    cases hproperty
  · next hnone =>
    rw [hs]
    exact Run.failsIff_error (List.getLast?_eq_none_iff.1 hnone) rfl

theorem failsIff_refuse {value : Value} {path : List String} (hkind : value.kind = .symbol)
    (hfree : value.isFunctionFree = true) (hshort : value.hasShortIntegers = true) :
    Run.FailsIff (value.IsRefusedAt path)
      (Run.ofExcept (refuse path value) : Run σ (List Declaration)) := by
  obtain ⟨s, hs⟩ := exists_shown value (isShowable_of_isFunctionFree hfree) hshort
  rw [refuse, hs]
  exact Run.failsIff_error (isRefusedAt_of_symbol hkind) rfl

/-- A tree without computations and long integers has declarations unless it is refused. -/
theorem failsIff_declarationsWith (value : Value) (path : List String)
    (hfree : value.isFunctionFree = true) (hshort : value.hasShortIntegers = true) :
    Run.FailsIff (value.IsRefusedAt path) (declarationsWith called value path) := by
  induction value using tree_induction generalizing path with
  | seq kind items ih =>
    have hfrees := (isFunctionFree_seq_iff.1 hfree).2
    have hitems : ∀ item ∈ items, item.hasShortIntegers = true := by
      rwa [hasShortIntegers_seq, List.all_eq_true] at hshort
    rw [declarationsWith]
    split
    · next hempty =>
      exact Run.failsIff_pure [] (not_isRefusedAt_of_empty (by simp [Value.kind, hempty]))
    · next hempty =>
      split
      · next hall =>
        exact failsIff_leaf (by simp [Value.kind, hempty, hall, Kind.isLeaf]) hfree hshort
      · next hall =>
        have hkind : (seq kind items).kind = .list := by simp [Value.kind, hempty, hall]
        rw [declarationsOfItems_eq]
        refine Run.FailsIff.congr ?_ (isRefusedAt_seq hkind).symm
        apply Run.FailsIff.map
        apply Run.failsIff_mapM
        intro item hitem
        exact ih item hitem path (hfrees item hitem) (hitems item hitem)
  | mapping kind entries ih =>
    have hfrees := isFunctionFree_mapping_iff.1 hfree
    rw [hasShortIntegers_mapping, List.all_eq_true] at hshort
    rw [declarationsWith, declarationsOfEntries_eq]
    refine Run.FailsIff.congr ?_ isRefusedAt_mapping.symm
    apply Run.FailsIff.map
    apply Run.failsIff_mapM
    intro entry hentry
    obtain ⟨hkey, hchild⟩ := (Bool.and_eq_true _ _).mp (hshort entry hentry)
    obtain ⟨hshowKey, hfreeChild⟩ := hfrees entry hentry
    obtain ⟨fragments, hfragments⟩ := exists_fragments hshowKey hkey
    rw [declarationsOfEntry, hfragments]
    refine Run.FailsIff.congr
      (P := ∃ fragment ∈ fragments, entry.2.IsRefusedAt (path ++ [fragment])) ?_ (by simp)
    apply Run.FailsIff.map
    apply Run.failsIff_mapM
    intro fragment _
    exact ih entry hentry (path ++ [fragment]) hfreeChild hchild
  | other value hseq hmapping =>
    cases value with
    | none => exact Run.failsIff_pure [] (not_isRefusedAt_of_empty rfl)
    | seq => exact absurd rfl (hseq _ _)
    | mapping => exact absurd rfl (hmapping _ _)
    | deferred | method => simp [isFunctionFree] at hfree
    | bool | int | float | text => exact failsIff_leaf rfl hfree hshort
    | bytes | set | symbol | stream => exact failsIff_refuse rfl hfree hshort

end Value

variable {σ : Type}

/-- A tree without computations and long integers has declarations unless it is refused. -/
theorem failsIff_declarations (caller : Caller σ) (o : Options) {rules : Value}
    (hfree : rules.isFunctionFree = true) (hshort : rules.hasShortIntegers = true) :
    Run.FailsIff rules.IsRefused (declarations caller o rules) := by
  refine Run.FailsIff.congr ?_ Value.isRefusedAt_nil_iff
  rw [declarations]
  cases maxLevels <;> exact Value.failsIff_declarationsWith rules [] hfree hshort

end Stylesheet
