import Stylesheet.Proofs.Declaration.Clean
import Stylesheet.Proofs.Declaration.FunctionFree
import Stylesheet.Proofs.Declaration.Occurrence

/-!
# The declarations of a tree, one by one

A tree without computations has one declaration for every way to a leaf, in the order of what is
chosen on the way.  What stands under keys without fragments is never reached.

## Main definitions

* `Value.pruned` — a tree without the entries whose keys have no fragments.
* `Value.IsEnumeratedBy` — what it is for declarations to go through the leaves of a tree.

## Main statements

* `Value.yields_occurrences` — the declarations of a tree follow the listed ways.
* `declarations_pruned` — what is hidden does not matter.
* `isEnumeratedBy_declarations` — the declarations of a tree without computations.
-/

namespace Stylesheet

/-- A declaration as a path with a leaf at its end. -/
def Declaration.located (d : Declaration) : List String × Value :=
  (d.selector ++ [d.property], d.value)

namespace Value

open Occurrence

/-! ## The declarations of a tree -/

theorem map_located_leafDeclarations {path : List String} {value : Value} {ds : List Declaration}
    (h : leafDeclarations path value = .ok ds) :
    ds.map Declaration.located = [(path, value)] := by
  obtain ⟨property, hproperty, rfl⟩ := leafDeclarations_eq_ok h
  have hpath : path.dropLast ++ [property] = path := List.dropLast_append_getLast? _ hproperty
  simp [Declaration.located, hpath]

theorem flatten_of_forall₂ {α β γ : Type} {f : β → List γ} {g : α → γ} {bs : List β}
    {lists : List (List α)} (h : List.Forall₂ (fun b list => list.map g = f b) bs lists) :
    lists.flatten.map g = bs.flatMap f := by
  induction h with
  | nil => rfl
  | cons hfirst _ ih => rw [List.flatten_cons, List.map_append, hfirst, ih, List.flatMap_cons]

variable {σ : Type} {called : Value → List String → Run σ (List Declaration)}

theorem yields_leafOccurrences {value : Value} (h : value.kind.isLeaf = true) (path : List String) :
    Run.Yields (fun ds => ds.map Declaration.located = value.leafOccurrences.map (located path))
      (Run.ofExcept (leafDeclarations path value) : Run σ (List Declaration)) := by
  refine Run.yields_ofExcept fun ds hds => ?_
  rw [map_located_leafDeclarations hds, leafOccurrences, if_pos h]
  simp [located]

/-- The declarations of a tree without computations follow the listed ways. -/
theorem yields_occurrences (value : Value) (path : List String)
    (h : value.isFunctionFree = true) :
    Run.Yields (fun ds => ds.map Declaration.located = value.occurrences.map (located path))
      (declarationsWith called value path) := by
  induction value using tree_induction generalizing path with
  | seq kind items ih =>
    have hitems := (isFunctionFree_seq_iff.1 h).2
    rw [declarationsWith]
    split
    · next hempty =>
      have hkind : (seq kind items).kind = .empty := by simp [Value.kind, hempty]
      exact Run.yields_pure (by simp [occurrences, leafOccurrences, hkind, Kind.isLeaf])
    · next hempty =>
      split
      · next hall =>
        have hkind : (seq kind items).kind = .simpleList := by simp [Value.kind, hempty, hall]
        rw [occurrences, if_neg (by simp [hkind])]
        exact yields_leafOccurrences (by rw [hkind]; rfl) path
      · next hall =>
        rw [occurrences, if_pos (by simp [Value.kind, hempty, hall]), occurrencesOfItems_eq,
          map_located_numbered, List.flatMap_map, declarationsOfItems_eq]
        refine (Run.yields_mapM_forall₂ fun item hitem => ih item hitem path
          (hitems item hitem)).bind
          fun lists hlists => Run.yields_pure ?_
        exact flatten_of_forall₂ hlists
  | mapping kind entries ih =>
    have hentries := isFunctionFree_mapping_iff.1 h
    rw [declarationsWith, declarationsOfEntries_eq, occurrences_mapping, map_located_numbered,
      List.flatMap_map]
    refine (Run.yields_mapM_forall₂ fun entry hentry => ?_).bind
      fun lists hlists => Run.yields_pure (flatten_of_forall₂ hlists)
    have hfragments : Run.Yields (· = entry.1.branches)
        (Run.ofExcept entry.1.fragments : Run σ (List String)) :=
      Run.yields_ofExcept fun _ hkey => (branches_of_fragments hkey).symm
    refine hfragments.bind fun fragments hbranches => ?_
    refine (Run.yields_mapM_forall₂ fun fragment _ =>
      ih entry hentry (path ++ [fragment]) (hentries entry hentry).2).bind
        fun lists hlists => ?_
    refine Run.yields_pure ((flatten_of_forall₂ hlists).trans ?_)
    rw [occurrencesUnder, map_located_numbered, List.flatMap_map, hbranches]
    simp [located_under]
  | other value hseq hmapping =>
    rw [occurrences_other hseq hmapping]
    cases value with
    | none => exact Run.yields_pure rfl
    | seq => exact absurd rfl (hseq _ _)
    | mapping => exact absurd rfl (hmapping _ _)
    | deferred | method => simp [isFunctionFree] at h
    | bool | int | float | text => exact yields_leafOccurrences rfl path
    | bytes | set | symbol | stream => exact yields_refuse _

/-! ## Hidden trees -/

mutual

/-- A tree without the entries whose keys have no fragments. -/
def pruned : Value → Value
  | seq kind items => seq kind (prunedItems items)
  | mapping kind entries => mapping kind (prunedEntries entries)
  | value => value

/-- The elements of a list, pruned. -/
def prunedItems : List Value → List Value
  | [] => []
  | item :: rest => pruned item :: prunedItems rest

/-- The entries of a mapping, pruned. -/
def prunedEntries : List (Value × Value) → List (Value × Value)
  | [] => []
  | (key, child) :: rest =>
    match key.fragments with
    | .ok [] => prunedEntries rest
    | _ => (key, pruned child) :: prunedEntries rest

end

theorem pruned_seq (kind : SeqKind) (items : List Value) :
    (seq kind items).pruned = seq kind (items.map pruned) := by
  rw [pruned]
  congr 1
  induction items with
  | nil => rfl
  | cons item rest ih => rw [prunedItems, ih, List.map_cons]

theorem isScalar_pruned (value : Value) : value.pruned.isScalar = value.isScalar := by
  cases value <;> rfl

theorem pruned_of_isScalar {value : Value} (h : value.isScalar = true) : value.pruned = value := by
  cases value with
  | bool | int | float | text => rfl
  | _ => simp [isScalar] at h

theorem declarationsOfItems_pruned {items : List Value}
    (h : ∀ item ∈ items, ∀ path,
      declarationsWith called item.pruned path = declarationsWith called item path)
    (path : List String) :
    declarationsOfItems called (items.map pruned) path = declarationsOfItems called items path := by
  induction items with
  | nil => rfl
  | cons item rest ih =>
    obtain ⟨hitem, hrest⟩ := List.forall_mem_cons.1 h
    rw [List.map_cons, declarationsOfItems, declarationsOfItems, hitem, ih hrest]

/-- Entries whose keys have no fragments have no declarations. -/
theorem declarationsOfEntries_pruned {entries : List (Value × Value)}
    (h : ∀ entry ∈ entries, ∀ path,
      declarationsWith called entry.2.pruned path = declarationsWith called entry.2 path)
    (path : List String) :
    declarationsOfEntries called (prunedEntries entries) path =
      declarationsOfEntries called entries path := by
  induction entries with
  | nil => rfl
  | cons entry rest ih =>
    obtain ⟨hentry, hrest⟩ := List.forall_mem_cons.1 h
    rw [prunedEntries]
    split
    · next hkey =>
      rw [ih hrest, declarationsOfEntries, hkey]
      change _ = (do return [].flatten ++ (← declarationsOfEntries called rest path))
      simp
    · simp only [declarationsOfEntries, hentry, ih hrest]

/-- What stands under keys without fragments does not matter. -/
theorem declarationsWith_pruned (value : Value) (path : List String) :
    declarationsWith called value.pruned path = declarationsWith called value path := by
  induction value using tree_induction generalizing path with
  | seq kind items ih =>
    have hscalar : (items.map pruned).all isScalar = items.all isScalar := by
      simp [List.all_map, Function.comp_def, isScalar_pruned]
    rw [pruned_seq, declarationsWith, declarationsWith, List.isEmpty_map, hscalar]
    split
    · rfl
    · split
      · next hall =>
        rw [List.all_eq_true] at hall
        rw [List.map_congr_left fun item hitem => pruned_of_isScalar (hall item hitem),
          List.map_id']
      · exact declarationsOfItems_pruned ih path
  | mapping kind entries ih => exact declarationsOfEntries_pruned ih path
  | other value hseq hmapping =>
    cases value with
    | seq => exact absurd rfl (hseq _ _)
    | mapping => exact absurd rfl (hmapping _ _)
    | _ => rfl

end Value

/-- What it is for declarations to go through the leaves of a tree. -/
structure Value.IsEnumeratedBy (rules : Value) (ds : List Declaration) : Prop where
  /-- There is one declaration for every way to a leaf, in the order of what is chosen on the way.
  Its selector and its property are the chosen fragments, and its value is the leaf. -/
  occurrences : ∃ occs : List Occurrence,
    (occs.Pairwise fun occ occ' => occ.choices < occ'.choices) ∧
      (∀ occ, occ ∈ occs ↔ rules.Occurs occ) ∧
      (ds.map fun d => (d.selector ++ [d.property], d.value)) =
        occs.map fun occ => (occ.path, occ.leaf)
  /-- Every leaf counts as often as there are ways through the fragments of the keys above it. -/
  length : ds.length =
    (rules.keysAbove.map fun keys => (keys.map fun key => key.branches.length).prod).sum

variable {σ : Type}

/-- What stands under keys without fragments has no declarations. -/
theorem declarations_pruned (caller : Caller σ) (o : Options) (rules : Value) :
    declarations caller o rules.pruned = declarations caller o rules := by
  rw [declarations, declarations]
  cases maxLevels <;> exact Value.declarationsWith_pruned rules []

variable {caller : Caller σ} {o : Options} {rules : Value} {s s' : σ} {ds : List Declaration}

theorem map_located_declarations (hfree : rules.isFunctionFree = true)
    (h : (declarations caller o rules).run.run s = (.ok ds, s')) :
    ds.map Declaration.located = rules.occurrences.map (Occurrence.located []) := by
  have hyields : Run.Yields
      (fun ds => ds.map Declaration.located = rules.occurrences.map (Occurrence.located []))
      (declarations caller o rules) := by
    rw [declarations]
    cases maxLevels <;> exact Value.yields_occurrences rules [] hfree
  exact hyields s ds s' h

/-- The values of the declarations are leaves of the tree. -/
theorem exists_occurs_of_declarations (hfree : rules.isFunctionFree = true)
    (h : (declarations caller o rules).run.run s = (.ok ds, s')) {d : Declaration} (hd : d ∈ ds) :
    ∃ occ, rules.Occurs occ ∧ occ.leaf = d.value := by
  have hmem : d.located ∈ rules.occurrences.map (Occurrence.located []) := by
    rw [← map_located_declarations hfree h]
    exact List.mem_map_of_mem hd
  obtain ⟨occ, hocc, heq⟩ := List.mem_map.1 hmem
  exact ⟨occ, Value.mem_occurrences_iff.1 hocc, congrArg Prod.snd heq⟩

/-- The declarations of a tree without computations go through its leaves.  Of what stands under
keys without fragments, nothing is seen. -/
theorem isEnumeratedBy_declarations (hfree : rules.isFunctionFree = true)
    (h : (declarations caller o rules).run.run s = (.ok ds, s')) :
    rules.IsEnumeratedBy ds ∧
      ∀ rules' : Value, rules'.pruned = rules.pruned →
        declarations caller o rules' = declarations caller o rules := by
  have hlocated := map_located_declarations hfree h
  refine ⟨⟨⟨rules.occurrences, Value.inOrder_occurrences rules,
    fun _ => Value.mem_occurrences_iff, hlocated⟩, ?_⟩, ?_⟩
  · rw [← List.length_map (f := Declaration.located), hlocated, List.length_map]
    exact Value.length_occurrences rules
  · intro rules' hpruned
    rw [← declarations_pruned, hpruned, declarations_pruned]

/-- Rules with a key for two selectors, a list of several values and a hidden tree. -/
def fannedRules (hidden : Value) : Value :=
  .mapping .plain
    [(.text "b, i", .mapping .plain
        [(.text "margin", .seq .list [.seq .tuple [.int 0, .text "auto"], .int 1]),
         (.text " , ", hidden), (.text "top", .none)]),
     (.text "", .mapping .plain [(.text "left,right", .bool true)])]

/-- The declarations of `fannedRules`. -/
def fannedDeclarations : List Declaration :=
  [⟨["b"], "margin", .seq .tuple [.int 0, .text "auto"]⟩, ⟨["b"], "margin", .int 1⟩,
   ⟨["i"], "margin", .seq .tuple [.int 0, .text "auto"]⟩, ⟨["i"], "margin", .int 1⟩,
   ⟨[""], "left", .bool true⟩, ⟨[""], "right", .bool true⟩]

theorem fragments_blank : Selector.fragments " , " = [] := by decide +kernel

theorem declarations_fannedRules (caller : Caller σ) (o : Options) (hidden : Value) :
    declarations caller o (fannedRules hidden) = pure fannedDeclarations := by
  have hpair : Selector.fragments "b, i" = ["b", "i"] := by decide +kernel
  have hsides : Selector.fragments "left,right" = ["left", "right"] := by decide +kernel
  have hfragments : ∀ key ∈ ["", "margin", "top"], Selector.fragments key = [key] := by
    decide +kernel
  simp only [List.forall_mem_cons] at hfragments
  change Value.declarationsWith _ (fannedRules hidden) [] = _
  simp [fannedRules, Value.declarationsWith, Value.declarationsOfEntries,
    Value.declarationsOfItems, Value.isScalar, Value.ofExcept_fragments_text, hfragments, hpair,
    hsides, fragments_blank]
  rfl

theorem isEnumeratedBy_fannedDeclarations :
    (declarations Ledger.call .default (fannedRules (.symbol 0 "red"))).run.run .empty =
        (.ok fannedDeclarations, .empty) ∧
      (fannedRules (.symbol 0 "red")).IsEnumeratedBy fannedDeclarations ∧
      declarations Ledger.call .default (fannedRules (Ledger.entered 0)) =
        declarations Ledger.call .default (fannedRules (.symbol 0 "red")) :=
  have h : (declarations Ledger.call .default (fannedRules (.symbol 0 "red"))).run.run .empty =
      (.ok fannedDeclarations, .empty) := by
    rw [declarations_fannedRules]
    rfl
  have hpruned : (fannedRules (Ledger.entered 0)).pruned =
      (fannedRules (.symbol 0 "red")).pruned := by
    have hkey : (Value.text " , ").fragments = .ok [] := congrArg Except.ok fragments_blank
    simp [fannedRules, Value.pruned, Value.prunedEntries, hkey]
  have hall := isEnumeratedBy_declarations rfl h
  ⟨h, hall.1, hall.2 _ hpruned⟩

end Stylesheet
