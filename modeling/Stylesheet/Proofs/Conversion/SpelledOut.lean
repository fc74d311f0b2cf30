import Stylesheet.Proofs.Conversion.Outcome
import Stylesheet.Proofs.Declaration.Faults
import Stylesheet.Proofs.Declaration.Replacement

/-!
# Keys with commas

A mapping is a shorthand for a list of mappings of one key each, one for every fragment of its keys.
Whether a rule tree is given in short or spelled out, in whole or in part, makes no difference to
what is declared in it, and so to nothing that is made of it.

## Main definitions

* `Value.singles` — the mappings of one key each that a mapping stands for.
* `Value.SpellsOut` — trees in which some mappings are spelled out.
* `Conversion.IsIndistinct` — trees that conversion does not tell apart.

## Main statements

* `Value.declarationsWith_singles` — one mapping that is spelled out.
* `declarations_of_spellsOut` — the induction on the mappings that are.
* `Conversion.isIndistinct_of_spellsOut` — what comes of a tree that is spelled out.
-/

namespace Stylesheet

namespace Value

/-- A mapping of one fragment. -/
def single (fragment : String) (child : Value) : Value :=
  mapping .plain [(text fragment, child)]

/-- The mappings of one fragment each that the entries of a mapping stand for. -/
def singles (entries : List (Value × Value)) : List Value :=
  entries.flatMap fun entry => entry.1.branches.map fun fragment => single fragment entry.2

/-- A mapping whose keys have texts, and the list that it stands for. -/
inductive IsShorthandFor : Value → Value → Prop
  | intro (kind : MappingKind) (entries : List (Value × Value))
    (hkeys : ∀ entry ∈ entries, ∃ fragments, entry.1.fragments = .ok fragments) :
    IsShorthandFor (mapping kind entries) (seq .list (singles entries))

/-- A value is left as it is, or is a mapping and spelled out. -/
def IsSpelledAs (value value' : Value) : Prop :=
  value = value' ∨ IsShorthandFor value value'

/-- Trees of which the second is the first with some mappings spelled out, wherever they stand.
Mappings inside of others are spelled out before those are. -/
abbrev SpellsOut : Value → Value → Prop :=
  Relation.ReflTransGen (Replaces IsSpelledAs)

/-- Spelling out neither makes scalars nor changes them. -/
theorem Replaces.eq_or_not_isScalar {value value' : Value} (h : Replaces IsSpelledAs value value') :
    value = value' ∨ (value.isScalar = false ∧ value'.isScalar = false) := by
  rcases h with (h | ⟨⟨⟩⟩) | hplain | ⟨hitems, hitems'⟩ | hmapping
  · exact .inl h
  · exact .inr ⟨rfl, rfl⟩
  · exact .inl rfl
  · exact .inr ⟨rfl, rfl⟩
  · exact .inr ⟨rfl, rfl⟩

/-- A list is spelled out by spelling out its elements, whatever they are. -/
theorem replaces_seq {kind : SeqKind} {items items' : List Value}
    (h : List.Forall₂ (Replaces IsSpelledAs) items items') :
    Replaces IsSpelledAs (seq kind items) (seq kind items') := by
  have hsame : items = items' ∨ (items.all isScalar = false ∧ items'.all isScalar = false) := by
    induction h with
    | nil => exact .inl rfl
    | cons hitem _ ih =>
      rcases hitem.eq_or_not_isScalar with rfl | ⟨hitem, hitem'⟩
      · exact ih.imp (congrArg _) fun ⟨hrest, hrest'⟩ => by simp [hrest, hrest']
      · exact .inr (by simp [hitem, hitem'])
  rcases hsame with rfl | ⟨hitems, hitems'⟩
  · exact .root (.inl rfl)
  · exact .list hitems hitems' h

/-- A mapping with texts for keys is always a shorthand. -/
theorem isShorthandFor_texts (kind : MappingKind) (entries : List (String × Value)) :
    IsShorthandFor (mapping kind (entries.map fun entry => (text entry.1, entry.2)))
      (seq .list (entries.flatMap fun entry =>
        (Selector.fragments entry.1).map fun fragment => single fragment entry.2)) := by
  have hsingles : singles (entries.map fun entry => (text entry.1, entry.2)) =
      entries.flatMap fun entry =>
        (Selector.fragments entry.1).map fun fragment => single fragment entry.2 := by
    rw [singles, List.flatMap_map]
    rfl
  rw [← hsingles]
  refine .intro kind _ (List.forall_mem_map.2 fun entry _ => ?_)
  exact ⟨Selector.fragments entry.1, rfl⟩

/-! ## One mapping -/

section

open Selector (IsClean)

variable {σ : Type} {called : Value → List String → Run σ (List Declaration)}

/-- A mapping of one clean fragment has the declarations of what is under it. -/
theorem declarationsWith_single {fragment : String} (h : IsClean fragment) (child : Value)
    (path : List String) :
    declarationsWith called (single fragment child) path =
      declarationsWith called child (path ++ [fragment]) := by
  simp [single, declarationsWith, declarationsOfEntries, ofExcept_fragments_text,
    Selector.fragments_of_isClean h]

theorem declarationsOfItems_singles {fragments : List String}
    (h : ∀ fragment ∈ fragments, IsClean fragment) (child : Value) (others : List Value)
    (path : List String) :
    declarationsOfItems called ((fragments.map fun fragment => single fragment child) ++ others)
      path = do
        let first ← fragments.mapM fun fragment =>
          declarationsWith called child (path ++ [fragment])
        return first.flatten ++ (← declarationsOfItems called others path) := by
  induction fragments with
  | nil => simp
  | cons fragment rest ih =>
    obtain ⟨hfragment, hrest⟩ := List.forall_mem_cons.1 h
    simp only [List.map_cons, List.cons_append, declarationsOfItems,
      declarationsWith_single hfragment, ih hrest, List.mapM_cons, List.flatten_cons,
      List.append_assoc, bind_assoc, pure_bind]

theorem declarationsOfItems_of_shorthand {entries : List (Value × Value)}
    (hkeys : ∀ entry ∈ entries, ∃ fragments, entry.1.fragments = .ok fragments)
    (path : List String) :
    declarationsOfItems called (singles entries) path =
      declarationsOfEntries called entries path := by
  induction entries with
  | nil => rfl
  | cons entry rest ih =>
    obtain ⟨⟨fragments, hfragments⟩, hrest⟩ := List.forall_mem_cons.1 hkeys
    have hclean : ∀ fragment ∈ fragments, IsClean fragment :=
      yields_fragments (σ := Unit) entry.1 () fragments () (by rw [hfragments]; rfl)
    rw [singles, List.flatMap_cons, branches_of_fragments hfragments, ← singles,
      declarationsOfItems_singles hclean, ih hrest, declarationsOfEntries, hfragments]
    rfl

/-- A mapping that is spelled out has the same declarations. -/
theorem declarationsWith_singles (kind : MappingKind) {entries : List (Value × Value)}
    (hkeys : ∀ entry ∈ entries, ∃ fragments, entry.1.fragments = .ok fragments)
    (path : List String) :
    declarationsWith called (seq .list (singles entries)) path =
      declarationsWith called (mapping kind entries) path := by
  have hitems : declarationsWith called (seq .list (singles entries)) path =
      declarationsOfItems called (singles entries) path := by
    cases hsingles : singles entries with
    | nil => rfl
    | cons item rest =>
      have hitem : item ∈ singles entries := hsingles ▸ List.mem_cons_self
      obtain ⟨_, -, hitem⟩ := List.mem_flatMap.1 hitem
      obtain ⟨_, -, rfl⟩ := List.mem_map.1 hitem
      rfl
  rw [hitems, declarationsOfItems_of_shorthand hkeys]
  rfl

end

end Value

/-! ## Any number of mappings -/

variable {σ : Type}

/-- Rules that are spelled out have the same declarations, and the same faults. -/
theorem declarations_of_spellsOut (caller : Caller σ) (o : Options) {rules rules' : Value}
    (h : rules.SpellsOut rules') :
    declarations caller o rules = declarations caller o rules' := by
  have hstep : ∀ called : Value → List String → Run σ (List Declaration),
      ∀ tree tree', Value.Replaces Value.IsSpelledAs tree tree' →
        Value.declarationsWith called tree [] = Value.declarationsWith called tree' [] := by
    intro called tree tree' hreplaces
    refine Run.IsCongruence.eq.declarationsWith_of_replaces ?_ hreplaces []
    rintro value _ (rfl | ⟨kind, entries, hkeys⟩) path
    · rfl
    · exact (Value.declarationsWith_singles kind hkeys path).symm
  induction h with
  | refl => rfl
  | tail _ hreplaces ih =>
    rw [ih, declarations, declarations]
    cases maxLevels <;> exact hstep _ _ _ hreplaces

namespace Conversion

/-- Trees that conversion does not tell apart. -/
structure IsIndistinct (caller : Caller σ) (rules rules' : Value) : Prop where
  /-- They have the same declarations, in the same order, or the same fault. -/
  declarations : ∀ o, declarations caller o rules' = declarations caller o rules
  /-- They are converted to the same sheet, with the same log, or not for the same fault. -/
  sheet : ∀ given keywords, Conversion.sheet caller rules' given keywords =
    Conversion.sheet caller rules given keywords

/-- Rules that are spelled out are converted like those that they are made from.  If there are no
computations in them, then a fault blames the caller, unless a long integer keeps its message from
being written. -/
theorem isIndistinct_of_spellsOut (caller : Caller σ) {rules rules' : Value}
    (h : rules.SpellsOut rules') :
    IsIndistinct caller rules rules' ∧
      (rules.isFunctionFree = true → ∀ o s fault s',
        (declarations caller o rules).run.run s = (.error fault, s') →
          fault.blamesCaller = true ∨
            (fault = .tooManyDigits ∧ rules.hasShortIntegers = false)) := by
  have hdeclarations : ∀ o,
      declarations caller o rules' = declarations caller o rules :=
    fun o => (declarations_of_spellsOut caller o h).symm
  refine ⟨⟨hdeclarations, fun given keywords => ?_⟩, fun hfree o s fault s' hfault => ?_⟩
  · simp only [Conversion.sheet, sheetWith, hdeclarations]
  · exact (isRefusal_of_declarations hfree hfault).imp_left Fault.blamesCaller_of_isRefusal

/-- Rules with keys for two selectors, for two properties and for nothing at all. -/
def shortRules (hidden : Value) : Value :=
  .mapping .plain
    [(.text "b, i", .mapping .plain [(.text "top,left", .int 1), (.text " , ", hidden)]),
     (.text "u", .seq .tuple [.none, .mapping .view [(.text "color", .text "red")]])]

/-- The rules of `shortRules`, with all mappings but those of one fragment spelled out. -/
def longRules : Value :=
  let sides : Value := .seq .list [.single "top" (.int 1), .single "left" (.int 1)]
  .seq .list
    [.single "b" sides, .single "i" sides,
     .single "u" (.seq .tuple [.none, .seq .list [.single "color" (.text "red")]])]

theorem spellsOut_longRules (hidden : Value) : (shortRules hidden).SpellsOut longRules := by
  have hfragments : ∀ entry ∈ [("b, i", ["b", "i"]), ("top,left", ["top", "left"]), (" , ", []),
      ("u", ["u"]), ("color", ["color"])], Selector.fragments entry.1 = entry.2 := by
    decide +kernel
  simp only [List.forall_mem_cons] at hfragments
  obtain ⟨hpair, hsides, hblank, hu, hcolor, -⟩ := hfragments
  have hinner := Value.isShorthandFor_texts .plain [("top,left", .int 1), (" , ", hidden)]
  have helement := Value.isShorthandFor_texts .view [("color", .text "red")]
  have houter := fun child child' : Value =>
    Value.isShorthandFor_texts .plain [("b, i", child), ("u", child')]
  simp only [List.map_cons, List.map_nil, List.flatMap_cons, List.flatMap_nil, hsides, hblank,
    hcolor, hpair, hu, List.cons_append, List.nil_append] at hinner helement houter
  refine .head (.mapping (.cons (.intro (.root (.inr hinner))) (.cons (.intro ?_) .nil)))
    (.single (.root (.inr (houter _ _))))
  exact Value.replaces_seq (.cons (.plain rfl) (.cons (.root (.inr helement)) .nil))

/-- A mapping without entries stands for no mappings, and so a value beside it stays bare. -/
theorem spellsOut_nothing (value : Value) :
    (Value.seq .list [.mapping .plain [], value]).SpellsOut (.seq .list [.seq .list [], value]) :=
  .single (Value.replaces_seq (.cons (.root (.inr (Value.isShorthandFor_texts .plain [])))
    (.cons (.root (.inl rfl)) .nil)))

/-- The sheet of `shortRules`. -/
def shortSheet : Sheet :=
  let sides : Sheet := .declare "top" "1px" (.declare "left" "1px" .empty)
  .nest "b" sides (.nest "i" sides (.nest "u" (.declare "color" "red" .empty) .empty))

theorem isIndistinct_longRules :
    ((sheet Ledger.call longRules none []).run .empty).1.result = .ok shortSheet ∧
      ∃ fault s', (declarations Ledger.call .default (.seq .list [.seq .list [], .int 7])).run.run
        .empty = (.error fault, s') ∧ fault.blamesCaller = true := by
  have hshort : ((sheet Ledger.call (shortRules (.symbol 0 "red")) none []).run .empty).1.result =
      .ok shortSheet := by
    decide +kernel
  have hlong := isIndistinct_of_spellsOut Ledger.call (spellsOut_longRules (.symbol 0 "red"))
  refine ⟨by rw [hlong.1.sheet, hshort], ?_⟩
  have hbare := isIndistinct_of_spellsOut Ledger.call (spellsOut_nothing (.int 7))
  have hfault : ((declarations Ledger.call .default
      (.seq .list [.mapping .plain [], .int 7])).run.run .empty).1.map List.length =
        .error (.bareValue "7") := by
    decide +kernel
  rw [hbare.1.declarations]
  rcases hrun : (declarations Ledger.call .default
    (.seq .list [.mapping .plain [], .int 7])).run.run .empty with ⟨fault | ds, s'⟩
  · rw [hrun] at hfault
    obtain rfl := Except.error.inj hfault
    exact ⟨_, s', rfl, (hbare.2 rfl _ _ _ _ hrun).resolve_right (by simp)⟩
  · rw [hrun] at hfault
    cases hfault

/-- A bare integer that is too long for the message that would blame the caller. -/
def longInteger : Value := .int (Nat.pow 10 IntegerText.maxDigits)

/-- There is no computation and no key in the rules, and yet their fault does not blame the caller,
whether the mapping in them is spelled out or not. -/
theorem not_blamesCaller_longInteger :
    (Value.seq .list [.mapping .plain [], longInteger]).SpellsOut
        (.seq .list [.seq .list [], longInteger]) ∧
      (Value.seq .list [.mapping .plain [], longInteger]).isFunctionFree = true ∧
      (∀ rules ∈ [.seq .list [.mapping .plain [], longInteger],
          .seq .list [.seq .list [], longInteger]],
        ((declarations Ledger.call .default rules).run.run .empty).1.map List.length =
          .error .tooManyDigits) ∧
      Fault.blamesCaller .tooManyDigits = false :=
  ⟨spellsOut_nothing longInteger, rfl, by decide +kernel, rfl⟩

end Conversion

end Stylesheet
