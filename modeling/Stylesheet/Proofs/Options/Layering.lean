import Stylesheet.Options.Access
import Stylesheet.Proofs.Value.Entries
import Stylesheet.Proofs.Value.SetOrder

/-!
# Options in layers

Options that are made in two steps are those that are made in one, with the keywords of the second
step over those of the first.  For this the options of the first step have to say what they were
made from as far as that matters: the settings are brought to their proper types once, and that
changes nothing of what is read from them.

## Main definitions

* `Options.overridden` — keywords over keywords.
* `Options.IsRead`, `Options.ReadAlike` — entries that options are read from, and from which the
  same are.
* `Options.AreNames` — the custom names that a setting stands for.
* `Options.IsSource` — what options are made from.

## Main statements

* `Options.putEntries_overridden` — keywords over keywords are put in one after the other.
* `Options.readAlike_entries` — options have entries that are read like those they were made from.
* `Options.isLayered_of_ensure` — options in one step and in two.
-/

namespace Stylesheet.Options

open Value (field? putEntry putEntries HasDistinctKeys setElements)

variable {given : Value} {keywords later : List (String × Value)} {o : Options}
  {entries entries' : List (Value × Value)}

/-! ## Keywords over keywords -/

/-- Keywords with one put in.  A name that is there keeps its place, and a new one comes last. -/
def putKeyword : List (String × Value) → String → Value → List (String × Value)
  | [], name, value => [(name, value)]
  | (name', value') :: rest, name, value =>
    if name' = name then (name, value) :: rest else (name', value') :: putKeyword rest name value

/-- Keywords with later ones over them. -/
def overridden (keywords later : List (String × Value)) : List (String × Value) :=
  later.foldl (fun keywords keyword => putKeyword keywords keyword.1 keyword.2) keywords

theorem any_putKeyword (keywords : List (String × Value)) (name : String) (value : Value)
    (p : String → Bool) :
    (putKeyword keywords name value).any (fun keyword => p keyword.1) =
      (keywords.any (fun keyword => p keyword.1) || p name) := by
  induction keywords with
  | nil => simp [putKeyword]
  | cons keyword rest ih =>
    by_cases hname : keyword.1 = name
    · simp [putKeyword, hname, Bool.or_comm]
    · simp [putKeyword, hname, ih, Bool.or_assoc]

/-- The names of keywords over keywords are the names of both. -/
theorem any_overridden (keywords later : List (String × Value)) (p : String → Bool) :
    (overridden keywords later).any (fun keyword => p keyword.1) =
      (keywords.any (fun keyword => p keyword.1) || later.any fun keyword => p keyword.1) := by
  induction later generalizing keywords with
  | nil => simp [overridden]
  | cons keyword rest ih =>
    rw [overridden, List.foldl_cons, ← overridden, ih, any_putKeyword, List.any_cons,
      Bool.or_assoc]

theorem overridden_ne_nil (keywords : List (String × Value)) (h : later ≠ []) :
    overridden keywords later ≠ [] := by
  obtain ⟨keyword, rest, rfl⟩ := List.exists_cons_of_ne_nil h
  intro hnil
  have hany := any_overridden keywords (keyword :: rest) fun _ => true
  simp [hnil] at hany

theorem mem_names_putKeyword {name name' : String} {value : Value} :
    name' ∈ (putKeyword keywords name value).map Prod.fst ↔
      name' ∈ keywords.map Prod.fst ∨ name' = name := by
  have hany := any_putKeyword keywords name value (· == name')
  rw [Bool.eq_iff_iff, Bool.or_eq_true, List.any_eq_true, List.any_eq_true] at hany
  simp only [beq_iff_eq] at hany
  rw [List.mem_map, List.mem_map, hany, eq_comm (a := name)]

theorem nodup_putKeyword (h : (keywords.map Prod.fst).Nodup) (name : String) (value : Value) :
    ((putKeyword keywords name value).map Prod.fst).Nodup := by
  induction keywords with
  | nil => simp [putKeyword]
  | cons keyword rest ih =>
    rw [List.map_cons, List.nodup_cons] at h
    by_cases hname : keyword.1 = name
    · subst hname
      rw [putKeyword, if_pos rfl]
      exact List.nodup_cons.2 h
    · simp only [putKeyword, hname, if_false, List.map_cons, List.nodup_cons]
      exact ⟨fun hmem => (mem_names_putKeyword.1 hmem).elim h.1 hname, ih h.2⟩

theorem putEntries_keyword_cons (entries : List (Value × Value)) (keyword : String × Value)
    (rest : List (String × Value)) :
    putEntries entries (keywordEntries (keyword :: rest)) =
      putEntries (putEntry entries (.text keyword.1) keyword.2) (keywordEntries rest) := rfl

/-- A keyword whose name is there already may be put in before others of other names. -/
theorem putEntry_putEntries_comm {name : String} (hname : name ∉ keywords.map Prod.fst)
    (h : field? entries name ≠ none) (value : Value) :
    putEntry (putEntries entries (keywordEntries keywords)) (.text name) value =
      putEntries (putEntry entries (.text name) value) (keywordEntries keywords) := by
  induction keywords generalizing entries with
  | nil => rfl
  | cons keyword rest ih =>
    rw [List.map_cons, List.mem_cons, not_or] at hname
    have hfield : field? (putEntry entries (.text keyword.1) keyword.2) name ≠ none := by
      rwa [Value.field?_putEntry, if_neg (Ne.symm hname.1)]
    rw [putEntries_keyword_cons, putEntries_keyword_cons, ih hname.2 hfield,
      Value.putEntry_comm hname.1 h]

/-- Putting in keywords of which one is new is putting in that one last. -/
theorem putEntries_putKeyword (h : (keywords.map Prod.fst).Nodup)
    (entries : List (Value × Value)) (name : String) (value : Value) :
    putEntries entries (keywordEntries (putKeyword keywords name value)) =
      putEntry (putEntries entries (keywordEntries keywords)) (.text name) value := by
  induction keywords generalizing entries with
  | nil => rfl
  | cons keyword rest ih =>
    rw [List.map_cons, List.nodup_cons] at h
    by_cases hname : keyword.1 = name
    · subst hname
      have hfield : field? (putEntry entries (.text keyword.1) keyword.2) keyword.1 ≠ none := by
        simp [Value.field?_putEntry]
      rw [putKeyword, if_pos rfl, putEntries_keyword_cons, putEntries_keyword_cons,
        putEntry_putEntries_comm h.1 hfield, Value.putEntry_putEntry]
    · rw [putKeyword, if_neg hname, putEntries_keyword_cons, putEntries_keyword_cons, ih h.2]

/-- Keywords over keywords are put in one after the other. -/
theorem putEntries_overridden (h : (keywords.map Prod.fst).Nodup)
    (entries : List (Value × Value)) (later : List (String × Value)) :
    putEntries entries (keywordEntries (overridden keywords later)) =
      putEntries (putEntries entries (keywordEntries keywords)) (keywordEntries later) := by
  induction later generalizing keywords with
  | nil => rfl
  | cons keyword rest ih =>
    rw [overridden, List.foldl_cons, ← overridden, ih (nodup_putKeyword h keyword.1 keyword.2),
      putEntries_putKeyword h, putEntries_keyword_cons]

/-! ## Reading entries -/

/-- The value that entries set, or the initial one. -/
def setting (entries : List (Value × Value)) (name : String) (initial : Value) : Value :=
  (field? entries name).getD initial

theorem setting_putEntry (entries : List (Value × Value)) (name : String) (value : Value)
    (name' : String) (initial : Value) :
    setting (putEntry entries (.text name) value) name' initial =
      if name = name' then value else setting entries name' initial := by
  rw [setting, Value.field?_putEntry]
  split <;> rfl

/-- Settings that are read alike are so after the same entry has been put in. -/
theorem read_setting_putEntry {α : Type} (read : Value → α) {name' : String} {initial : Value}
    (h : read (setting entries name' initial) = read (setting entries' name' initial))
    (name : String) (value : Value) :
    read (setting (putEntry entries (.text name) value) name' initial) =
      read (setting (putEntry entries' (.text name) value) name' initial) := by
  rw [setting_putEntry, setting_putEntry]
  split
  · rfl
  · exact h

/-- Entries that options are read from. -/
structure IsRead (entries : List (Value × Value)) (o : Options) : Prop where
  indent : readIndent (setting entries "indent" (.int default.indent)) = .ok o.indent
  unit : readUnit (setting entries "unit" (.text default.unit)) = .ok o.unit
  sort : (setting entries "sort" (.bool default.sort)).isTrue = o.sort
  customs : readCustoms (setting entries "customs" default.customsValue) = .ok o.customs
  extras : entries.filter (fun entry => !isSetting entry.1) = o.extras

theorem build_eq (entries : List (Value × Value)) :
    build entries = do
      let indent ← readIndent (setting entries "indent" (.int default.indent))
      let unit ← readUnit (setting entries "unit" (.text default.unit))
      let customs ← readCustoms (setting entries "customs" default.customsValue)
      return ⟨unit, (setting entries "sort" (.bool default.sort)).isTrue, indent, customs,
        entries.filter fun entry => !isSetting entry.1⟩ := rfl

theorem IsRead.build_eq_ok (h : IsRead entries o) : build entries = .ok o := by
  rw [build_eq, h.indent, h.unit, h.sort, h.customs, h.extras]
  rfl

theorem isRead_of_build (h : build entries = .ok o) : IsRead entries o := by
  rw [build_eq] at h
  cases hindent : readIndent (setting entries "indent" (.int default.indent)) with
  | error => rw [hindent] at h; cases h
  | ok indent =>
    cases hunit : readUnit (setting entries "unit" (.text default.unit)) with
    | error => rw [hindent, hunit] at h; cases h
    | ok unit =>
      cases hcustoms : readCustoms (setting entries "customs" default.customsValue) with
      | error => rw [hindent, hunit, hcustoms] at h; cases h
      | ok customs =>
        rw [hindent, hunit, hcustoms] at h
        cases h
        exact ⟨hindent, hunit, rfl, hcustoms, rfl⟩

/-- Entries from which the same options are read, or the same fault is met. -/
structure ReadAlike (entries entries' : List (Value × Value)) : Prop where
  indent : readIndent (setting entries "indent" (.int default.indent)) =
    readIndent (setting entries' "indent" (.int default.indent))
  unit : readUnit (setting entries "unit" (.text default.unit)) =
    readUnit (setting entries' "unit" (.text default.unit))
  sort : (setting entries "sort" (.bool default.sort)).isTrue =
    (setting entries' "sort" (.bool default.sort)).isTrue
  customs : readCustoms (setting entries "customs" default.customsValue) =
    readCustoms (setting entries' "customs" default.customsValue)
  extras : entries.filter (fun entry => !isSetting entry.1) =
    entries'.filter fun entry => !isSetting entry.1

theorem IsRead.readAlike (h : IsRead entries o) (h' : IsRead entries' o) :
    ReadAlike entries entries' where
  indent := h.indent.trans h'.indent.symm
  unit := h.unit.trans h'.unit.symm
  sort := h.sort.trans h'.sort.symm
  customs := h.customs.trans h'.customs.symm
  extras := h.extras.trans h'.extras.symm

namespace ReadAlike

theorem build_eq_build (h : ReadAlike entries entries') : build entries = build entries' := by
  rw [build_eq, build_eq, h.indent, h.unit, h.sort, h.customs, h.extras]

/-- An entry under a text is read like itself. -/
theorem putEntry (h : ReadAlike entries entries') (name : String) (value : Value) :
    ReadAlike (putEntry entries (.text name) value) (putEntry entries' (.text name) value) where
  indent := read_setting_putEntry readIndent h.indent name value
  unit := read_setting_putEntry readUnit h.unit name value
  sort := read_setting_putEntry Value.isTrue h.sort name value
  customs := read_setting_putEntry readCustoms h.customs name value
  extras := by
    have hfilter (entries : List (Value × Value)) :=
      Value.filter_putEntry entries name value fun key => !isSetting key
    rw [hfilter, hfilter, h.extras]

theorem putEntries (h : ReadAlike entries entries') (keywords : List (String × Value)) :
    ReadAlike (putEntries entries (keywordEntries keywords))
      (putEntries entries' (keywordEntries keywords)) := by
  induction keywords generalizing entries entries' with
  | nil => exact h
  | cons keyword rest ih => exact ih (h.putEntry keyword.1 keyword.2)

end ReadAlike

/-! ## The entries of options -/

theorem readIndent_int (indent : Nat) : readIndent (.int indent) = .ok indent := by
  cases indent with
  | zero => rfl
  | succ n => rfl

/-- Whether a value counts as true and can be gone through, but gives no elements. -/
def isHollow : Value → Bool
  | .stream _ _ _ [] => true
  | _ => false

/-- What counts as true, can be gone through and is not hollow has elements. -/
theorem elements_ne_nil {value : Value} {items : List Value} (htrue : value.isTrue = true)
    (hhollow : isHollow value = false) (helements : value.elements? = some items) :
    items ≠ [] := by
  cases value with
  | text s =>
    obtain rfl := Option.some.inj helements
    simpa [Value.isTrue] using htrue
  | bytes b =>
    obtain rfl := Option.some.inj helements
    have hsize : b.data.toList.length ≠ 0 := bne_iff_ne.1 htrue
    exact fun hnil => hsize (by rw [List.map_eq_nil_iff.1 hnil, List.length_nil])
  | seq | mapping | set =>
    obtain rfl := Option.some.inj helements
    simpa [Value.isTrue] using htrue
  | stream id shown once items =>
    obtain rfl := Option.some.inj helements
    rintro rfl
    cases hhollow
  | _ => cases helements

/-- What is read as custom names is a set. -/
theorem setElements_of_readCustoms {value : Value} {names : List Value}
    (h : readCustoms value = .ok (some names)) :
    setElements names = names ∧ Value.allHashable names = true := by
  rw [readCustoms] at h
  split at h
  · next htext =>
    cases h
    cases value with
    | text s => exact ⟨rfl, rfl⟩
    | _ => cases htext
  · split at h
    · split at h
      · next items helements =>
        split at h
        · next hhashable =>
          cases h
          refine ⟨Value.setElements_setElements items, Value.allHashable_iff.2 fun item hitem => ?_⟩
          exact Value.allHashable_iff.1 hhashable item (Value.mem_of_mem_setElements hitem)
        · cases h
      · cases h
    · cases h

/-- The custom names that a setting stands for: none exactly if it neither is a text nor counts as
true. -/
inductive AreNames (value : Value) : Option (List Value) → Prop
  | absent (htext : value.isText = false) (htrue : value.isTrue = false) : AreNames value none
  | present {names : List Value} (hne : names ≠ [])
      (hvalue : value.isText = true ∨ value.isTrue = true) : AreNames value (some names)

theorem areNames_of_readCustoms {value : Value} {names : Option (List Value)}
    (hhollow : isHollow value = false) (h : readCustoms value = .ok names) :
    AreNames value names := by
  rw [readCustoms] at h
  split at h
  · next htext =>
    cases h
    exact .present (List.cons_ne_nil _ _) (.inl htext)
  · next htext =>
    split at h
    · next htrue =>
      split at h
      · next items helements =>
        split at h
        · cases h
          have hitems : items ≠ [] := elements_ne_nil htrue hhollow helements
          exact .present (Value.setElements_ne_nil hitems) (.inr htrue)
        · cases h
      · cases h
    · next htrue =>
      cases h
      exact .absent (Bool.eq_false_iff.2 htext) (Bool.eq_false_iff.2 htrue)

/-- Options with custom names, or without any, are made anew as they are. -/
theorem renewed_of_areNames {value : Value} (h : AreNames value o.customs) : o.renewed = o := by
  obtain ⟨unit, sort, indent, customs, extras⟩ := o
  cases h with
  | absent => rfl
  | present hne => simp [renewed, hne]

/-- Custom names are read back from the set that they are, unless that is empty. -/
theorem readCustoms_customsValue {value : Value} (h : readCustoms value = .ok o.customs) :
    readCustoms o.customsValue = .ok o.renewed.customs := by
  obtain ⟨unit, sort, indent, customs, extras⟩ := o
  cases customs with
  | none => rfl
  | some names =>
    obtain ⟨hset, hhashable⟩ := setElements_of_readCustoms h
    cases names with
    | nil => rfl
    | cons first rest =>
      change (if Value.allHashable (first :: rest) then
        Except.ok (some (setElements (first :: rest))) else Except.error Fault.wrongType) = _
      rw [if_pos hhashable, hset]
      rfl

theorem isSetting_eq_false_iff {key : Value} :
    isSetting key = false ↔ ∀ name ∈ settings, key ≠ .text name := by
  simp [isSetting, Bool.eq_false_iff]

/-- Options are made anew when they are read from their own entries. -/
theorem isRead_entries (h : IsRead entries o) : IsRead o.entries o.renewed where
  indent := readIndent_int o.indent
  unit := rfl
  sort := rfl
  customs := readCustoms_customsValue h.customs
  extras := by
    have hextras : o.entries.filter (fun entry => !isSetting entry.1) =
        o.extras.filter fun entry => !isSetting entry.1 := rfl
    rw [hextras, ← h.extras, List.filter_filter]
    simp only [Bool.and_self]
    exact h.extras

/-- The setting of custom names. -/
def customsSetting (entries : List (Value × Value)) : Value :=
  setting entries "customs" default.customsValue

/-- The entries of options are read like those that the options were made from. -/
theorem readAlike_entries (h : IsRead entries o)
    (hhollow : isHollow (customsSetting entries) = false) : ReadAlike o.entries entries := by
  have hrenewed : o.renewed = o := renewed_of_areNames (areNames_of_readCustoms hhollow h.customs)
  exact (hrenewed ▸ isRead_entries h).readAlike h

/-- The keys of options are distinct if those of the entries are that they were made from. -/
theorem hasDistinctKeys_entries (h : IsRead entries o) (hdistinct : HasDistinctKeys entries) :
    HasDistinctKeys o.entries := by
  have hextras : HasDistinctKeys o.extras := h.extras ▸ hdistinct.filter _
  have hnew : ∀ name ∈ settings, ∀ entry ∈ o.extras,
      (Value.text name).same entry.1 = false := by
    intro name hname entry hentry
    rw [← h.extras, List.mem_filter, Bool.not_eq_true'] at hentry
    have hkey : entry.1 ≠ .text name := isSetting_eq_false_iff.1 hentry.2 name hname
    exact Bool.eq_false_iff.2 (mt Value.text_same_iff.1 hkey)
  rw [HasDistinctKeys, Options.entries]
  simp only [List.pairwise_cons, List.forall_mem_cons]
  exact ⟨⟨rfl, rfl, rfl, hnew "unit" (by decide)⟩, ⟨rfl, rfl, hnew "sort" (by decide)⟩,
    ⟨rfl, hnew "indent" (by decide)⟩, hnew "customs" (by decide), hextras⟩

/-! ## One step and two -/

/-- What options are made from: nothing, a mapping, or options. -/
inductive IsSource : Value → Prop
  | none : IsSource .none
  | mapping {kind : MappingKind} {entries : List (Value × Value)} (hkind : kind ≠ .options)
      (hdistinct : HasDistinctKeys entries) : IsSource (.mapping kind entries)
  | options {entries : List (Value × Value)} {o : Options} (hdistinct : HasDistinctKeys entries)
      (hhollow : isHollow (customsSetting entries) = false) (h : build entries = .ok o) :
      IsSource o.toValue

/-- The entries of what options are made from. -/
def sourceEntries? : Value → Option (List (Value × Value))
  | .none => some []
  | value => value.entries?

/-- Options are built from the entries of a mapping and keywords, unless they are there already. -/
theorem ensure_eq_build (hgiven : sourceEntries? given = some entries)
    (hreserved : keywords.any (fun keyword => reserved.contains keyword.1) = false)
    (hnew : keywords ≠ [] ∨ ofValue? given = none) :
    ensure given keywords = build (putEntries entries (keywordEntries keywords)) := by
  have hnone : (if keywords.isEmpty then ofValue? given else none) = none := by
    split
    · next hempty => exact hnew.resolve_left (not_not.2 (List.isEmpty_iff.1 hempty))
    · rfl
  unfold ensure
  rw [if_neg (hreserved ▸ Bool.false_ne_true), hnone]
  cases given with
  | none =>
    cases hgiven
    rfl
  | mapping kind entries' =>
    cases hgiven
    rfl
  | _ => cases hgiven

theorem ensure_of_reserved
    (hreserved : keywords.any (fun keyword => reserved.contains keyword.1) = true) :
    ensure given keywords = .error .wrongType := by
  unfold ensure
  rw [if_pos hreserved]

/-- Options that are made of a source can be built from its entries and the keywords. -/
theorem exists_build_of_ensure (hgiven : IsSource given) (h : ensure given keywords = .ok o) :
    keywords.any (fun keyword => reserved.contains keyword.1) = false ∧
      ∃ entries, sourceEntries? given = some entries ∧ HasDistinctKeys entries ∧
        build (putEntries entries (keywordEntries keywords)) = .ok o := by
  have hreserved : keywords.any (fun keyword => reserved.contains keyword.1) = false := by
    refine Bool.eq_false_iff.2 fun hreserved => ?_
    rw [ensure_of_reserved hreserved] at h
    cases h
  refine ⟨hreserved, ?_⟩
  cases hgiven with
  | none =>
    have hnone : ofValue? .none = none := rfl
    exact ⟨[], rfl, List.Pairwise.nil, (ensure_eq_build rfl hreserved (.inr hnone)).symm.trans h⟩
  | @mapping kind entries hkind hdistinct =>
    have hnone : ofValue? (.mapping kind entries) = none := by
      cases kind with
      | options => exact absurd rfl hkind
      | plain | view => rfl
    exact ⟨entries, rfl, hdistinct, (ensure_eq_build rfl hreserved (.inr hnone)).symm.trans h⟩
  | @options entries o' hdistinct hhollow hbuild =>
    have hread : IsRead entries o' := isRead_of_build hbuild
    refine ⟨o'.entries, rfl, hasDistinctKeys_entries hread hdistinct, ?_⟩
    cases keywords with
    | nil =>
      rw [ensure_toValue] at h
      exact (readAlike_entries hread hhollow).build_eq_build.trans (hbuild.trans h)
    | cons keyword rest =>
      have hentries : sourceEntries? o'.toValue = some o'.entries := rfl
      exact (ensure_eq_build hentries hreserved (.inl nofun)).symm.trans h

/-- Options with keywords over them are what their source is with these keywords over its own. -/
theorem ensure_toValue_of_isRead (hkeywords : (keywords.map Prod.fst).Nodup)
    (hentries : sourceEntries? given = some entries)
    (hreserved : keywords.any (fun keyword => reserved.contains keyword.1) = false)
    (hhollow : isHollow (customsSetting (putEntries entries (keywordEntries keywords))) = false)
    (hread : IsRead (putEntries entries (keywordEntries keywords)) o) (hlater : later ≠ []) :
    ensure o.toValue later = ensure given (overridden keywords later) := by
  have hany := any_overridden keywords later reserved.contains
  rw [hreserved, Bool.false_or] at hany
  cases hrefused : later.any fun keyword => reserved.contains keyword.1 with
  | true => rw [ensure_of_reserved hrefused, ensure_of_reserved (hany.trans hrefused)]
  | false =>
    have halike := (readAlike_entries hread hhollow).putEntries later
    calc ensure o.toValue later
        = build (putEntries o.entries (keywordEntries later)) :=
          ensure_eq_build rfl hrefused (.inl hlater)
      _ = build (putEntries (putEntries entries (keywordEntries keywords))
            (keywordEntries later)) :=
          halike.build_eq_build
      _ = build (putEntries entries (keywordEntries (overridden keywords later))) := by
          rw [putEntries_overridden hkeywords]
      _ = ensure given (overridden keywords later) :=
          (ensure_eq_build hentries (hany.trans hrefused)
            (.inl (overridden_ne_nil keywords hlater))).symm

/-- Options are made anew from the entries that they are. -/
theorem ofPairs_toValue (hdistinct : HasDistinctKeys entries) (h : build entries = .ok o) :
    ofPairs o.toValue = .ok o.renewed := by
  have hread : IsRead entries o := isRead_of_build h
  have hkeys : HasDistinctKeys ([] ++ o.entries) := hasDistinctKeys_entries hread hdistinct
  change build (putEntries [] o.entries) = .ok o.renewed
  rw [Value.putEntries_eq_append hkeys]
  exact (isRead_entries hread).build_eq_ok

/-- Options that are made of a source and keywords, as further steps and readers meet them. -/
structure IsLayered (given : Value) (keywords : List (String × Value)) (o : Options) : Prop where
  /-- Options made of them with later keywords are those made of the source with both, or not made
  for the same fault. -/
  layered : ∀ later, ensure o.toValue later = ensure given (overridden keywords later)
  /-- Without keywords, nothing changes. -/
  ensure_eq : ensure o.toValue [] = .ok o
  ofPairs_eq : ofPairs o.toValue = .ok o
  /-- The settings come first, each of its proper type, and then all other entries of the source and
  the keywords, as they were given. -/
  entries_eq : ∃ entries unit sort, ∃ indent : Nat, ∃ customs, sourceEntries? given = some entries ∧
    o.entries = (.text "unit", .text unit) :: (.text "sort", .bool sort) ::
      (.text "indent", .int indent) :: (.text "customs", customs) ::
        (putEntries entries (keywordEntries keywords)).filter (fun entry => !isSetting entry.1) ∧
    ∃ names, customs = names.elim .none (.set true) ∧
      AreNames (customsSetting (putEntries entries (keywordEntries keywords))) names

/-- Options that are made of a source are layered: further keywords may as well be given with the
first ones, and nothing else changes what the options hold.  What is gone through for custom names
has to give some, and to give them each time that options are made of it. -/
theorem isLayered_of_ensure (hgiven : IsSource given) (hkeywords : (keywords.map Prod.fst).Nodup)
    (hhollow : ∀ entries, sourceEntries? given = some entries →
      isHollow (customsSetting (putEntries entries (keywordEntries keywords))) = false)
    (h : ensure given keywords = .ok o) : IsLayered given keywords o := by
  obtain ⟨hreserved, entries, hentries, hdistinct, hbuild⟩ := exists_build_of_ensure hgiven h
  have hnames := hhollow entries hentries
  have hread : IsRead (putEntries entries (keywordEntries keywords)) o := isRead_of_build hbuild
  have hareNames := areNames_of_readCustoms hnames hread.customs
  have hrenewed : o.renewed = o := renewed_of_areNames hareNames
  have hagain : ofPairs o.toValue = .ok o :=
    (ofPairs_toValue (hdistinct.putEntries _) hbuild).trans (congrArg _ hrenewed)
  refine ⟨fun later => ?_, ensure_toValue o, hagain,
    ⟨entries, o.unit, o.sort, o.indent, o.customsValue, hentries, ?_, o.customs, ?_, hareNames⟩⟩
  · cases later with
    | nil => exact (ensure_toValue o).trans h.symm
    | cons keyword rest =>
      exact ensure_toValue_of_isRead hkeywords hentries hreserved hnames hread
        (List.cons_ne_nil _ _)
  · rw [hread.extras]
    rfl
  · unfold customsValue
    cases o.customs <;> rfl

/-- Settings of other types than their proper ones, among other entries. -/
theorem isLayered_looseSettings :
    IsLayered
      (.mapping .plain [(.int 7, .none), (.text "indent", .bool true),
        (.text "customs", .seq .list [.text "a", .text "b", .text "a"]),
        (.text "COLOR", .text "red")])
      [("sort", .int 1), ("COLOR", .text "blue"), ("unit", .none)]
      ⟨"", true, 1, some [.text "a", .text "b"],
        [(.int 7, .none), (.text "COLOR", .text "blue")]⟩ := by
  refine isLayered_of_ensure (.mapping (by decide) ?_) (by decide) ?_ ?_
  · simp [HasDistinctKeys, Value.same, Value.sameInt]
  · rintro _ ⟨⟩
    rfl
  · rfl

/-- Keywords after what can be gone through in them has been. -/
def spentKeywords (keywords : List (String × Value)) : List (String × Value) :=
  keywords.map fun keyword => (keyword.1, keyword.2.spent)

/-- Without names in it, what is gone through for custom names leaves options that are not made anew
as they are.  Names that are used up are there in two steps but not in one.  A handle on options
that have not been set up stays one, and these have no unit. -/
theorem not_forall_isLayered :
    (¬ ∀ given keywords o, IsSource given → (keywords.map Prod.fst).Nodup →
        ensure given keywords = .ok o → IsLayered given keywords o) ∧
      (¬ ∀ keywords later o, ensure .none keywords = .ok o →
        ensure o.toValue later = ensure .none (overridden (spentKeywords keywords) later)) ∧
      ¬ ∀ handle handle' : Handle, handle.ensure [] = .ok handle' →
        ∃ unit, handle'.attr "unit" = .ok (.text unit) := by
  refine ⟨fun h => ?_, fun h => ?_, fun h => ?_⟩
  · let hollow : Value := .stream 0 "<iterator>" true []
    have hlayered := h .none [("customs", hollow)] { default with customs := some [] } .none
      (by decide) rfl
    have hnames := congrArg (Except.map Options.customs) hlayered.ofPairs_eq
    cases hnames
  · let names : Value := .stream 0 "<iterator>" true [.text "a"]
    have hagain := h [("customs", names)] [("sort", .bool true)]
      { default with customs := some [.text "a"] } rfl
    have hnames := congrArg (Except.map Options.customs) hagain
    cases hnames
  · obtain ⟨unit, hunit⟩ := h none none rfl
    cases hunit

end Stylesheet.Options
