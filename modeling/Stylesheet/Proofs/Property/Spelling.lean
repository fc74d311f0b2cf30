import Stylesheet.Proofs.Property.Name

/-!
# Spellings of names

The name of a property is made of words.  As a key they can be written in three ways: with a capital
letter at the start of every word but the first, with underscores between the words, or with dashes.
All of them are the same name, and a name is custom or not whichever way its key is spelled.

## Main definitions

* `Property.AreWords` — words that a name can be made of.
* `Property.camelCase`, `Property.snakeCase`, `Property.kebabCase` — the three spellings.
* `Property.nameOfWords` — the name that words make.

## Main statements

* `Property.cssName_of_mem_spellings`, `Property.name_of_mem_spellings` — the name of a property
  that is spelled in one of these ways.
-/

namespace Stylesheet.Property

/-- Whether a character may stand in a word: a small letter or a digit of ASCII. -/
def isWordChar (c : Char) : Bool :=
  c.isLower || c.isDigit

/-- A word of a name. -/
structure IsWord (word : String) : Prop where
  ne_empty : word ≠ ""
  chars : ∀ c ∈ word.toList, isWordChar c = true

/-- Words that a name can be made of.  All but the first start with a letter, since that is where
they would be told apart by a capital letter. -/
structure AreWords (words : List String) : Prop where
  ne_nil : words ≠ []
  isWord : ∀ word ∈ words, IsWord word
  letter : ∀ word ∈ words.tail, ∀ c, word.toList.head? = some c → c.isLower = true

/-- A word with a capital letter at its start. -/
def capitalized (word : String) : String :=
  match word.toList with
  | [] => ""
  | c :: rest => String.ofList (c.toUpper :: rest)

/-- Words with a capital letter at the start of all but the first. -/
def camelCase : List String → String
  | [] => ""
  | first :: rest => first ++ String.join (rest.map capitalized)

/-- Words with underscores between them. -/
def snakeCase (words : List String) : String :=
  "_".intercalate words

/-- Words with dashes between them. -/
def kebabCase (words : List String) : String :=
  "-".intercalate words

/-- The ways in which a key can spell the words of a name. -/
def spellings (words : List String) : List String :=
  [camelCase words, snakeCase words, kebabCase words]

/-- The name of a property that is made of words: they have dashes between them, and two more in
front if that is the name of a custom property. -/
def nameOfWords (isCustom : String → Bool) (words : List String) : String :=
  if isCustom (kebabCase words) then "--" ++ kebabCase words else kebabCase words

/-! ## Characters -/

theorem toNat_lt_of_isWordChar {c : Char} (h : isWordChar c = true) : c.toNat < 128 := by
  rw [isWordChar, Bool.or_eq_true] at h
  obtain hlower | hdigit := h
  · have hle : c.val ≤ 'z'.val := of_decide_eq_true (Bool.and_eq_true_iff.1 hlower).2
    exact Nat.lt_of_le_of_lt (UInt32.le_iff_toNat_le.1 hle) (by decide)
  · have hle : c.val ≤ '9'.val := of_decide_eq_true (Bool.and_eq_true_iff.1 hdigit).2
    exact Nat.lt_of_le_of_lt (UInt32.le_iff_toNat_le.1 hle) (by decide)

/-- What becomes of the characters of words, and of letters that are capitalized, is looked up for
all of ASCII. -/
theorem ascii_checked : ∀ n < 128,
    (isWordChar (Char.ofNat n) = true → (Char.ofNat n).isUpper = false ∧
      Char.ofNat n ≠ '_' ∧ Char.ofNat n ≠ '-' ∧ (Char.ofNat n).toLower = Char.ofNat n) ∧
    ((Char.ofNat n).isLower = true → (Char.ofNat n).toUpper.isUpper = true ∧
      (Char.ofNat n).toUpper.toNat < 128 ∧ (Char.ofNat n).toUpper.toLower = Char.ofNat n) := by
  decide +kernel

theorem facts_of_isWordChar {c : Char} (h : isWordChar c = true) :
    c.isUpper = false ∧ c ≠ '_' ∧ c ≠ '-' ∧ c.toLower = c := by
  have hchecked := (ascii_checked c.toNat (toNat_lt_of_isWordChar h)).1
  rw [Char.ofNat_toNat] at hchecked
  exact hchecked h

theorem facts_of_isLower {c : Char} (h : c.isLower = true) :
    c.toUpper.isUpper = true ∧ c.toUpper.toNat < 128 ∧ c.toUpper.toLower = c := by
  have hword : isWordChar c = true := by simp [isWordChar, h]
  have hchecked := (ascii_checked c.toNat (toNat_lt_of_isWordChar hword)).2
  rw [Char.ofNat_toNat] at hchecked
  exact hchecked h

/-! ## Pieces of keys -/

/-- A piece of a key and the piece of a name that it becomes.  In a key of ASCII this does not
depend on what stands around the piece. -/
structure Becomes (piece piece' : List Char) : Prop where
  ascii : ∀ c ∈ piece, c.toNat < 128
  eq : (dashed piece).map Char.toLower = piece'

namespace Becomes

theorem append {piece piece' other other' : List Char} (h : Becomes piece piece')
    (hother : Becomes other other') : Becomes (piece ++ other) (piece' ++ other') where
  ascii c hc := (List.mem_append.1 hc).elim (h.ascii c) (hother.ascii c)
  eq := by
    rw [← h.eq, ← hother.eq]
    simp [dashed]

theorem flatMap {α : Type} {f f' : α → List Char} {as : List α}
    (h : ∀ a ∈ as, Becomes (f a) (f' a)) : Becomes (as.flatMap f) (as.flatMap f') := by
  induction as with
  | nil => exact ⟨by simp, rfl⟩
  | cons a as ih =>
    obtain ⟨ha, has⟩ := List.forall_mem_cons.1 h
    exact ha.append (ih has)

/-- A key is the name that it becomes. -/
theorem cssName_eq {key : String} {name : List Char} (h : Becomes key.toList name) :
    cssName key = String.ofList name := by
  have hascii : ∀ c ∈ dashed key.toList, c.toNat < 128 := by
    intro c hc
    obtain ⟨d, hd, hmem⟩ := List.mem_flatMap.1 hc
    obtain rfl | rfl := eq_dash_or_eq_of_mem_dashed hmem
    · decide
    · exact h.ascii c hd
  rw [cssName, Text.lower_of_ascii hascii, h.eq]

/-- The characters of words stay as they are. -/
theorem of_isWordChar {cs : List Char} (h : ∀ c ∈ cs, isWordChar c = true) : Becomes cs cs where
  ascii c hc := toNat_lt_of_isWordChar (h c hc)
  eq := by
    have hlower : ∀ c ∈ cs, c.toLower = c := fun c hc => (facts_of_isWordChar (h c hc)).2.2.2
    have hdashed : dashed cs = cs := dashed_eq_self fun c hc =>
      ⟨(facts_of_isWordChar (h c hc)).1, (facts_of_isWordChar (h c hc)).2.1⟩
    rw [hdashed, List.map_congr_left hlower, List.map_id']

theorem underscore : Becomes ['_'] ['-'] := ⟨List.forall_mem_singleton.2 (by decide), by decide⟩

theorem dash : Becomes ['-'] ['-'] := ⟨List.forall_mem_singleton.2 (by decide), by decide⟩

/-- A capital letter becomes a dash and the letter. -/
theorem toUpper {c : Char} (h : c.isLower = true) : Becomes [c.toUpper] ['-', c] := by
  obtain ⟨hupper, hascii, hlower⟩ := facts_of_isLower h
  exact ⟨by simpa using hascii, by simp [dashed, hupper, hlower]⟩

theorem capitalized {word : String} (h : IsWord word)
    (hletter : ∀ c, word.toList.head? = some c → c.isLower = true) :
    Becomes (Property.capitalized word).toList ('-' :: word.toList) := by
  have hne : word.toList ≠ [] := by simpa using h.ne_empty
  obtain ⟨c, rest, hword⟩ := List.exists_cons_of_ne_nil hne
  have hc : c.isLower = true := hletter c (by rw [hword]; rfl)
  have hrest : ∀ d ∈ rest, isWordChar d = true :=
    fun d hd => h.chars d (by rw [hword]; exact List.mem_cons_of_mem c hd)
  have hcapitalized : (Property.capitalized word).toList = [c.toUpper] ++ rest := by
    simp [Property.capitalized, hword]
  rw [hcapitalized, hword]
  exact (toUpper hc).append (of_isWordChar hrest)

end Becomes

/-! ## The three spellings -/

theorem toList_intercalate_cons {separator : String} {c : Char} (hc : separator.toList = [c])
    (first : String) (rest : List String) :
    (separator.intercalate (first :: rest)).toList =
      first.toList ++ rest.flatMap fun word => c :: word.toList := by
  rw [String.toList_intercalate, hc, List.map_cons, Text.intercalate_cons, List.flatMap_map]

/-- Every spelling of a name becomes the one with dashes. -/
theorem cssName_of_mem_spellings {words : List String} (h : AreWords words) {key : String}
    (hkey : key ∈ spellings words) : cssName key = kebabCase words := by
  obtain ⟨first, rest, rfl⟩ := List.exists_cons_of_ne_nil h.ne_nil
  obtain ⟨hfirst, hrest⟩ := List.forall_mem_cons.1 h.isWord
  have hkebab : kebabCase (first :: rest) =
      String.ofList (first.toList ++ rest.flatMap fun word => '-' :: word.toList) := by
    rw [← String.toList_inj, String.toList_ofList]
    exact toList_intercalate_cons rfl first rest
  rw [hkebab]
  refine Becomes.cssName_eq ?_
  simp only [spellings, List.mem_cons, List.not_mem_nil, or_false] at hkey
  rcases hkey with rfl | rfl | rfl
  · rw [camelCase, String.toList_append, String.toList_join, List.flatMap_map]
    exact (Becomes.of_isWordChar hfirst.chars).append <| .flatMap fun word hword =>
      .capitalized (hrest word hword) (h.letter word hword)
  · rw [snakeCase, toList_intercalate_cons rfl]
    exact (Becomes.of_isWordChar hfirst.chars).append <| .flatMap fun word hword =>
      Becomes.underscore.append (.of_isWordChar (hrest word hword).chars)
  · rw [hkebab, String.toList_ofList]
    exact (Becomes.of_isWordChar hfirst.chars).append <| .flatMap fun word hword =>
      Becomes.dash.append (.of_isWordChar (hrest word hword).chars)

/-- No spelling starts with a dash, which would make it a name already. -/
theorem head_of_mem_spellings {words : List String} (h : AreWords words) {key : String}
    (hkey : key ∈ spellings words) : key.toList.head? ≠ some '-' := by
  obtain ⟨first, rest, rfl⟩ := List.exists_cons_of_ne_nil h.ne_nil
  have hfirst := h.isWord first (List.mem_cons_self ..)
  have hne : first.toList ≠ [] := by simpa using hfirst.ne_empty
  obtain ⟨c, cs, hchars⟩ := List.exists_cons_of_ne_nil hne
  have hc : c ≠ '-' := (facts_of_isWordChar (hfirst.chars c (by simp [hchars]))).2.2.1
  have hstart : ∃ others, key.toList = first.toList ++ others := by
    simp only [spellings, List.mem_cons, List.not_mem_nil, or_false] at hkey
    rcases hkey with rfl | rfl | rfl
    · exact ⟨_, String.toList_append⟩
    · exact ⟨_, toList_intercalate_cons rfl first rest⟩
    · exact ⟨_, toList_intercalate_cons rfl first rest⟩
  obtain ⟨others, hkey⟩ := hstart
  simp [hkey, hchars, hc]

/-- The name of a property that is spelled in one of the three ways. -/
theorem name_of_mem_spellings {words : List String} (h : AreWords words)
    (isCustom : String → Bool) {key : String} (hkey : key ∈ spellings words) :
    name isCustom key = nameOfWords isCustom words := by
  rw [name, if_neg (head_of_mem_spellings h hkey), cssName_of_mem_spellings h hkey, nameOfWords]

end Stylesheet.Property
