import Stylesheet.Deferred
import Stylesheet.Selector.Compose
import Stylesheet.Selector.Weight

/-!
# Selectors given as values

Paths and keys may be given as values of which nothing is known beforehand.  A path is anything that
has elements, and its elements have to be texts.  Options among them may pass for at-rules, or for
fragments without effect, if their entries say so.

## Main definitions

* `Untyped.compose`, `Untyped.merge` — the selectors that a path of any value stands for.
* `Untyped.weight` — the weight of a key of any type.

## Main statements

* `Untyped.compose_texts`, `Untyped.merge_texts` — on texts, these are what they are for fragments.
-/

namespace Stylesheet.Untyped

/-- The elements of a value that has elements. -/
def elements (value : Value) : Except Fault (List Value) :=
  match value.elements? with
  | some items => .ok items
  | none => .error .wrongType

/-- The text that a value is, and a fault that depends on what it is instead. -/
def textOr (fault : Value → Fault) : Value → Except Fault String
  | .text s => .ok s
  | value => .error (fault value)

theorem mapM_textOr_text (fault : Value → Fault) (texts : List String) :
    (texts.map Value.text).mapM (textOr fault) = .ok texts := by
  induction texts with
  | nil => rfl
  | cons s rest ih => rw [List.map_cons, List.mapM_cons, ih]; rfl

/-- The selector that a list of fragments stands for. -/
def merge (path : Value) : Except Fault String := do
  return Selector.merge (← (← elements path).mapM (textOr fun _ => .wrongType))

/-- Texts are merged as fragments. -/
theorem merge_texts (kind : SeqKind) (texts : List String) :
    merge (.seq kind (texts.map .text)) = .ok (Selector.merge texts) := by
  change (do return Selector.merge (← (texts.map Value.text).mapM (textOr fun _ => .wrongType))) = _
  rw [mapM_textOr_text]
  rfl

/-! ## Composing -/

/-- What the fragments of a path seen so far amount to, where those that are not texts are kept as
they are. -/
structure Composition where
  /-- The media queries. -/
  queries : List String
  /-- The other at-rules. -/
  atRules : List Value
  /-- The fragments after the last at-rule, in the order in which they are merged. -/
  rest : List Value

namespace Composition

/-- A composition of texts. -/
def ofTexts (c : Selector.Composition) : Composition :=
  ⟨c.queries, c.atRules.map .text, c.rest.map .text⟩

/-- One text more. -/
def addText (c : Composition) (fragment : String) : Composition :=
  match Selector.role fragment with
  | .media query => { c with queries := c.queries ++ [query] }
  | .atRule text => { c with atRules := c.atRules ++ [.text text], rest := [] }
  | .before text =>
    match c.rest.getLast? with
    | some last => { c with rest := c.rest.dropLast ++ [.text text, last] }
    | none => c
  | .after text => { c with rest := c.rest ++ [.text text] }

theorem addText_ofTexts (c : Selector.Composition) (s : String) :
    (ofTexts c).addText s = ofTexts (c.add s) := by
  simp only [addText, Selector.Composition.add]
  cases Selector.role s with
  | before text => cases h : c.rest.getLast? <;> simp [ofTexts, h]
  | _ => simp [ofTexts]

/-- One fragment more.  What is not a text is asked for its marks, and can be kept but not cut. -/
def add {σ : Type} (caller : Caller σ) (c : Composition) : Value → Run σ Composition
  | .text s => pure (c.addText s)
  | fragment => do
    if ← fragment.ask caller "startswith" "@media" then throw .wrongType
    else if ← fragment.ask caller "startswith" "@" then
      return { c with atRules := c.atRules ++ [fragment], rest := [] }
    else if ← fragment.ask caller "endswith" "&" then
      if c.rest.isEmpty then return c else throw .wrongType
    else return { c with rest := c.rest ++ [fragment] }

/-- The selectors of the blocks, outermost first, without empty ones.  Only texts can be merged. -/
def selectors (c : Composition) : Except Fault (List Value) := do
  let merged ← merge (.seq .list c.rest)
  return ((Selector.mediaSelectors c.queries).map Value.text ++ c.atRules ++
    [Value.text merged]).filter Value.isTrue

theorem selectors_ofTexts (c : Selector.Composition) :
    (ofTexts c).selectors = .ok (c.selectors.map .text) := by
  have htrue : (fun s => decide (s ≠ "")) = Value.isTrue ∘ Value.text := by
    funext s
    by_cases h : s = "" <;> simp [Value.isTrue, h]
  change (do
    let merged ← merge (.seq .list (c.rest.map .text))
    return ((Selector.mediaSelectors c.queries).map Value.text ++ c.atRules.map Value.text ++
      [Value.text merged]).filter Value.isTrue) = _
  rw [merge_texts, Selector.Composition.selectors, htrue, ← List.filter_map, List.map_append,
    List.map_append]
  rfl

theorem foldlM_add_texts {σ : Type} (caller : Caller σ) (texts : List String)
    (c : Selector.Composition) :
    (texts.map Value.text).foldlM (add caller) (ofTexts c) =
      pure (ofTexts (texts.foldl Selector.Composition.add c)) := by
  induction texts generalizing c with
  | nil => rfl
  | cons s rest ih =>
    rw [List.map_cons, List.foldlM_cons, List.foldl_cons, ← ih, ← addText_ofTexts]
    rfl

end Composition

/-- The selectors that a path stands for. -/
def compose {σ : Type} (caller : Caller σ) (path : Value) : Run σ (List Value) := do
  let fragments ← Run.ofExcept (elements path)
  let composition ← fragments.foldlM (Composition.add caller) (.ofTexts .empty)
  Run.ofExcept composition.selectors

/-- Texts are composed as fragments, and nothing is called. -/
theorem compose_texts {σ : Type} (caller : Caller σ) (kind : SeqKind) (texts : List String) :
    compose caller (.seq kind (texts.map .text)) = pure ((Selector.compose texts).map .text) := by
  change (do
    let composition ← (texts.map Value.text).foldlM (Composition.add caller) (.ofTexts .empty)
    Run.ofExcept composition.selectors) = _
  rw [Composition.foldlM_add_texts]
  change Run.ofExcept (Composition.selectors _) = _
  rw [Composition.selectors_ofTexts]
  rfl

/-- The weight of a key by its first element. -/
def firstWeight (first : Value) : Except Fault String :=
  match first with
  | .text s => match s.toList with
    | [c] => .ok (Selector.charWeight c)
    | _ => .ok "15"
  | _ => if first.isHashable then .ok "15" else .error .wrongType

/-- The weight of a key.  The first element of a mapping is what stands under zero. -/
def weight (key : Value) : Except Fault String :=
  if !key.isTrue then .ok "00"
  else match key with
    | .text s => .ok (Selector.weight s)
    | .bytes _ => .ok "15"
    | .seq _ (first :: _) => firstWeight first
    | .mapping _ entries => match Value.lookup? entries (.int 0) with
      | some first => firstWeight first
      | none => .error (.noEntry "0")
    | _ => .error .wrongType

/-- The path and the key of a conflict, if there is one. -/
def conflict (path key : Value) : Except Fault (List String × Option String) := do
  let path ← elements path
  let path ← path.mapM (textOr fun _ => .wrongType)
  match key with
  | .none => return (path, none)
  | key => return (path, some (← textOr (fun _ => .wrongType) key))

end Stylesheet.Untyped
