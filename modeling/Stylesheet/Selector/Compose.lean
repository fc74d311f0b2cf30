import Stylesheet.Selector.Merge

/-!
# Composing selectors

The fragments on the way to a declaration are composed into the selectors of the blocks that hold
it: a media query first, then the other at-rules, then the merged selector.

## Main definitions

* `Selector.Composition` — what the fragments seen so far amount to.
* `Selector.compose` — the selectors that a path of fragments stands for.
-/

namespace Stylesheet.Selector

/-- All media queries as one selector, if there are any. -/
def mediaSelectors (queries : List String) : List String :=
  if queries = [] then [] else ["@media " ++ " and ".intercalate queries]

/-- What the fragments of a path seen so far amount to. -/
structure Composition where
  /-- The media queries. -/
  queries : List String
  /-- The other at-rules. -/
  atRules : List String
  /-- The fragments after the last at-rule, in the order in which they are merged. -/
  rest : List String
  deriving DecidableEq, Repr

namespace Composition

/-- No fragments. -/
def empty : Composition := ⟨[], [], []⟩

/-- One fragment more.  A fragment that goes before the last one is ignored if there is none. -/
def add (c : Composition) (fragment : String) : Composition :=
  match role fragment with
  | .media query => { c with queries := c.queries ++ [query] }
  | .atRule text => { c with atRules := c.atRules ++ [text], rest := [] }
  | .before text =>
    match c.rest.getLast? with
    | some last => { c with rest := c.rest.dropLast ++ [text, last] }
    | none => c
  | .after text => { c with rest := c.rest ++ [text] }

/-- The selectors of the blocks, outermost first: all media queries as one, the other at-rules, and
the merged rest, without empty ones. -/
def selectors (c : Composition) : List String :=
  (mediaSelectors c.queries ++ c.atRules ++ [merge c.rest]).filter (· ≠ "")

end Composition

/-- The selectors that a path of fragments stands for. -/
def compose (path : List String) : List String :=
  (path.foldl Composition.add .empty).selectors

end Stylesheet.Selector
