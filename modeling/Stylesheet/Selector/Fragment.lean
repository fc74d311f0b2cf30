import Stylesheet.Text.Blank

/-!
# Selector fragments

A key of a rule tree holds the fragments of one or more selectors, with commas between them.  What a
fragment does to the selector it is added to is told by the marks at its two ends.

## Main definitions

* `Selector.fragments` — the fragments that a key holds.
* `Selector.Role` — what a fragment does to a selector.
* `Selector.role` — the role of a fragment.
-/

namespace Stylesheet.Selector

open Text (trim fields)

/-- A text without the white space at its two ends. -/
def trimmed (s : String) : String :=
  String.ofList (trim s.toList)

/-- The fragments that a key holds: its parts between commas, trimmed, without blank ones.  The
empty key has one fragment, itself, which stands for the parent. -/
def fragments (key : String) : List String :=
  if key = "" then [""]
  else ((fields ',' key.toList).map trim).filter (· ≠ []) |>.map String.ofList

/-- What a fragment does to the selector it is added to. -/
inductive Role where
  /-- Puts the whole selector under a media query, which is kept without its keyword. -/
  | media (query : String)
  /-- Opens an at-rule, which drops the selector that stands before it. -/
  | atRule (text : String)
  /-- Stands before the last part of the selector; its mark is dropped. -/
  | before (text : String)
  /-- Follows the selector. -/
  | after (text : String)
  deriving DecidableEq, Repr

/-- The role of a fragment: `@media` and `@` mark rules, and `&` at the end puts it before. -/
def role (fragment : String) : Role :=
  match fragment.toList with
  | '@' :: 'm' :: 'e' :: 'd' :: 'i' :: 'a' :: query => .media (String.ofList (trim query))
  | '@' :: _ => .atRule fragment
  | cs =>
    if cs.getLast? = some '&' then .before (String.ofList (trim cs.dropLast)) else .after fragment

end Stylesheet.Selector
