import Stylesheet.Property

/-!
# Lines

A sheet is printed as lines: one for a declaration, and one each for the beginning and the end of a
block, with the lines of the block between them.  What is printed need not have been built by this
library, so keys are values, and a line that cannot be made is a fault in the place of the line.

## Main definitions

* `Line` — a line, with the level at which it stands.
* `Value.lines` — the lines of a sheet that is given as a value.
-/

namespace Stylesheet

/-- A line: the level at which it stands, and the parts that are written one after the other. -/
structure Line where
  level : Int
  parts : List Value
  deriving Inhabited

namespace Line

/-- The line of a declaration. -/
def declaration (level : Int) (key value : Value) : Except Fault Line := do
  return ⟨level, [key, .text ": ", .text (← Property.written value), .text ";"]⟩

/-- The lines of a block, around those of its body. -/
def block (level : Int) (key : Value) (body : List (Except Fault Line)) :
    List (Except Fault Line) :=
  .ok ⟨level, [key, .text " \x7b"]⟩ :: body ++ [.ok ⟨level, [.text "\x7d"]⟩]

end Line

namespace Value

mutual

/-- The lines of a sheet at a level.  Only a mapping has lines. -/
def lines (level : Int) : Value → List (Except Fault Line)
  | mapping _ entries => entryLines level entries
  | _ => [.error .noOperation]

/-- The lines of the entries of a mapping: mappings among the values are blocks. -/
def entryLines (level : Int) : List (Value × Value) → List (Except Fault Line)
  | [] => []
  | (key, value) :: rest =>
    (if value.isMapping then Line.block level key (lines (level + 1) value)
     else [Line.declaration level key value]) ++ entryLines level rest

end

end Value

end Stylesheet
