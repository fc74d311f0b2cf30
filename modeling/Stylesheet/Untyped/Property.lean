import Stylesheet.Property
import Stylesheet.Value.Equality

/-!
# Property names given as values

The key of a property may be any value that can be written, and the custom names any container.

## Main definitions

* `Untyped.holdsText` — whether a container holds a text.
* `Untyped.propertyName` — the name of the property with the given key.
-/

namespace Stylesheet.Untyped

/-- Whether a text occurs in another one. -/
def occursIn (part : List Char) : List Char → Bool
  | [] => part.isEmpty
  | c :: rest => part.isPrefixOf (c :: rest) || occursIn part rest

/-- Whether a container holds a text: as a part of a text, as an element, or as a key. -/
def holdsText (container : Value) (s : String) : Except Fault Bool :=
  match container with
  | .text whole => .ok (occursIn s.toList whole.toList)
  | .seq _ items | .set _ items | .stream _ _ _ items =>
    .ok (items.any (Value.text s).same)
  | .mapping _ entries => .ok (entries.any fun entry => (Value.text s).same entry.1)
  | _ => .error .wrongType

/-- The name of the property with the given key.  The custom names are looked at only if they count
as true and the key is no name already. -/
def propertyName (key customs : Value) : Except Fault String := do
  let key ← key.asText
  if key.toList.head? = some '-' || !customs.isTrue then return Property.name (fun _ => false) key
  let isCustom ← holdsText customs (Property.cssName key)
  return Property.name (fun _ => isCustom) key

end Stylesheet.Untyped
