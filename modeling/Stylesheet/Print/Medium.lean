/-!
# Media

What is written to: text, which takes bytes only if they are the encoding of a text, or bytes, which
take a text by its encoding.

## Main definitions

* `Medium` — the operations of what is written to.

## Main statements

* `Medium.toUTF8_putText`, `Medium.toUTF8_putBytes?` — bytes take what a text takes, as its
  encoding.
-/

namespace Stylesheet

/-- Something that texts and bytes are appended to. -/
class Medium (ω : Type) where
  /-- Nothing written yet. -/
  blank : ω
  /-- Appends a text. -/
  putText : ω → String → ω
  /-- Appends bytes, if the medium takes them. -/
  putBytes? : ω → ByteArray → Option ω

/-- A text takes the bytes that encode a text. -/
instance : Medium String where
  blank := ""
  putText := (· ++ ·)
  putBytes? out b := (String.fromUTF8? b).map (out ++ ·)

/-- Bytes take a text by its encoding. -/
instance : Medium ByteArray where
  blank := .empty
  putText out s := out ++ s.toUTF8
  putBytes? out b := some (out ++ b)

namespace Medium

/-- Bytes take a text as its encoding. -/
theorem toUTF8_putText (out s : String) :
    (putText out s : String).toUTF8 = putText out.toUTF8 s := by
  simp [putText]

/-- Bytes that a text takes are those of its encoding that are added. -/
theorem toUTF8_putBytes? {out out' : String} {b : ByteArray} (h : putBytes? out b = some out') :
    putBytes? out.toUTF8 b = some out'.toUTF8 := by
  obtain ⟨s, hs, rfl⟩ := Option.map_eq_some_iff.1 h
  unfold String.fromUTF8? at hs
  split at hs
  · cases hs
    simp only [putBytes?, String.toUTF8_eq_toByteArray, String.toByteArray_append]
    rfl
  · cases hs

end Medium

end Stylesheet
