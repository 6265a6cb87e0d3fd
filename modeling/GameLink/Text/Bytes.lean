/-! # Text as bytes

Frames and files are bytes; names, tokens and messages are text. The two meet
in UTF-8, and reading back what was written gives the same text.
-/
namespace GameLink

abbrev Bytes := List UInt8

namespace Bytes

def ofText (s : String) : Bytes := s.toUTF8.data.toList

/-- The text of well-formed UTF-8, nothing for other bytes. -/
def text? (b : Bytes) : Option String := String.fromUTF8? ⟨b.toArray⟩

theorem text?_ofText (s : String) : text? (ofText s) = some s := by
  have h : (⟨(ofText s).toArray⟩ : ByteArray) = s.toUTF8 := by simp [ofText]
  simp [text?, h, String.fromUTF8?, String.toUTF8, String.fromUTF8, s.isValidUTF8]

theorem ofText_injective {s t : String} (h : ofText s = ofText t) : s = t := by
  have := congrArg text? h
  simpa [text?_ofText] using this

end Bytes

end GameLink
