/-!
# Code units of text

Names are hashed by their UTF-16 code units, and text travels as UTF-8 bytes.  Both are views of
the characters of a text: a character outside the basic plane has two UTF-16 units, and a list of
bytes is a text exactly when it is well-formed UTF-8.
-/

namespace WireSchema
namespace Text

/-- The one or two UTF-16 code units of a character. -/
def charUnits (c : Char) : List UInt16 :=
  let point := c.toNat
  if point < 0x10000 then [UInt16.ofNat point]
  else
    let offset := point - 0x10000
    [UInt16.ofNat (0xd800 + offset / 0x400), UInt16.ofNat (0xdc00 + offset % 0x400)]

def units (text : String) : List UInt16 := text.toList.flatMap charUnits

def utf8 (text : String) : List UInt8 := text.toUTF8.data.toList

/-- The text with the given UTF-8 bytes, if they are well formed. -/
def ofUtf8? (bytes : List UInt8) : Option String := String.fromUTF8? ⟨bytes.toArray⟩

theorem length_utf8 (text : String) : (utf8 text).length = text.utf8ByteSize := rfl

theorem ofUtf8?_utf8 (text : String) : ofUtf8? (utf8 text) = some text := by
  have whole : (⟨(utf8 text).toArray⟩ : ByteArray) = text.toUTF8 := by
    simp [utf8]
  rw [ofUtf8?, whole]
  exact dif_pos text.isValidUTF8

end Text
end WireSchema
