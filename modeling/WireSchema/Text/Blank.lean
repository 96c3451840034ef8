import WireSchema.Text.Range

/-!
# Blank characters

The characters with the Unicode property *White space*.  A name that consists of them alone
counts as empty where a configuration lists names.
-/

namespace WireSchema
namespace Text

def blankRanges : List Range :=
  [(0x9, 0xd), (0x20, 0x20), (0x85, 0x85), (0xa0, 0xa0), (0x1680, 0x1680), (0x2000, 0x200a),
   (0x2028, 0x2029), (0x202f, 0x202f), (0x205f, 0x205f), (0x3000, 0x3000)]

def isBlank (c : Char) : Bool := inRanges c.toNat blankRanges

/-- A text without any character that is not blank. -/
def isBlankText (text : String) : Bool := text.toList.all isBlank

end Text
end WireSchema
