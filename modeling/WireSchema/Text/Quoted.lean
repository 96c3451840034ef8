import WireSchema.Text.Printable

/-!
# Quoted text

Text shown for inspection stands between double quotes.  A quote and a backslash are preceded by
a backslash, four controls have a letter of their own, and any other character that would not
show as itself is written by its code point in braces.
-/

namespace WireSchema
namespace Text

/-- Lower-case hexadecimal digits of a number, without leading zeros. -/
def hexDigits (n : Nat) : List Char := Nat.toDigits 16 n

def quotedChar (c : Char) : List Char :=
  if c = '"' then ['\\', '"']
  else if c = '\\' then ['\\', '\\']
  else if c = '\t' then ['\\', 't']
  else if c = '\r' then ['\\', 'r']
  else if c = '\n' then ['\\', 'n']
  else if c = '\x00' then ['\\', '0']
  else if isExtending c || !isPrintable c then
    ['\\', 'u', '\x7b'] ++ hexDigits c.toNat ++ ['\x7d']
  else [c]

/-- A text between quotes, as shown in error messages and in descriptions of values. -/
def quoted (text : String) : String :=
  String.ofList (['"'] ++ text.toList.flatMap quotedChar ++ ['"'])

example : quoted "a\"b\\c" = "\"a\\\"b\\\\c\"" := by decide +kernel

example : quoted "\x01\x7f" = "\"\\u\x7b1\x7d\\u\x7b7f\x7d\"" := by decide +kernel

end Text
end WireSchema
