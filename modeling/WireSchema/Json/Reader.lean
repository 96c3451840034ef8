import WireSchema.Json.Number

/-!
# Reading JSON texts

A text is read character by character.  Arrays and objects may be nested to a limit; `none` is a
text that is no JSON, or one nested too deep.  The steps left are counted down from the length of
the text, which every step shortens.
-/

namespace WireSchema
namespace Json

def isJsonBlank (c : Char) : Bool := c = ' ' || c = '\n' || c = '\t' || c = '\r'

def skipBlank (chars : List Char) : List Char := chars.dropWhile isJsonBlank

def hexValue? (c : Char) : Option Nat :=
  if '0' ≤ c && c ≤ '9' then some (c.toNat - '0'.toNat)
  else if 'a' ≤ c && c ≤ 'f' then some (c.toNat - 'a'.toNat + 10)
  else if 'A' ≤ c && c ≤ 'F' then some (c.toNat - 'A'.toNat + 10)
  else none

def readUnit : List Char → Option (Nat × List Char)
  | a :: b :: c :: d :: rest => do
    let a ← hexValue? a
    let b ← hexValue? b
    let c ← hexValue? c
    let d ← hexValue? d
    return (((a * 16 + b) * 16 + c) * 16 + d, rest)
  | _ => none

/-- A character given by its code units: one, or a leading and a trailing surrogate. -/
def readPoint (chars : List Char) : Option (Char × List Char) :=
  match readUnit chars with
  | none => none
  | some (unit, rest) =>
    if 0xdc00 ≤ unit && unit ≤ 0xdfff then none
    else if 0xd800 ≤ unit && unit ≤ 0xdbff then
      match rest with
      | '\\' :: 'u' :: more =>
        match readUnit more with
        | some (trail, after) =>
          if 0xdc00 ≤ trail && trail ≤ 0xdfff then
            some (Char.ofNat (0x10000 + (unit - 0xd800) * 0x400 + (trail - 0xdc00)), after)
          else none
        | none => none
      | _ => none
    else some (Char.ofNat unit, rest)

/-- The character that an escape stands for, after its backslash. -/
def readEscape : List Char → Option (Char × List Char)
  | '"' :: rest => some ('"', rest)
  | '\\' :: rest => some ('\\', rest)
  | '/' :: rest => some ('/', rest)
  | 'b' :: rest => some ('\x08', rest)
  | 'f' :: rest => some ('\x0c', rest)
  | 'n' :: rest => some ('\n', rest)
  | 'r' :: rest => some ('\r', rest)
  | 't' :: rest => some ('\t', rest)
  | 'u' :: rest => readPoint rest
  | _ => none

/-- The rest of a string after its opening quote; `sofar` is what was read, last first. -/
def readString : Nat → List Char → List Char → Option (String × List Char)
  | 0, _, _ => none
  | _ + 1, _, [] => none
  | steps + 1, sofar, c :: rest =>
    if c = '"' then some (String.ofList sofar.reverse, rest)
    else if c = '\\' then
      match readEscape rest with
      | some (escaped, after) => readString steps (escaped :: sofar) after
      | none => none
    else if c.toNat < 0x20 then none
    else readString steps (c :: sofar) rest

def expect (word : List Char) (chars : List Char) : Option (List Char) :=
  if word.isPrefixOf chars then some (chars.drop word.length) else none

mutual

/-- Reads a value.  `levels` is how many arrays and objects may still be opened. -/
def readValue : Nat → Nat → List Char → Option (Json × List Char)
  | 0, _, _ => none
  | steps + 1, levels, chars =>
    match skipBlank chars with
    | [] => none
    | '"' :: rest => (readString steps [] rest).map fun (text, after) => (.string text, after)
    | '[' :: rest =>
      if levels = 0 then none
      else
        match skipBlank rest with
        | ']' :: after => some (.array [], after)
        | more => readItems steps (levels - 1) [] more
    | '\x7b' :: rest =>
      if levels = 0 then none
      else
        match skipBlank rest with
        | '\x7d' :: after => some (.object [], after)
        | more => readMembers steps (levels - 1) [] more
    | 'n' :: rest => (expect ['u', 'l', 'l'] rest).map fun after => (.null, after)
    | 't' :: rest => (expect ['r', 'u', 'e'] rest).map fun after => (.bool true, after)
    | 'f' :: rest => (expect ['a', 'l', 's', 'e'] rest).map fun after => (.bool false, after)
    | more => (readNumber more).map fun (value, after) => (.number value, after)

/-- Reads the items of an array up to its end; `sofar` holds those read, last first. -/
def readItems : Nat → Nat → List Json → List Char → Option (Json × List Char)
  | 0, _, _, _ => none
  | steps + 1, levels, sofar, chars =>
    match readValue steps levels chars with
    | none => none
    | some (item, after) =>
      match skipBlank after with
      | ',' :: more => readItems steps levels (item :: sofar) more
      | ']' :: more => some (.array (item :: sofar).reverse, more)
      | _ => none

/-- Reads the members of an object up to its end. -/
def readMembers : Nat → Nat → List (String × Json) → List Char → Option (Json × List Char)
  | 0, _, _, _ => none
  | steps + 1, levels, sofar, chars =>
    match skipBlank chars with
    | '"' :: rest =>
      match readString steps [] rest with
      | none => none
      | some (name, after) =>
        match skipBlank after with
        | ':' :: more =>
          match readValue steps levels more with
          | none => none
          | some (value, next) =>
            let members := setMember name value sofar
            match skipBlank next with
            | ',' :: last => readMembers steps levels members last
            | '\x7d' :: last => some (.object members, last)
            | _ => none
        | _ => none
    | _ => none

end

/-- The nesting allowed in schema documents. -/
def documentLevels : Nat := 127

/-- The value of a text nested at most `levels` deep. -/
def ofText? (levels : Nat) (text : String) : Option Json :=
  let chars := text.toList
  match readValue (chars.length + 1) levels chars with
  | some (value, after) => if (skipBlank after).isEmpty then some value else none
  | none => none

end Json
end WireSchema
