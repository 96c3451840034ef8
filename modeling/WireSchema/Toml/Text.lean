import WireSchema.Json.Reader

/-!
# Keys and strings of configuration texts

A string stands between quotes, where a backslash escapes, or between apostrophes, where nothing
does.  Three quotes or apostrophes enclose a string of several lines.  Up to two more before the
closing ones belong to the string.  Each function reads from the front of a list of characters and
gives what is left.
-/

namespace WireSchema
namespace Toml

def isBlank (c : Char) : Bool := c = ' ' || c = '\t'

def skipBlanks (chars : List Char) : List Char := chars.dropWhile isBlank

def newline? : List Char → Option (List Char)
  | '\n' :: rest => some rest
  | '\r' :: '\n' :: rest => some rest
  | _ => none

/-- Characters that may stand in comments and strings: a tab, but no other control. -/
def isTextual (c : Char) : Bool := c = '\t' || (c.toNat ≥ 0x20 && c ≠ '\x7f')

def readHex : Nat → Nat → List Char → Option (Nat × List Char)
  | 0, value, chars => some (value, chars)
  | count + 1, value, c :: rest =>
    match Json.hexValue? c with
    | some digit => readHex count (value * 16 + digit) rest
    | none => none
  | _ + 1, _, [] => none

def readCodePoint (digits : Nat) (chars : List Char) : Option (Char × List Char) :=
  match readHex digits 0 chars with
  | some (point, rest) => if point.isValidChar then some (Char.ofNat point, rest) else none
  | none => none

/-- The character that an escape stands for, after its backslash. -/
def readEscape : List Char → Option (Char × List Char)
  | 'b' :: rest => some ('\x08', rest)
  | 't' :: rest => some ('\t', rest)
  | 'n' :: rest => some ('\n', rest)
  | 'f' :: rest => some ('\x0c', rest)
  | 'r' :: rest => some ('\r', rest)
  | '"' :: rest => some ('"', rest)
  | '\\' :: rest => some ('\\', rest)
  | 'u' :: rest => readCodePoint 4 rest
  | 'U' :: rest => readCodePoint 8 rest
  | _ => none

/-- The rest of a string between quotes; `sofar` holds what was read, last first. -/
def readBasic : (steps : Nat) → (sofar : List Char) → List Char → Option (String × List Char)
  | 0, _, _ => none
  | _ + 1, _, [] => none
  | steps + 1, sofar, c :: rest =>
    if c = '"' then some (String.ofList sofar.reverse, rest)
    else if c = '\\' then
      match readEscape rest with
      | some (escaped, after) => readBasic steps (escaped :: sofar) after
      | none => none
    else if isTextual c then readBasic steps (c :: sofar) rest
    else none

def readLiteral (chars : List Char) : Option (String × List Char) :=
  let text := chars.takeWhile fun c => c ≠ '\'' && isTextual c
  match chars.drop text.length with
  | '\'' :: rest => some (String.ofList text, rest)
  | _ => none

/-- What is left after blanks and line ends. -/
def skipBlankLines : List Char → List Char
  | [] => []
  | '\r' :: '\n' :: rest => skipBlankLines rest
  | c :: rest => if isBlank c || c = '\n' then skipBlankLines rest else c :: rest

/-- What a backslash at the end of a line leaves out: the line end and all blanks after it. -/
def skipLineEnd? (chars : List Char) : Option (List Char) :=
  (newline? (skipBlanks chars)).map skipBlankLines

/-- The rest of a string of several lines, enclosed in three of the given marks. -/
def readLines (mark : Char) (escapes : Bool) :
    (steps : Nat) → (sofar : List Char) → List Char → Option (String × List Char)
  | 0, _, _ => none
  | _ + 1, _, [] => none
  | steps + 1, sofar, c :: rest =>
    if c = mark then
      let run := ((c :: rest).takeWhile (· = mark)).length
      let inside := if run < 3 then run else min (run - 3) 2
      let sofar := List.replicate inside mark ++ sofar
      if run < 3 then readLines mark escapes steps sofar ((c :: rest).drop run)
      else some (String.ofList sofar.reverse, (c :: rest).drop (inside + 3))
    else if escapes && c = '\\' then
      match skipLineEnd? rest, readEscape rest with
      | some after, _ => readLines mark escapes steps sofar after
      | none, some (escaped, after) => readLines mark escapes steps (escaped :: sofar) after
      | none, none => none
    else if isTextual c then readLines mark escapes steps (c :: sofar) rest
    else
      match newline? (c :: rest) with
      | some after => readLines mark escapes steps ('\n' :: sofar) after
      | none => none

/-- A line end right after the opening marks does not belong to the string. -/
def skipFirstNewline (chars : List Char) : List Char := (newline? chars).getD chars

def readText (chars : List Char) : Option (String × List Char) :=
  match chars with
  | '"' :: '"' :: '"' :: rest => readLines '"' true (rest.length + 1) [] (skipFirstNewline rest)
  | '"' :: rest => readBasic (rest.length + 1) [] rest
  | '\'' :: '\'' :: '\'' :: rest =>
    readLines '\'' false (rest.length + 1) [] (skipFirstNewline rest)
  | '\'' :: rest => readLiteral rest
  | _ => none

/-! ## Keys -/

def isKeyChar (c : Char) : Bool := c.isAlphanum || c = '-' || c = '_'

/-- A key: a string on one line, or some letters, digits, dashes and underscores. -/
def readKey (chars : List Char) : Option (String × List Char) :=
  match chars with
  | '"' :: rest => readBasic (rest.length + 1) [] rest
  | '\'' :: rest => readLiteral rest
  | _ =>
    let key := chars.takeWhile isKeyChar
    if key.isEmpty then none else some (String.ofList key, chars.drop key.length)

/-- Keys joined by dots, with blanks around them. -/
def readKeys : (steps : Nat) → (sofar : List String) → List Char →
    Option (List String × List Char)
  | 0, _, _ => none
  | steps + 1, sofar, chars =>
    match readKey (skipBlanks chars) with
    | none => none
    | some (key, after) =>
      match skipBlanks after with
      | '.' :: rest => readKeys steps (key :: sofar) rest
      | rest => some ((key :: sofar).reverse, rest)

/-- Values may be nested, and keys may be joined, less often than this. -/
def nestingBound : Nat := 80

/-- A key of a line or of an inline table. -/
def readPath (chars : List Char) : Option (List String × List Char) :=
  match readKeys (chars.length + 1) [] chars with
  | some (path, rest) => if path.length < nestingBound then some (path, rest) else none
  | none => none

end Toml
end WireSchema
