import WireSchema.Toml.Scalar

/-!
# Reading configuration texts

A text consists of lines: a key and its value, the header of a table, or the header of the next
table of an array.  Comments run to the end of a line.  Arrays extend over lines and inline tables
do not.  The steps left are counted down from the length of the text, which every step shortens.
-/

namespace WireSchema
namespace Toml

/-- What is left after a comment, if there is one. -/
def skipComment (chars : List Char) : List Char :=
  match chars with
  | '#' :: rest => rest.dropWhile isTextual
  | _ => chars

def skipTrivia : (steps : Nat) → List Char → List Char
  | 0, chars => chars
  | steps + 1, chars =>
    let start := skipBlanks chars
    match newline? (skipComment start) with
    | some rest => skipTrivia steps rest
    | none => start

/-- What is left after the end of a line, before which blanks and a comment may stand. -/
def endLine? (chars : List Char) : Option (List Char) :=
  match skipComment (skipBlanks chars) with
  | [] => some []
  | rest => newline? rest

mutual

/-- Reads a value, in which arrays and inline tables may be nested to so many levels. -/
def readValue : (steps levels : Nat) → List Char → Option (Value × List Char)
  | 0, _, _ => none
  | steps + 1, levels, chars =>
    match chars with
    | [] => none
    | c :: rest =>
      if c = '"' || c = '\'' then (readText chars).map fun (text, after) => (.string text, after)
      else if c = '[' then
        if levels = 0 then none else readArray steps (levels - 1) [] rest
      else if c = '\x7b' then
        if levels = 0 then none
        else
          match skipBlanks rest with
          | '\x7d' :: after => some (.inlineTable .empty, after)
          | _ => readPairs steps (levels - 1) [] rest
      else
        match chars with
        | 't' :: 'r' :: 'u' :: 'e' :: after => some (.boolean true, after)
        | 'f' :: 'a' :: 'l' :: 's' :: 'e' :: after => some (.boolean false, after)
        | _ => readNumeric chars

/-- Reads the items of an array up to its end; `sofar` holds those read, last first. -/
def readArray : (steps levels : Nat) → (sofar : List Value) → List Char →
    Option (Value × List Char)
  | 0, _, _, _ => none
  | steps + 1, levels, sofar, chars =>
    match skipTrivia (chars.length + 1) chars with
    | ']' :: rest => some (.array sofar.reverse, rest)
    | start =>
      match readValue steps levels start with
      | none => none
      | some (item, after) =>
        match skipTrivia (after.length + 1) after with
        | ',' :: rest => readArray steps levels (item :: sofar) rest
        | ']' :: rest => some (.array (item :: sofar).reverse, rest)
        | _ => none

/-- Reads the entries of an inline table up to its end. -/
def readPairs : (steps levels : Nat) → (sofar : List (List String × Value)) → List Char →
    Option (Value × List Char)
  | 0, _, _, _ => none
  | steps + 1, levels, sofar, chars =>
    match readPath chars with
    | some (path, '=' :: afterKey) =>
      match readValue steps levels (skipBlanks afterKey) with
      | none => none
      | some (value, after) =>
        let pairs := (path, value) :: sofar
        match skipBlanks after with
        | ',' :: rest => readPairs steps levels pairs rest
        | '\x7d' :: rest =>
          (Table.ofPairs? pairs.reverse).map fun table => (.inlineTable table, rest)
        | _ => none
    | _ => none

end

/-- A line that says something, and what is left after it. -/
def readLine (chars : List Char) : Option (Line × List Char) :=
  match chars with
  | '[' :: '[' :: rest =>
    match readPath rest with
    | some (path, ']' :: ']' :: after) => (endLine? after).map fun rest => (.tablesHeader path, rest)
    | _ => none
  | '[' :: rest =>
    match readPath rest with
    | some (path, ']' :: after) => (endLine? after).map fun rest => (.header path, rest)
    | _ => none
  | _ =>
    match readPath chars with
    | some (path, '=' :: after) =>
      match readValue (after.length + 1) (nestingBound - 1) (skipBlanks after) with
      | some (value, rest) => (endLine? rest).map fun rest => (.pair path value, rest)
      | none => none
    | _ => none

/-- All lines that say something; `sofar` holds those read, last first. -/
def readAll : (steps : Nat) → (sofar : List Line) → List Char → Option (List Line)
  | 0, _, _ => none
  | steps + 1, sofar, chars =>
    match skipTrivia (chars.length + 1) chars with
    | [] => some sofar.reverse
    | '#' :: rest =>
      match endLine? ('#' :: rest) with
      | some after => readAll steps sofar after
      | none => none
    | start =>
      match readLine start with
      | some (line, rest) => readAll steps (line :: sofar) rest
      | none => none

/-- The mark that may stand before a text in UTF-8. -/
def byteOrderMark : Char := '\ufeff'

def Table.ofText? (text : String) : Option Table :=
  let chars :=
    match text.toList with
    | c :: rest => if c = byteOrderMark then rest else c :: rest
    | [] => []
  (readAll (chars.length + 1) [] chars).bind Table.ofLines?

end Toml
end WireSchema
