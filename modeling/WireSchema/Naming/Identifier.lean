/-!
# Identifiers from schema keys

Schema keys are free-form (`get_data`, `?is_active`, `sub-entity`).  A key is turned into an
identifier of ASCII letters and digits in three steps: letters after a boundary are capitalised,
a leading ordinal is dropped, and every other character is left out.  A key without any usable
character has the empty identifier; whoever needs a name rejects it.
-/

namespace WireSchema
namespace Naming

/-- Which capitalisation an identifier follows: types start with a capital, fields and enum
values keep their first letter as written. -/
inductive NameCase where
  | type
  | field
  deriving DecidableEq, Repr

def isAsciiLower (c : Char) : Bool := 'a' ≤ c && c ≤ 'z'

def isAsciiUpper (c : Char) : Bool := 'A' ≤ c && c ≤ 'Z'

def isAsciiDigit (c : Char) : Bool := '0' ≤ c && c ≤ '9'

def isAsciiLetter (c : Char) : Bool := isAsciiLower c || isAsciiUpper c

/-- Whether a lower-case letter right after this character is capitalised.  In field case the
mark of an optional field is no boundary. -/
def isBoundary (case : NameCase) (c : Char) : Bool :=
  !isAsciiLetter c && !(case == .field && c == '?')

/-- Capitalises each lower-case letter that follows a boundary. -/
def capitaliseWords (case : NameCase) : List Char → List Char
  | [] => []
  | [c] => [c]
  | c :: next :: rest =>
    if isBoundary case c && isAsciiLower next then
      c :: next.toUpper :: capitaliseWords case rest
    else c :: capitaliseWords case (next :: rest)

/-- Capitalises a key, its first letter included in type case. -/
def capitalise (case : NameCase) : List Char → List Char
  | c :: rest =>
    if case = .type && isAsciiLower c then c.toUpper :: capitaliseWords case rest
    else capitaliseWords case (c :: rest)
  | [] => []

/-- Drops leading digits, together with a question mark before them.  A question mark without
digits stays. -/
def dropOrdinal : List Char → List Char
  | '?' :: rest =>
    match rest with
    | d :: _ => if isAsciiDigit d then rest.dropWhile isAsciiDigit else '?' :: rest
    | [] => ['?']
  | chars => chars.dropWhile isAsciiDigit

def identifierChars (case : NameCase) (key : List Char) : List Char :=
  (dropOrdinal (capitalise case key)).filter fun c => isAsciiLetter c || isAsciiDigit c

/-- The identifier of a schema key, possibly empty. -/
def identifier (case : NameCase) (key : String) : String :=
  String.ofList (identifierChars case key.toList)

example : identifier .type "get_data_response_?item" = "GetDataResponseItem" := by decide +kernel

example : identifier .field "?is_active" = "isActive" := by decide +kernel

example : identifier .field "2nd_place" = "NdPlace" := by decide +kernel

end Naming
end WireSchema
