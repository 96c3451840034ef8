import WireSchema.Number.Style

/-!
# JSON values

The values of JSON texts.  The members of an object keep the order of the text; a name that
occurs twice keeps its first place and its last value.  A number is an integer as long as it fits
64 bits, signed or unsigned, and a double-precision number otherwise.
-/

namespace WireSchema

inductive JsonNumber where
  | integer (value : Int)
  | real (value : Number.Binary64)
  deriving DecidableEq, Repr

inductive Json where
  | null
  | bool (value : Bool)
  | number (value : JsonNumber)
  | string (value : String)
  | array (items : List Json)
  | object (members : List (String × Json))
  deriving Repr, Inhabited

namespace Json

def ofNat (n : Nat) : Json := .number (.integer n)

def isObject : Json → Bool
  | .object _ => true
  | _ => false

def string? : Json → Option String
  | .string value => some value
  | _ => none

/-- The members with one of them set: at its place if the name is taken, at the end if not. -/
def setMember (name : String) (value : Json) : List (String × Json) → List (String × Json)
  | [] => [(name, value)]
  | (other, held) :: rest =>
    if other = name then (other, value) :: rest else (other, held) :: setMember name value rest

/-- The value of a member of an object. -/
def member? (name : String) : Json → Option Json
  | .object members => (members.find? (·.1 == name)).map (·.2)
  | _ => none

end Json
end WireSchema
