import Mathlib.Data.List.Forall2
import WireSchema.Schema.Outline

/-!
# The grammar of documents

Which JSON values are documents, said without reading them.  A field type is a token, an array of
one field type, or a mapping that is the body of an embedded object; an entry is an object, a
message, a request with its response, or an enum.  Beside every form stand the names of the types
that it declares, since no two types of a document may have the same name.
-/

namespace WireSchema
namespace Grammar

open Naming (identifier reservedWords)
open Outline (embeddedTag)

/-! ## Names -/

def Unreserved (name : String) : Prop := name ∉ reservedWords

def Usable (name : String) : Prop := name ≠ "" ∧ Unreserved name

/-- Keys that become different names, all of them usable. -/
structure Distinguished (keys : List String) : Prop where
  usable : ∀ key ∈ keys, Usable (identifier .field key)
  nodup : (keys.map (identifier .field)).Nodup

/-! ## Tokens -/

/-- What follows the mark of a reference: a tag, or a namespace and a tag.  A colon in front does
not end a namespace. -/
inductive IsTarget : String → Prop
  | own (tag : String) : tag ≠ "" → ':' ∉ tag.toList → IsTarget tag
  | colon (rest : String) : IsTarget (":" ++ rest)
  | foreign (space tag : String) : space ≠ "" → ':' ∉ space.toList → tag ≠ "" →
    IsTarget (space ++ ":" ++ tag)

inductive IsToken : String → Prop
  | primitive (kind : Primitive) : IsToken kind.token
  | text : IsToken "string"
  | binary (digits : String) : digits ≠ "" → (∀ c ∈ digits.toList, c.isDigit = true) →
    Nat.ofDigitChars 10 digits.toList 0 < UInt64.size → IsToken ("binary" ++ digits)
  | reference (target : String) : IsTarget target → IsToken ("@" ++ target)

/-! ## Field types and bodies -/

/-- The type of the field with a key, of an object with a tag.  In an array the tags of embedded
objects are singular. -/
inductive IsType : (owner key : String) → (inArray : Bool) → Json → Prop
  | token {owner key : String} {inArray : Bool} {token : String} :
    IsToken token → IsType owner key inArray (.string token)
  | array {owner key : String} {inArray : Bool} {item : Json} :
    IsType owner key true item → IsType owner key inArray (.array [item])
  | embedded {owner key : String} {inArray : Bool} {members : List (String × Json)} :
    Usable (identifier .type (embeddedTag owner key inArray)) →
    Distinguished (members.map (·.1)) →
    (∀ member ∈ members, IsType (embeddedTag owner key inArray) member.1 false member.2) →
    IsType owner key inArray (.object members)

/-- The fields of the object with a tag. -/
structure IsBody (owner : String) (members : List (String × Json)) : Prop where
  names : Distinguished (members.map (·.1))
  types : ∀ member ∈ members, IsType owner member.1 false member.2

mutual

/-- The names of the objects that are embedded in a field. -/
def embeddedNames (owner key : String) (inArray : Bool) : Json → List String
  | .array [item] => embeddedNames owner key true item
  | .object members =>
    bodyNames (embeddedTag owner key inArray) members ++
      [identifier .type (embeddedTag owner key inArray)]
  | _ => []

/-- The names of the objects that are embedded in a body. -/
def bodyNames (owner : String) : List (String × Json) → List String
  | [] => []
  | (key, value) :: rest => embeddedNames owner key false value ++ bodyNames owner rest

end

/-- The names of an object with its body, what is embedded in the body included. -/
def objectNames (tag : String) (body : List (String × Json)) : List String :=
  bodyNames tag body ++ [identifier .type tag]

/-! ## Entries -/

/-- A key that consists of a tag and what the object inherits from.  They are joined by the first
`@` after the first character. -/
structure Joins (key tag parent : String) : Prop where
  key_eq : key = tag ++ "@" ++ parent
  tag_ne : tag ≠ ""
  first : '@' ∉ tag.toList.tail
  parent_ne : parent ≠ ""

/-- The tag in the key of an object. -/
inductive HasTag (key : String) : String → Prop
  | joined {tag parent : String} : Joins key tag parent → HasTag key tag
  | whole : (∀ tag parent, ¬ Joins key tag parent) → HasTag key key

/-- A payload of the entry with a key, by the word that is added to its tag and the one that is
added to the name for its wire id. -/
structure IsPayload (key mark word : String) (body : List (String × Json)) : Prop where
  wireName : Unreserved (identifier .type key ++ word)
  name : Unreserved (identifier .type (key ++ mark))
  body : IsBody (key ++ mark) body

/-- The entries of a document, with the names of the types that they declare. -/
inductive IsEntry (key : String) : Json → List String → Prop
  | object {tag : String} {body : List (String × Json)} :
    HasTag key tag → Usable (identifier .type tag) → IsBody tag body →
    IsEntry key (.object body) (objectNames tag body)
  | message {body : List (String × Json)} :
    '@' ∉ key.toList.tail → IsPayload key "_message" "Message" body →
    IsEntry key (.array [.object body]) (objectNames (key ++ "_message") body)
  | request {request response : List (String × Json)} :
    '@' ∉ key.toList.tail → IsPayload key "_request" "Request" request →
    IsPayload key "_response" "Response" response →
    IsEntry key (.array [.object request, .object response])
      (objectNames (key ++ "_response") response ++ objectNames (key ++ "_request") request)
  | enum {rows : List String} :
    rows ≠ [] → rows.length ≤ 256 → Usable (identifier .type key) → Distinguished rows →
    IsEntry key (.array (rows.map .string)) [identifier .type key]

/-- Entries whose keys have names, each with the names that it declares. -/
def AreEntries (entries : List (String × Json)) (names : List (List String)) : Prop :=
  List.Forall₂
    (fun entry names => identifier .field entry.1 ≠ "" ∧ IsEntry entry.1 entry.2 names) entries names

/-- A mapping of entries which together declare no name twice. -/
inductive IsDocument : Json → Prop
  | entries {entries : List (String × Json)} {names : List (List String)} :
    AreEntries entries names → names.flatten.Nodup → IsDocument (.object entries)

end Grammar
end WireSchema
