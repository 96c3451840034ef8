import WireSchema.Json.Writer
import WireSchema.Naming.Reserved
import WireSchema.Naming.Singular
import WireSchema.Schema.Declaration

/-!
# From documents to declarations

A document is a mapping.  Each of its entries declares, by the form of its value, an object (a
mapping), a message (an array of one mapping), a request with its response (an array of two) or
an enum (an array of strings).  Whatever can be checked within one document is checked here, entry
by entry in the order of the text, and the first fault is reported.

Objects embedded in a field come before the object that holds the field, and a response comes
before its request.
-/

namespace WireSchema
namespace Outline

open Naming

/-- Reading a body adds its embedded objects to those of the document. -/
abbrev Outlining := StateT (List Declaration.Object) (Except SchemaError)

/-- An ordinal travels in one byte. -/
def maxEnumValues : Nat := 256

/-- Splits `tag@parent` at the first `@` after the first character, if something follows it. -/
def splitInheritance (key : String) : String × Option String :=
  match key.toList with
  | [] => (key, none)
  | first :: rest =>
    let before := rest.takeWhile (· ≠ '@')
    match rest.dropWhile (· ≠ '@') with
    | '@' :: c :: more => (String.ofList (first :: before), some (String.ofList (c :: more)))
    | _ => (key, none)

/-- The target of a link: `namespace:tag`, or a tag of the document itself. -/
def linkOf (space target : String) : Link :=
  let before := target.toList.takeWhile (· ≠ ':')
  match target.toList.dropWhile (· ≠ ':') with
  | ':' :: tag => if before.isEmpty then ⟨space, target⟩ else ⟨String.ofList before, String.ofList tag⟩
  | _ => ⟨space, target⟩

/-- A name that is neither empty nor reserved. -/
def checkName (space : String) (what : Subject) (key name : String) : Except SchemaError String :=
  if name.isEmpty then .error (.emptyName space what key)
  else if isReserved name then .error (.reservedName space what key name)
  else .ok name

def typeName (space : String) (what : Subject) (key tag : String) : Except SchemaError String :=
  checkName space what key (identifier .type tag)

/-- Lengths of binary fields fit 64 bits. -/
def lengthBound : Nat := 0x10000000000000000

/-- The length in a token `binaryN`, if it is one: some digits and nothing else. -/
def binaryDigits? (token : List Char) : Option (List Nat) :=
  if ['b', 'i', 'n', 'a', 'r', 'y'].isPrefixOf token then
    let (digits, rest) := Json.spanDigits (token.drop 6)
    if digits.isEmpty || !rest.isEmpty then none else some digits
  else none

def tokenShape (space owner key token : String) : Except SchemaError Declaration.Shape :=
  let invalid : SchemaError := .invalidFieldType space owner key (SchemaError.inQuotes token)
  match Primitive.ofToken? token with
  | some kind => .ok (.primitive kind)
  | none =>
    if token = "string" then .ok .text
    else
      match binaryDigits? token.toList with
      | some digits =>
        let length := digits.foldl (fun n d => n * 10 + d) 0
        if length < lengthBound then .ok (.binary length) else .error invalid
      | none =>
        match token.toList with
        | '@' :: c :: more =>
          let target := linkOf space (String.ofList (c :: more))
          if target.tag.isEmpty then .error (.emptyReference space owner key target.space)
          else .ok (.link target)
        | _ => .error invalid

/-- An embedded object is tagged by its owner and the key of its field; inside an array, by the
singular of the key. -/
def embeddedTag (owner key : String) (inArray : Bool) : String :=
  owner ++ "_" ++ if inArray then singular key else key

/-- Adds an object to those of the document and gives its place. -/
def addObject (object : Declaration.Object) : Outlining Nat := fun objects =>
  .ok (objects.length, objects ++ [object])

mutual

/-- The type of a field.  Embedded objects are added on the way. -/
def readShape (space owner key : String) (inArray : Bool) : Json → Outlining Declaration.Shape
  | .string token => tokenShape space owner key token
  | .array [item] => do
    let element ← readShape space owner key true item
    return .array element
  | .object members => do
    let tag := embeddedTag owner key inArray
    let name ← typeName space .object key tag
    let fields ← readFields space tag [] members
    let index ← addObject ⟨tag, name, .embedded, none, fields, none, none⟩
    return .embedded index
  | other => throw (.invalidFieldType space owner key other.compact)

/-- The fields of a body, after those already read. -/
def readFields (space owner : String) (sofar : List Declaration.Field) :
    List (String × Json) → Outlining (List Declaration.Field)
  | [] => return sofar
  | (key, value) :: rest => do
    let name ← checkName space .field key (identifier .field key)
    if sofar.any (·.name == name) then
      throw (.duplicateMember space owner .field key name)
    let shape ← readShape space owner key false value
    readFields space owner (sofar ++ [⟨key, name, key.toList.head? == some '?', shape⟩]) rest

end

/-- Reads the body of an object and adds the object after what is embedded in it. -/
def declareObject (space tag name : String) (role : Role) (parent : Option Link)
    (wireName : Option String) (response : Option Nat) (body : List (String × Json)) :
    Outlining Nat := do
  let fields ← readFields space tag [] body
  addObject ⟨tag, name, role, parent, fields, wireName, response⟩

def declareTopLevel (space key : String) (body : List (String × Json)) : Outlining Unit := do
  let (tag, parent) := splitInheritance key
  let name ← typeName space .object key tag
  let _ ← declareObject space tag name .object (parent.map (linkOf space)) none none body

/-- Payloads have no parent. -/
def rejectInheritance (space : String) (what : Subject) (key tag : String) :
    Except SchemaError Unit :=
  if (splitInheritance tag).2.isSome then .error (.payloadInheritance space what key) else .ok ()

def declareMessage (space key : String) (body : List (String × Json)) : Outlining Unit := do
  let wireName ← checkName space .message key (identifier .type key ++ "Message")
  let tag := key ++ "_message"
  rejectInheritance space .message key tag
  let name ← typeName space .message key tag
  let _ ← declareObject space tag name .message none (some wireName) none body

def declareRequest (space key : String) (request response : List (String × Json)) :
    Outlining Unit := do
  let requestWire ← checkName space .request key (identifier .type key ++ "Request")
  let responseWire ← checkName space .response key (identifier .type key ++ "Response")
  let responseTag := key ++ "_response"
  let requestTag := key ++ "_request"
  rejectInheritance space .request key responseTag
  rejectInheritance space .request key requestTag
  let responseName ← typeName space .response key responseTag
  let index ←
    declareObject space responseTag responseName .response none (some responseWire) none response
  let requestName ← typeName space .request key requestTag
  let _ ←
    declareObject space requestTag requestName .request none (some requestWire) (some index) request

/-- The value names of an enum, after those already read. -/
def readValues (space owner : String) (sofar : List String) :
    List String → Except SchemaError (List String)
  | [] => .ok sofar
  | row :: rest => do
    let value ← checkName space .enumValue row (identifier .field row)
    if sofar.contains value then throw (.duplicateMember space owner .value row value)
    readValues space owner (sofar ++ [value]) rest

def readEnum (space key : String) (rows : List String) : Except SchemaError Declaration.Enum := do
  let name ← typeName space .enum key key
  if rows.length > maxEnumValues then throw (.tooManyEnumValues space key rows.length)
  let values ← readValues space key [] rows
  return ⟨key, name, values⟩

/-- The strings of a list, if it holds nothing else. -/
def strings? (items : List Json) : Option (List String) := items.mapM Json.string?

def readEntry (outline : Outline) (key : String) (value : Json) : Except SchemaError Outline :=
  let space := outline.space
  let declare (action : Outlining Unit) : Except SchemaError Outline :=
    (action.run outline.objects).map fun (_, objects) => { outline with objects }
  if (identifier .field key).isEmpty then .error (.emptyName space .node key)
  else
    match value with
    | .object body => declare (declareTopLevel space key body)
    | .array [.object body] => declare (declareMessage space key body)
    | .array [.object request, .object response] => declare (declareRequest space key request response)
    | .array (first :: rest) =>
      match strings? (first :: rest) with
      | some rows =>
        (readEnum space key rows).map fun declared =>
          { outline with enums := outline.enums ++ [declared] }
      | none => .error (.invalidDeclaration space key)
    | _ => .error (.invalidDeclaration space key)

def readEntries (outline : Outline) : List (String × Json) → Except SchemaError Outline
  | [] => .ok outline
  | (key, value) :: rest => do readEntries (← readEntry outline key value) rest

/-- Names and tags of all types, enums first. -/
def typeNames (outline : Outline) : List (String × String) :=
  outline.enums.map (fun e => (e.name, e.tag)) ++ outline.objects.map fun o => (o.name, o.tag)

/-- The first name that occurs again, with the tag of its second holder. -/
def duplicateName? (seen : List String) : List (String × String) → Option (String × String)
  | [] => none
  | (name, tag) :: rest =>
    if seen.contains name then some (name, tag) else duplicateName? (name :: seen) rest

def ofDocument (document : Document) : Except SchemaError Outline :=
  match document.root with
  | .object entries => do
    let outline ← readEntries ⟨document.space, [], []⟩ entries
    match duplicateName? [] outline.typeNames with
    | some (name, key) => throw (.duplicateType document.space name key)
    | none => return outline
  | _ => .error (.notAMapping document.space)

end Outline
end WireSchema
