import WireSchema.Record.Typing

/-!
# Making and changing records

A record starts with all slots empty.  A slot is filled with a value that fits the field, and only
the slot of an optional field is emptied again.  A draft becomes a record when all required fields
are filled.
-/

namespace WireSchema

/-- Why a record could not be made or changed. -/
inductive ConstructionError where
  | unknownType (name : String)
  | unknownField (typeName field : String)
  | missingField (typeName field : String)
  | typeMismatch (typeName field expected : String)
  | notARequest (typeName : String)
  deriving DecidableEq, Repr

def ConstructionError.message : ConstructionError → String
  | .unknownType name => "unknown type: " ++ name
  | .unknownField typeName field => typeName ++ " has no field \"" ++ field ++ "\""
  | .missingField typeName field => "missing required parameter: " ++ typeName ++ "." ++ field
  | .typeMismatch typeName field expected => typeName ++ "." ++ field ++ " expects " ++ expected
  | .notARequest typeName => typeName ++ " is not a request and has no response"

namespace Record

/-- The record of a type with all slots empty. -/
def empty (schema : Schema) (type : ObjectId) : Record :=
  ⟨schema.number, type, List.replicate (schema.graph.object type).fields.length none, none⟩

/-- The type of a record of the schema. -/
def typeIn (record : Record) (schema : Schema) : ObjectType := schema.graph.object record.type

def withTransaction (record : Record) (id : UInt32) : Record :=
  { record with transaction := some id }

def indexOf (schema : Schema) (record : Record) (field : String) : Except ConstructionError Nat :=
  match (record.typeIn schema).fieldIndex? field with
  | some index => .ok index
  | none => .error (.unknownField (record.typeIn schema).name field)

def valueAt? (record : Record) (index : Nat) : Option Value := (record.slots[index]?).join

def fieldAt (schema : Schema) (record : Record) (index : Nat) : Field :=
  (record.typeIn schema).fields.getD index default

def get? (schema : Schema) (record : Record) (field : String) : Option Value :=
  ((record.typeIn schema).fieldIndex? field).bind record.valueAt?

/-- The name of the enum value that a field holds. -/
def enumValue? (schema : Schema) (record : Record) (field : String) : Option String := do
  let index ← (record.typeIn schema).fieldIndex? field
  match (record.fieldAt schema index).type, ← record.valueAt? index with
  | .enum id, .ordinal ordinal => (schema.graph.enum id).value? ordinal
  | _, _ => none

/-- Fills the slot of a field with a value that fits.  Instants are cut to milliseconds. -/
def set (schema : Schema) (record : Record) (field : String) (value : Value) :
    Except ConstructionError Record := do
  let kept := value.truncated
  let index ← record.indexOf schema field
  let type := (record.fieldAt schema index).type
  if schema.admits type kept then
    return { record with slots := record.slots.set index (some kept) }
  else throw (.typeMismatch (record.typeIn schema).name field (schema.typePhrase type))

/-- Empties the slot of an optional field and gives the value it held. -/
def clear (schema : Schema) (record : Record) (field : String) :
    Except ConstructionError (Option Value × Record) := do
  let index ← record.indexOf schema field
  if (record.fieldAt schema index).isOptional then
    return (record.valueAt? index, { record with slots := record.slots.set index none })
  else throw (.missingField (record.typeIn schema).name field)

def entries (schema : Schema) (record : Record) : List (Field × Option Value) :=
  (record.typeIn schema).fields.zip record.slots

end Record

/-- A record under construction. -/
structure Draft where
  record : Record
  deriving Inhabited

namespace Draft

def of (schema : Schema) (type : ObjectId) : Draft := ⟨.empty schema type⟩

/-- A draft of the type with a name in a namespace. -/
def named (schema : Schema) (space name : String) : Except ConstructionError Draft :=
  match schema.graph.findObject? space name with
  | some type => .ok (of schema type)
  | none => .error (.unknownType (space ++ ":" ++ name))

def set (schema : Schema) (draft : Draft) (field : String) (value : Value) :
    Except ConstructionError Draft :=
  (draft.record.set schema field value).map Draft.mk

/-- Fills the slot of an enum field with the value of a name. -/
def setEnum (schema : Schema) (draft : Draft) (field name : String) :
    Except ConstructionError Draft :=
  let type := draft.record.typeIn schema
  match type.field? field with
  | none => .error (.unknownField type.name field)
  | some declared =>
    let ordinal :=
      match declared.type with
      | .enum id => (schema.graph.enum id).ordinal? name
      | _ => none
    match ordinal with
    | some ordinal => draft.set schema field (.ordinal ordinal)
    | none => .error (.typeMismatch type.name field (schema.typePhrase declared.type))

def withTransaction (draft : Draft) (id : UInt32) : Draft := ⟨draft.record.withTransaction id⟩

def missing? (schema : Schema) (draft : Draft) : Option Field :=
  ((draft.record.entries schema).find? fun (field, slot) =>
    !field.isOptional && slot.isNone).map (·.1)

/-- The record, if all required fields have values. -/
def finish (schema : Schema) (draft : Draft) : Except ConstructionError Record :=
  match draft.missing? schema with
  | some field => .error (.missingField (draft.record.typeIn schema).name field.name)
  | none => .ok draft.record

end Draft

/-- A draft of the response to a request, with the transaction id of the request. -/
def Record.respond (schema : Schema) (request : Record) : Except ConstructionError Draft :=
  let type := request.typeIn schema
  match type.response with
  | some response =>
    .ok ⟨{ Record.empty schema response with transaction := request.transaction }⟩
  | none => .error (.notARequest type.name)

end WireSchema
