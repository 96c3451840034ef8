import WireSchema.Number.Style
import WireSchema.Record.Typing
import WireSchema.Text.Quoted

/-!
# Texts of records

A record is shown to people by the names of its fields and enum values.  For inspection it is
described instead: every value with its kind, and the transaction id besides.
-/

namespace WireSchema

def commaJoined (parts : List String) : String := String.intercalate ", " parts

def bytesText (bytes : List UInt8) : String := "[" ++ commaJoined (bytes.map toString) ++ "]"

def optionText {α : Type} (text : α → String) : Option α → String
  | some value => "Some(" ++ text value ++ ")"
  | none => "None"

mutual

def describedValue (graph : Graph) : Value → String
  | .bool value => "Bool(" ++ toString value ++ ")"
  | .int8 value => "I8(" ++ toString value ++ ")"
  | .uint8 value => "U8(" ++ toString value ++ ")"
  | .int16 value => "I16(" ++ toString value ++ ")"
  | .uint16 value => "U16(" ++ toString value ++ ")"
  | .int32 value => "I32(" ++ toString value ++ ")"
  | .uint32 value => "U32(" ++ toString value ++ ")"
  | .int64 value => "I64(" ++ toString value ++ ")"
  | .uint64 value => "U64(" ++ toString value ++ ")"
  | .float value => "F32(" ++ Number.FloatStyle.described.text32 value ++ ")"
  | .double value => "F64(" ++ Number.FloatStyle.described.text64 value ++ ")"
  | .datetime value => "DateTime(" ++ value.zuluText ++ ")"
  | .text value => "String(" ++ Text.quoted value ++ ")"
  | .binary bytes => "Binary(" ++ bytesText bytes ++ ")"
  | .ordinal value => "Enum(" ++ toString value ++ ")"
  | .array items => "Array([" ++ commaJoined (describedItems graph items) ++ "])"
  | .record value => "Object(" ++ describedRecord graph value ++ ")"

def describedItems (graph : Graph) : List Value → List String
  | [] => []
  | item :: rest => describedValue graph item :: describedItems graph rest

/-- The descriptions of slots, with the names of their fields. -/
def describedSlots (graph : Graph) (fields : List Field) : List (Option Value) → List String
  | [] => []
  | some value :: rest =>
    match fields with
    | field :: fields =>
      (field.name ++ ": Some(" ++ describedValue graph value ++ ")") ::
        describedSlots graph fields rest
    | [] => []
  | none :: rest =>
    match fields with
    | field :: fields => (field.name ++ ": None") :: describedSlots graph fields rest
    | [] => []

def describedRecord (graph : Graph) : Record → String
  | ⟨_, type, slots, transaction⟩ =>
    let name := (graph.object type).name
    let parts :=
      describedSlots graph (graph.object type).fields slots ++
        (transaction.toList.map fun id => "$transaction_id: " ++ toString id)
    if parts.isEmpty then name else name ++ " \x7b " ++ commaJoined parts ++ " \x7d"

end

mutual

/-- A value as shown to people; the type of its field tells the names of enum values. -/
def shownValue (graph : Graph) (type : FieldType) : Value → String
  | .bool value => toString value
  | .int8 value => toString value
  | .uint8 value => toString value
  | .int16 value => toString value
  | .uint16 value => toString value
  | .int32 value => toString value
  | .uint32 value => toString value
  | .int64 value => toString value
  | .uint64 value => toString value
  | .float value => Number.FloatStyle.shown.text32 value
  | .double value => Number.FloatStyle.shown.text64 value
  | .datetime value => value.text
  | .text value => value
  | .binary bytes => bytesText bytes
  | .ordinal value =>
    match type with
    | .enum id => ((graph.enum id).value? value).getD (toString value)
    | _ => toString value
  | .array items =>
    match type with
    | .array element => "[" ++ commaJoined (shownItems graph element items) ++ "]"
    | _ => "[" ++ commaJoined (describedItems graph items) ++ "]"
  | .record value => shownRecord graph value

def shownItems (graph : Graph) (element : FieldType) : List Value → List String
  | [] => []
  | item :: rest => shownValue graph element item :: shownItems graph element rest

def shownSlots (graph : Graph) (fields : List Field) : List (Option Value) → List String
  | [] => []
  | some value :: rest =>
    match fields with
    | field :: fields =>
      (field.name ++ ": " ++ shownValue graph field.type value) :: shownSlots graph fields rest
    | [] => []
  | none :: rest =>
    match fields with
    | field :: fields => (field.name ++ ": null") :: shownSlots graph fields rest
    | [] => []

def shownRecord (graph : Graph) : Record → String
  | ⟨_, type, slots, _⟩ =>
    (graph.object type).name ++ "(" ++
      commaJoined (shownSlots graph (graph.object type).fields slots) ++ ")"

end

end WireSchema
