import Mathlib.Data.Nat.Bitwise
import WireSchema.Proofs.Presence
import WireSchema.Proofs.Tokens

/-!
# What an emitter writes

The contracts are all that code emitters have, so the bytes of an instance must follow from them.
Here an instance is given in the words of the contracts: types, fields and values of enums go by
their names.  Its bytes are put together from the contract of its type, field by field, each one
by the token of its type; nothing else of the graph is known.
-/

namespace WireSchema
namespace Contract

/-! ## Looking up -/

/-- The objects of some contracts with their qualified names. -/
def namedObjects (manifests : List Manifest) : List (String × Object) :=
  manifests.flatMap fun manifest =>
    manifest.objects.map fun object => (manifest.space ++ ":" ++ object.name, object)

def namedEnums (manifests : List Manifest) : List (String × Enum) :=
  manifests.flatMap fun manifest =>
    manifest.enums.map fun type => (manifest.space ++ ":" ++ type.name, type)

def object? (manifests : List Manifest) (name : String) : Option Object :=
  ((namedObjects manifests).find? (·.1 == name)).map (·.2)

def enum? (manifests : List Manifest) (name : String) : Option Enum :=
  ((namedEnums manifests).find? (·.1 == name)).map (·.2)

/-- The ordinal that is listed for a value. -/
def Enum.ordinal? (type : Enum) (value : String) : Option Nat :=
  (type.values.find? (·.name == value)).map (·.ordinal)

/-- What is found if only one item can be found. -/
theorem find?_eq_some_of_unique {α : Type} {test : α → Bool} {items : List α} {item : α}
    (hmem : item ∈ items) (htest : test item = true)
    (hunique : ∀ other ∈ items, test other = true → other = item) :
    items.find? test = some item := by
  cases hfind : items.find? test with
  | none => exact absurd htest (List.find?_eq_none.mp hfind item hmem)
  | some other =>
      rw [hunique other (List.mem_of_find?_eq_some hfind) (List.find?_some hfind)]

theorem find?_named {α : Type} {named : List (String × α)} {name : String} {item : α}
    (hmem : (name, item) ∈ named) (hunique : ∀ other, (name, other) ∈ named → other = item) :
    (named.find? (·.1 == name)).map (·.2) = some item := by
  have hfind : named.find? (·.1 == name) = some (name, item) := by
    apply find?_eq_some_of_unique hmem (beq_self_eq_true name)
    rintro ⟨key, other⟩ hother hkey
    have hsame : key = name := eq_of_beq hkey
    subst hsame
    rw [hunique other hother]
  rw [hfind, Option.map_some]

/-! ## Instances -/

mutual

/-- What a field holds. -/
inductive Content where
  | plain (value : Value)
  | enumerator (name : String)
  | array (items : List Content)
  | nested (held : Instance)

/-- An instance of a type: what the fields hold that have a value. -/
inductive Instance where
  | of (type : String) (transaction : Option UInt32) (members : String → Option Content)

end

/-! ## Parts of an encoding -/

def Object.header (object : Object) (transaction : Option UInt32) : List UInt8 :=
  match object.wireId with
  | some id => Wire.bigEndian 4 id.toNat ++ Wire.bigEndian 4 (transaction.getD 0).toNat
  | none => []

def Object.tagBytes (object : Object) : List UInt8 :=
  if object.isPolymorphic then Wire.bigEndian 4 object.kindTag.toNat else []

/-- Whether a bit belongs to a field that has a value. -/
def Object.isSet (object : Object) (members : String → Option Content) (bit : Nat) : Bool :=
  object.fields.any fun field => field.flagBit == some bit && (members field.name).isSome

def Object.flags (object : Object) (members : String → Option Content) : List UInt8 :=
  (List.range object.flagBytes).map fun index =>
    UInt8.ofNat (Nat.ofBits fun place : Fin 8 => object.isSet members (8 * index + place))

/-- The width of a scalar outside of the fields of an object, where only the token tells it. -/
def Token.width? : Token → Option Nat
  | .primitive kind => some kind.size
  | _ => none

/-- The bytes of a value that refers to no declaration; a scalar takes the given width. -/
def plainBytes? (width : Option Nat) : Token → Value → Option (List UInt8)
  | .primitive kind, value => do return Wire.bigEndian (← width) (← kind.code? value)
  | .text, .text value => some (Wire.bigEndian 4 value.utf8ByteSize ++ Text.utf8 value)
  | .binary length, .binary bytes =>
    some (bytes.take length ++ List.replicate (length - bytes.length) 0)
  | _, _ => none

mutual

/-- The bytes of an instance, by the contract of its type. -/
def Instance.bytes? (manifests : List Manifest) : Instance → Option (List UInt8)
  | .of type transaction members => do
    let object ← object? manifests type
    let parts ← object.fields.mapM fun field => memberBytes? manifests field (members field.name)
    return object.header transaction ++ object.tagBytes ++ object.flags members ++ parts.flatten

/-- A field without a value takes no bytes. -/
def memberBytes? (manifests : List Manifest) (field : Field) :
    Option Content → Option (List UInt8)
  | none => some []
  | some content => do
    content.bytes? manifests field.staticSize (← Token.read? field.type.toList)

/-- The bytes of what a field holds, by the token of its type. -/
def Content.bytes? (manifests : List Manifest) (width : Option Nat) (token : Token) :
    Content → Option (List UInt8)
  | .plain value => plainBytes? width token value
  | .enumerator name =>
    match token with
    | .reference target => do
      let type ← enum? manifests target
      return Wire.bigEndian 1 (← type.ordinal? name)
    | _ => none
  | .array items =>
    match token with
    | .array element => do
      return Wire.bigEndian 4 items.length ++ (← itemsBytes? manifests element items)
    | _ => none
  | .nested held =>
    match token with
    | .reference _ => held.bytes? manifests
    | _ => none

def itemsBytes? (manifests : List Manifest) (element : Token) :
    List Content → Option (List UInt8)
  | [] => some []
  | item :: rest => do
    return (← item.bytes? manifests element.width? element) ++
      (← itemsBytes? manifests element rest)

end

/-! ## Presence bits -/

theorem ofBits_testBit_byte (byte : UInt8) :
    UInt8.ofNat (Nat.ofBits fun place : Fin 8 => byte.toNat.testBit place) = byte := by
  rw [Nat.ofBits_testBit, Nat.mod_eq_of_lt byte.toNat_lt, UInt8.ofNat_toNat]

/-- Bytes are made of their bits. -/
theorem eq_map_bitAt (bytes : List UInt8) :
    bytes = (List.range bytes.length).map fun index =>
      UInt8.ofNat (Nat.ofBits fun place : Fin 8 => FlagBits.bitAt bytes (8 * index + place)) := by
  apply List.ext_getElem
  · simp
  · intro index hindex _
    have hbit (place : Fin 8) :
        FlagBits.bitAt bytes (8 * index + place) = bytes[index].toNat.testBit place := by
      have hbyte : (8 * index + place) / 8 = index := by omega
      have hplace : (8 * index + place) % 8 = place := by omega
      rw [FlagBits.bitAt, hbyte, hplace, List.getElem?_eq_getElem hindex]
    rw [List.getElem_map, List.getElem_range]
    simp only [hbit, ofBits_testBit_byte]

end Contract
end WireSchema
