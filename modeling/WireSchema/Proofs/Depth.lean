import WireSchema.Proofs.Unpacking

/-!
# Records nested too deep

Writing goes down to any level of a record, and reading stops at a limit.  What is packed of a
record that goes deeper is refused when it is unpacked, at the first object beyond the limit; all
else that is packed is unpacked.
-/

namespace WireSchema

open Reading (Recovers)

variable {schema : Schema}

/-! ## Readings that come to the limit -/

namespace Reading

/-- Bytes are refused for the depth of the objects in them. -/
def Exceeds {α : Type} (action : Reading α) (data : List UInt8) : Prop :=
  Refuses action data fun fault => ∃ found, fault = .depthExceeded found depthLimit

end Reading

open Reading (Exceeds)

theorem Schema.exceeds_readObject_zero (declared : ObjectId) (data : List UInt8) :
    Exceeds (schema.readObject 0 declared) data :=
  fun offset rest => ⟨_, ⟨offset, data ++ rest⟩, ⟨offset, rfl⟩, rfl⟩

/-! ## Values and records

The induction is on the value.  Of items and slots, those before the first deep one are recovered,
and that one is refused. -/

mutual

theorem Value.exceeds_readValue (hgraph : schema.graph.Coherent) (levels : Nat) (owner : String)
    (field : Field) (type : FieldType) (value : Value) (data : List UInt8)
    (hinner : schema.graph.IsInner type) (hsuits : value.Suits schema type)
    (hbounded : value.Bounded) (hdeep : levels < value.nesting)
    (hdata : Value.image schema owner field type value = .ok data) :
    Exceeds (readValue schema.graph (schema.readObject levels) type) data := by
  match value with
  | .array items =>
      obtain ⟨element, rfl⟩ := Schema.exists_array_of_admits hsuits.admits
      rw [Value.image] at hdata
      obtain ⟨count, behind, hcount, hitems, rfl⟩ := Image.join_eq_ok hdata
      cases hcount
      rw [Value.nesting] at hdeep
      have hexceeds := Value.exceeds_itemsReading hgraph levels owner field element items behind
        hinner hsuits.item (fun item hitem => hbounded.item hitem) hdeep hitems
      rw [readValue]
      refine (Reading.recovers_length hbounded.self).refuses ?_
      rw [readItems_eq]
      exact (hexceeds.map _).bind_self _
  | .record nested =>
      obtain ⟨id, rfl, -, hisA⟩ := Schema.exists_object_of_admits hsuits.admits
      rw [Value.image] at hdata
      rw [Value.nesting] at hdeep
      rw [readValue]
      cases levels with
      | zero => exact (Schema.exceeds_readObject_zero id data).map _
      | succ below =>
          have hbelow : below < nested.nesting := Nat.lt_of_succ_lt_succ hdeep
          exact (Record.exceeds_readObject hgraph below id nested data hisA (hinner id rfl)
            hsuits.typed hbounded hbelow hdata).map _
  | .bool _ | .int8 _ | .uint8 _ | .int16 _ | .uint16 _ | .int32 _ | .uint32 _ | .int64 _
  | .uint64 _ | .float _ | .double _ | .datetime _ | .text _ | .ordinal _ | .binary _ =>
      exact absurd hdeep (Nat.not_lt_zero levels)

theorem Value.exceeds_itemsReading (hgraph : schema.graph.Coherent) (levels : Nat)
    (owner : String) (field : Field) (element : FieldType) (items : List Value)
    (data : List UInt8) (hinner : schema.graph.IsInner element)
    (hsuits : ∀ item ∈ items, item.Suits schema element)
    (hbounded : ∀ item ∈ items, item.Bounded) (hdeep : levels < Value.itemsNesting items)
    (hdata : Value.itemsImage schema owner field element items = .ok data) :
    Exceeds (itemsReading (readValue schema.graph (schema.readObject levels) element)
      items.length) data := by
  match items with
  | [] => exact absurd hdeep (Nat.not_lt_zero levels)
  | item :: rest =>
      rw [Value.itemsImage] at hdata
      obtain ⟨front, back, hfront, hback, rfl⟩ := Image.join_eq_ok hdata
      obtain ⟨hsuitsItem, hsuitsRest⟩ := List.forall_mem_cons.mp hsuits
      obtain ⟨hboundedItem, hboundedRest⟩ := List.forall_mem_cons.mp hbounded
      rw [List.length_cons, itemsReading]
      by_cases hitem : item.nesting ≤ levels
      · have hrest : levels < Value.itemsNesting rest := by
          rw [Value.itemsNesting] at hdeep
          omega
        have hrecovers := Value.recovers_readValue hgraph levels owner field element item front
          hinner ⟨hsuitsItem, hboundedItem, hitem⟩ hfront
        have hexceeds := Value.exceeds_itemsReading hgraph levels owner field element rest back
          hinner hsuitsRest hboundedRest hrest hback
        exact hrecovers.refuses (hexceeds.bind_self _)
      · have hexceeds := Value.exceeds_readValue hgraph levels owner field element item front
          hinner hsuitsItem hboundedItem (Nat.lt_of_not_le hitem) hfront
        exact hexceeds.bind _ back

theorem Record.exceeds_slotsReading (hgraph : schema.graph.Coherent) (levels : Nat)
    (owner : String) (fields : List Field) (slots : List (Option Value)) (flags : FlagBits)
    (data : List UInt8) (hinner : ∀ field ∈ fields, schema.graph.IsInner field.type)
    (hslots : List.Forall₂ (Field.SlotHolds (Value.Suits schema)) fields slots)
    (hbounded : ∀ held, some held ∈ slots → held.Bounded)
    (hoffers : flags.Offers (presenceBits fields slots))
    (hdeep : levels < Record.slotsNesting slots)
    (hdata : Record.slotsImage schema owner fields slots = .ok data) :
    Exceeds (slotsReading (readValue schema.graph (schema.readObject levels)) flags fields)
      data := by
  match slots, fields, hslots with
  | [], [], .nil => exact absurd hdeep (Nat.not_lt_zero levels)
  | some value :: rest, field :: fields, .cons hslot hrest =>
      rw [Record.slotsImage] at hdata
      obtain ⟨front, back, hfront, hback, rfl⟩ := Image.join_eq_ok hdata
      obtain ⟨left, htaken, hoffers'⟩ := hoffers.cons (.inr rfl)
      obtain ⟨hinnerField, hinnerRest⟩ := List.forall_mem_cons.mp hinner
      have hboundedValue := hbounded value List.mem_cons_self
      rw [slotsReading_of_present htaken]
      by_cases hvalue : value.nesting ≤ levels
      · have hmore : levels < Record.slotsNesting rest := by
          rw [Record.slotsNesting] at hdeep
          omega
        have hrecovers := Value.recovers_readValue hgraph levels owner field field.type value front
          hinnerField ⟨hslot value rfl, hboundedValue, hvalue⟩ hfront
        have hexceeds := Record.exceeds_slotsReading hgraph levels owner fields rest left back
          hinnerRest hrest (fun held hheld => hbounded held (List.mem_cons_of_mem _ hheld))
          hoffers' hmore hback
        exact hrecovers.refuses (hexceeds.bind_self _)
      · have hexceeds := Value.exceeds_readValue hgraph levels owner field field.type value front
          hinnerField (hslot value rfl) hboundedValue (Nat.lt_of_not_le hvalue) hfront
        exact hexceeds.bind _ back
  | none :: rest, field :: fields, .cons hslot hrest =>
      rw [Record.slotsImage] at hdata
      rw [Record.slotsNesting] at hdeep
      cases hoptional : field.isOptional with
      | false =>
          rw [hoptional] at hdata
          cases hdata
      | true =>
          rw [hoptional, if_pos rfl] at hdata
          obtain ⟨left, htaken, hoffers'⟩ := hoffers.cons (.inl hoptional)
          have hexceeds := Record.exceeds_slotsReading hgraph levels owner fields rest left data
            (List.forall_mem_cons.mp hinner).2 hrest
            (fun held hheld => hbounded held (List.mem_cons_of_mem _ hheld)) hoffers' hdeep hdata
          rw [slotsReading_of_absent htaken]
          exact hexceeds.map _

theorem Record.exceeds_readObject (hgraph : schema.graph.Coherent) (levels : Nat)
    (declared : ObjectId) (record : Record) (data : List UInt8)
    (hisA : schema.graph.isA record.type declared = true)
    (hpayload : (schema.graph.object declared).isPayload = false)
    (htyped : record.WellTyped schema) (hbounded : record.Bounded)
    (hdeep : levels < record.nesting) (hdata : record.image schema = .ok data) :
    Exceeds (schema.readObject (levels + 1) declared) data := by
  match record with
  | ⟨number, id, slots, transaction⟩ =>
    obtain ⟨header, body, hheader, hbody, rfl⟩ := Record.exists_image_parts hdata
    rw [Record.nesting] at hdeep
    have hslots := ObjectType.refuses_readBody hgraph htyped.suits fun flags hoffers =>
      Record.exceeds_slotsReading hgraph levels (schema.graph.object id).name
        (schema.graph.object id).fields slots flags body (hgraph.isPayload_target id) htyped.suits
        (fun held hheld => Value.Throughout.slot hbounded hheld) hoffers hdeep hbody
    have hbare : header = [] :=
      ObjectType.headerImage_of_not_hasHeader (hgraph.not_hasHeader_of_isA hisA hpayload) hheader
    rw [hbare, List.nil_append, Schema.readObject]
    refine (Graph.recovers_readConcreteType hgraph hisA).refuses ?_
    exact hslots.bind_self _

end

namespace Registry

end Registry

/-! ## A chain of records

A node may hold another one, so that a chain of any length can be built, and a message holds the
first of them. -/

namespace Sample

def chainDocuments : List Document :=
  [⟨"chain", .object [
    ("node", .object [("?next", .string "@node")]),
    ("walk", .array [.object [("head", .string "@node")]])]⟩]

def chainSchema : Schema := schemaOf 3 chainDocuments

theorem compile_chainDocuments : Graph.compile chainDocuments = .ok chainSchema.graph :=
  compile_schemaOf 3 (by decide +kernel)

/-- A node with a number of nodes below it. -/
def chain : Nat → Record
  | 0 => .empty chainSchema ⟨0⟩
  | below + 1 => ⟨3, ⟨0⟩, [some (.record (chain below))], none⟩

end Sample

end WireSchema
