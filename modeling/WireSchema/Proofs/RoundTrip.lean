import WireSchema.Proofs.Decoding
import WireSchema.Proofs.Estimate

/-!
# Reading images back

The image of a record is read as the record it carries, by whatever reads a record of its type, and
no byte of it is left.  The kind tag leads to the exact type of a nested record, and the presence
bits to the slots that are filled.
-/

namespace WireSchema

open Reading (Recovers Refuses)

/-- Nothing of the type refers to a payload. -/
def Graph.IsInner (graph : Graph) (type : FieldType) : Prop :=
  ∀ target, type.target? = some target → (graph.object target).isPayload = false

theorem presenceBits_cons (field : Field) (fields : List Field) (slot : Option Value)
    (slots : List (Option Value)) :
    presenceBits (field :: fields) (slot :: slots) =
      if field.isOptional then slot.isSome :: presenceBits fields slots
      else presenceBits fields slots := by
  unfold presenceBits
  rw [List.zip_cons_cons, List.filter_cons]
  split
  · rw [List.map_cons]
  · rfl

variable {schema : Schema}

/-- The kind tag that is written for a type selects that type again. -/
theorem Graph.recovers_readConcreteType (hgraph : schema.graph.Coherent) {id declared : ObjectId}
    (hisA : schema.graph.isA id declared = true) :
    Recovers (schema.graph.readConcreteType declared) (schema.graph.object id).kindTagBytes id := by
  unfold Graph.readConcreteType ObjectType.kindTagBytes
  rw [hgraph.hasKindTag_of_isA hisA]
  cases hfamily : (schema.graph.object declared).isPolymorphic with
  | false =>
      rw [hgraph.eq_of_isA id declared hisA hfamily]
      exact Reading.recovers_pure declared
  | true =>
      have htag := (Reading.recovers_uint32 (schema.graph.object id).kindTag).bind_pure
        (schema.graph.concreteType declared)
      rw [hgraph.concreteType_kindTag id declared hisA hfamily] at htag
      exact htag

/-! ## Slots -/

theorem FlagBits.Offers.cons {flags : FlagBits} {field : Field} {fields : List Field}
    {slot : Option Value} {slots : List (Option Value)}
    (hoffers : flags.Offers (presenceBits (field :: fields) (slot :: slots)))
    (hfilled : field.isOptional = true ∨ slot.isSome = true) :
    ∃ left, (if field.isOptional then flags.next else (true, flags)) = (slot.isSome, left) ∧
      left.Offers (presenceBits fields slots) := by
  rw [presenceBits_cons] at hoffers
  cases hoptional : field.isOptional with
  | true =>
      rw [hoptional, if_pos rfl] at hoffers
      obtain ⟨hbit, hrest⟩ := hoffers
      refine ⟨flags.next.2, ?_, hrest⟩
      rw [if_pos rfl, ← hbit]
  | false =>
      rw [hoptional, if_neg Bool.false_ne_true] at hoffers
      rcases hfilled with hfilled | hfilled
      · rw [hoptional] at hfilled
        cases hfilled
      · exact ⟨flags, by rw [if_neg Bool.false_ne_true, hfilled], hoffers⟩

theorem Graph.Coherent.flagBytes_of_forall₂ (hgraph : schema.graph.Coherent) {record : Record}
    {Accepts : Field → Option Value → Prop}
    (hslots : List.Forall₂ Accepts (record.typeIn schema).fields record.slots) :
    (record.typeIn schema).layout.flagBytes =
      flagBytes (presenceBits (record.typeIn schema).fields record.slots).length := by
  rw [length_presenceBits hslots, Record.typeIn, hgraph.flagBytes_eq]

theorem ObjectType.recovers_readBody (hgraph : schema.graph.Coherent)
    {read : FieldType → Reading Value} {record : Record} {body : List UInt8}
    {Accepts : Field → Option Value → Prop} {result : List (Option Value)}
    (hslots : List.Forall₂ Accepts (record.typeIn schema).fields record.slots)
    (hbody : ∀ flags : FlagBits,
      flags.Offers (presenceBits (record.typeIn schema).fields record.slots) →
        Recovers (slotsReading read flags (record.typeIn schema).fields) body result) :
    Recovers (EStateM.adaptExcept Interruption.cause ((record.typeIn schema).readBody read))
      ((FlagBits.ofBits (presenceBits (record.typeIn schema).fields record.slots)).bytes ++ body)
      result := by
  rw [ObjectType.readBody_eq, hgraph.flagBytes_of_forall₂ hslots]
  exact (FlagBits.recovers_read _).bind (hbody _ (FlagBits.offers_ofBits _))

/-- If the slots of an object are refused, then the object is. -/
theorem ObjectType.refuses_readBody (hgraph : schema.graph.Coherent)
    {read : FieldType → Reading Value} {record : Record} {body : List UInt8}
    {Accepts : Field → Option Value → Prop} {Causes : CodecError → Prop}
    (hslots : List.Forall₂ Accepts (record.typeIn schema).fields record.slots)
    (hbody : ∀ flags : FlagBits,
      flags.Offers (presenceBits (record.typeIn schema).fields record.slots) →
        Refuses (slotsReading read flags (record.typeIn schema).fields) body Causes) :
    Refuses (EStateM.adaptExcept Interruption.cause ((record.typeIn schema).readBody read))
      ((FlagBits.ofBits (presenceBits (record.typeIn schema).fields record.slots)).bytes ++ body)
      Causes := by
  rw [ObjectType.readBody_eq, hgraph.flagBytes_of_forall₂ hslots]
  exact (FlagBits.recovers_read _).refuses (hbody _ (FlagBits.offers_ofBits _))

theorem ObjectType.headerImage_of_not_hasHeader {type : ObjectType} {transaction : Option UInt32}
    {header : List UInt8} (hbare : type.layout.hasHeader = false)
    (hheader : type.headerImage transaction = .ok header) : header = [] := by
  rw [ObjectType.headerImage, hbare] at hheader
  cases hheader
  rfl

theorem Value.carried_primitive (kind : Primitive) (value : Value) :
    Value.carried schema (.primitive kind) value = value := by
  unfold Value.carried
  rfl

/-! ## Values and records

The induction is on the value.  The levels that are left bound those of the value, so that the
reading never comes to the end of them. -/

mutual

theorem Value.recovers_readValue (hgraph : schema.graph.Coherent) (levels : Nat) (owner : String)
    (field : Field) (type : FieldType) (value : Value) (data : List UInt8)
    (hinner : schema.graph.IsInner type) (htravels : value.Travels schema levels type)
    (hdata : Value.image schema owner field type value = .ok data) :
    Recovers (readValue schema.graph (schema.readObject levels) type) data
      (Value.carried schema type value) := by
  cases type with
  | primitive kind =>
      obtain ⟨code, hcode⟩ := Primitive.isSome_code?_of_admits htravels.admits
      rw [Value.image, hcode] at hdata
      cases hdata
      rw [Value.carried_primitive]
      exact Primitive.recovers_readPrimitive hcode htravels.whole
  | text =>
      cases value
      case text words =>
        rw [Value.image] at hdata
        cases hdata
        exact (Reading.recovers_text htravels.bounded.self).map Value.text
      all_goals cases htravels.admits
  | binary length =>
      cases value
      case binary bytes =>
        rw [Value.image] at hdata
        cases hdata
        have hbytes := (Reading.recovers_bytes (Writer.fitted bytes length)).map Value.binary
        rw [Writer.length_fitted] at hbytes
        exact hbytes
      all_goals cases htravels.admits
  | enum id =>
      cases value
      case ordinal ordinal =>
        rw [Value.image] at hdata
        cases hdata
        have hrange := of_decide_eq_true htravels.admits
        exact (EnumType.recovers_readOrdinal hrange).map Value.ordinal
      all_goals cases htravels.admits
  | object id =>
      cases value
      case record nested =>
        rw [Value.image] at hdata
        have hisA := (Bool.and_eq_true_iff.mp htravels.admits).2
        -- The record takes up one level, so the reading of it does not start at the limit.
        obtain ⟨below, rfl, hnested⟩ := htravels.exists_record
        have hrecord := Record.recovers_readObject hgraph below id nested data hisA (hinner id rfl)
          hnested hdata
        exact hrecord.map Value.record
      all_goals cases htravels.admits
  | array element =>
      cases value
      case array items =>
        rw [Value.image] at hdata
        obtain ⟨count, behind, hcount, hitems, rfl⟩ := Image.join_eq_ok hdata
        cases hcount
        have hitems := Value.recovers_itemsReading hgraph levels owner field element items behind
          hinner htravels.item hitems
        rw [readValue, Value.carried]
        refine (Reading.recovers_length htravels.bounded.self).bind ?_
        rw [readItems_eq]
        simp only [List.reverse_nil, List.nil_append, id_map']
        exact hitems.bind_pure Value.array
      all_goals cases htravels.admits

theorem Value.recovers_itemsReading (hgraph : schema.graph.Coherent) (levels : Nat)
    (owner : String) (field : Field) (element : FieldType) (items : List Value)
    (data : List UInt8) (hinner : schema.graph.IsInner element)
    (htravels : ∀ item ∈ items, item.Travels schema levels element)
    (hdata : Value.itemsImage schema owner field element items = .ok data) :
    Recovers (itemsReading (readValue schema.graph (schema.readObject levels) element)
      items.length) data (Value.carriedItems schema element items) := by
  match items with
  | [] =>
      rw [Value.itemsImage] at hdata
      cases hdata
      rw [Value.carriedItems]
      exact Reading.recovers_pure []
  | item :: rest =>
      rw [Value.itemsImage] at hdata
      obtain ⟨front, back, hfront, hback, rfl⟩ := Image.join_eq_ok hdata
      obtain ⟨hhead, htail⟩ := List.forall_mem_cons.mp htravels
      have hitem := Value.recovers_readValue hgraph levels owner field element item front hinner
        hhead hfront
      have hrest := Value.recovers_itemsReading hgraph levels owner field element rest back hinner
        htail hback
      rw [Value.carriedItems, List.length_cons, itemsReading]
      exact hitem.bind (hrest.bind_pure _)

theorem Record.recovers_slotsReading (hgraph : schema.graph.Coherent) (levels : Nat)
    (owner : String) (fields : List Field) (slots : List (Option Value)) (flags : FlagBits)
    (data : List UInt8) (hinner : ∀ field ∈ fields, schema.graph.IsInner field.type)
    (hslots : List.Forall₂ (Field.SlotHolds (Value.Travels schema levels)) fields slots)
    (hoffers : flags.Offers (presenceBits fields slots))
    (hdata : Record.slotsImage schema owner fields slots = .ok data) :
    Recovers (slotsReading (readValue schema.graph (schema.readObject levels)) flags fields) data
      (Record.carriedSlots schema fields slots) := by
  match slots, fields, hslots with
  | [], [], .nil =>
      rw [Record.slotsImage] at hdata
      cases hdata
      rw [Record.carriedSlots]
      exact Reading.recovers_pure []
  | some value :: rest, field :: fields, .cons hslot hrest =>
      rw [Record.slotsImage] at hdata
      obtain ⟨front, back, hfront, hback, rfl⟩ := Image.join_eq_ok hdata
      obtain ⟨left, htaken, hoffers'⟩ := hoffers.cons (.inr rfl)
      obtain ⟨hinner, hinner'⟩ := List.forall_mem_cons.mp hinner
      have hvalue := Value.recovers_readValue hgraph levels owner field field.type value front
        hinner (hslot value rfl) hfront
      have hmore := Record.recovers_slotsReading hgraph levels owner fields rest left back hinner'
        hrest hoffers' hback
      rw [slotsReading_of_present htaken, Record.carriedSlots]
      exact hvalue.bind (hmore.bind_pure _)
  | none :: rest, field :: fields, .cons hslot hrest =>
      rw [Record.slotsImage] at hdata
      cases hoptional : field.isOptional with
      | false =>
          rw [hoptional] at hdata
          cases hdata
      | true =>
          rw [hoptional, if_pos rfl] at hdata
          obtain ⟨left, htaken, hoffers'⟩ := hoffers.cons (.inl hoptional)
          have hmore := Record.recovers_slotsReading hgraph levels owner fields rest left data
            (List.forall_mem_cons.mp hinner).2 hrest hoffers' hdata
          rw [slotsReading_of_absent htaken, Record.carriedSlots]
          exact hmore.map _

/-- A record is read back by whatever reads a declared type that its type is or inherits from. -/
theorem Record.recovers_readObject (hgraph : schema.graph.Coherent) (levels : Nat)
    (declared : ObjectId) (record : Record) (data : List UInt8)
    (hisA : schema.graph.isA record.type declared = true)
    (hpayload : (schema.graph.object declared).isPayload = false)
    (htravels : record.Travels schema levels) (hdata : record.image schema = .ok data) :
    Recovers (schema.readObject (levels + 1) declared) data
      { record.carried schema with transaction := none } := by
  match record with
  | ⟨number, id, slots, transaction⟩ =>
    obtain ⟨header, body, hheader, hbody, rfl⟩ := Record.exists_image_parts hdata
    have hslots := ObjectType.recovers_readBody hgraph htravels.slots fun flags hoffers =>
      Record.recovers_slotsReading hgraph levels (schema.graph.object id).name
        (schema.graph.object id).fields slots flags body (hgraph.isPayload_target id)
        htravels.slots hoffers hbody
    have hnumber : number = schema.number := htravels.typed.self.schema_eq
    have hbare : header = [] :=
      ObjectType.headerImage_of_not_hasHeader (hgraph.not_hasHeader_of_isA hisA hpayload) hheader
    rw [hbare, List.nil_append, Schema.readObject, Record.carried, hnumber]
    exact (Graph.recovers_readConcreteType hgraph hisA).bind (hslots.bind_pure _)

end

theorem Record.recovers_readBody (hgraph : schema.graph.Coherent) {levels : Nat}
    {record : Record} {body : List UInt8} (htravels : record.Travels schema levels)
    (hbody : Record.slotsImage schema (record.typeIn schema).name (record.typeIn schema).fields
      record.slots = .ok body) :
    Recovers
      (EStateM.adaptExcept Interruption.cause ((record.typeIn schema).readBody
        (readValue schema.graph (schema.readObject levels))))
      ((FlagBits.ofBits (presenceBits (record.typeIn schema).fields record.slots)).bytes ++ body)
      (record.carried schema).slots := by
  refine ObjectType.recovers_readBody hgraph htravels.slots fun flags hoffers => ?_
  obtain ⟨number, id, slots, transaction⟩ := record
  exact Record.recovers_slotsReading hgraph levels (schema.graph.object id).name
    (schema.graph.object id).fields slots flags body (hgraph.isPayload_target id) htravels.slots
    hoffers hbody

end WireSchema
