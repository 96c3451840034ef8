import WireSchema.Proofs.Estimate

/-!
# Completeness

The image of a record whose values fit is complete exactly if the record is.  Otherwise a required
field is named that has no value, whether in the record itself or in one nested in it.
-/

namespace WireSchema

/-- An image is complete if a condition holds, and names a missing field if it does not. -/
def Image.Tells (image : Image) (complete : Prop) : Prop :=
  (∃ data, image = .ok data ∧ complete) ∨
    ∃ owner name, image = .error (.missingField owner name) ∧ ¬ complete

namespace Image

variable {first second image : Image} {complete more : Prop}

theorem tells_ok (data : List UInt8) (hcomplete : complete) : Tells (.ok data) complete :=
  .inl ⟨data, rfl, hcomplete⟩

theorem Tells.congr (htells : Tells image complete) (hiff : complete ↔ more) :
    Tells image more := by
  rcases htells with ⟨data, himage, hcomplete⟩ | ⟨owner, name, himage, hlacks⟩
  · exact .inl ⟨data, himage, hiff.mp hcomplete⟩
  · exact .inr ⟨owner, name, himage, fun hmore => hlacks (hiff.mpr hmore)⟩

theorem Tells.join (hfirst : Tells first complete) (hsecond : Tells second more) :
    Tells (Image.join first second) (complete ∧ more) := by
  rcases hfirst with ⟨front, rfl, hcomplete⟩ | ⟨owner, name, rfl, hlacks⟩
  · rcases hsecond with ⟨back, rfl, hmore⟩ | ⟨owner, name, rfl, hlacks⟩
    · exact .inl ⟨front ++ back, rfl, hcomplete, hmore⟩
    · exact .inr ⟨owner, name, rfl, fun hboth => hlacks hboth.2⟩
  · exact .inr ⟨owner, name, rfl, fun hboth => hlacks hboth.1⟩

theorem Tells.after (data : List UInt8) (htells : Tells image complete) :
    Tells (Image.join (.ok data) image) complete :=
  ((tells_ok data trivial).join htells).congr (by rw [true_and])

theorem Tells.exists_data (htells : Tells image complete) (hcomplete : complete) :
    ∃ data, image = .ok data := by
  rcases htells with ⟨data, himage, -⟩ | ⟨-, -, -, hlacks⟩
  · exact ⟨data, himage⟩
  · exact absurd hcomplete hlacks

theorem Tells.exists_missing (htells : Tells image complete) (hlacks : ¬ complete) :
    ∃ owner name, image = .error (.missingField owner name) := by
  rcases htells with ⟨-, -, hcomplete⟩ | ⟨owner, name, himage, -⟩
  · exact absurd hcomplete hlacks
  · exact ⟨owner, name, himage⟩

end Image

variable {schema : Schema}

theorem ObjectType.exists_headerImage (hgraph : schema.graph.Coherent) (id : ObjectId)
    (transaction : Option UInt32) :
    ∃ header, (schema.graph.object id).headerImage transaction = .ok header := by
  obtain ⟨header, hheader, -⟩ :=
    Image.length_eq_ok (ObjectType.length_headerImage hgraph id transaction)
  exact ⟨header, hheader⟩

/-- No required slot is empty, and every value is complete. -/
def Record.SlotsComplete (schema : Schema) (fields : List Field) (slots : List (Option Value)) :
    Prop :=
  (∀ entry ∈ fields.zip slots, entry.1.isOptional = true ∨ entry.2.isSome = true) ∧
    ∀ held, some held ∈ slots → held.Complete schema

theorem Record.complete_iff (record : Record) :
    record.Complete schema ↔
      Record.SlotsComplete schema (record.typeIn schema).fields record.slots := by
  constructor
  · intro hcomplete
    exact ⟨hcomplete.self, fun held hheld => hcomplete.slot hheld⟩
  · rintro ⟨hfilled, hslots⟩
    exact Value.throughout_record hfilled hslots

theorem Value.complete_array_iff {items : List Value} :
    (Value.array items).Complete schema ↔ ∀ item ∈ items, item.Complete schema := by
  constructor
  · intro hcomplete item hitem
    exact hcomplete.item hitem
  · intro hitems
    exact Value.throughout_array trivial hitems

theorem Record.slotsComplete_some {field : Field} {fields : List Field} {value : Value}
    {rest : List (Option Value)} :
    Record.SlotsComplete schema (field :: fields) (some value :: rest) ↔
      value.Complete schema ∧ Record.SlotsComplete schema fields rest := by
  simp [SlotsComplete, and_left_comm]

theorem Record.slotsComplete_none {field : Field} {fields : List Field}
    {rest : List (Option Value)} :
    Record.SlotsComplete schema (field :: fields) (none :: rest) ↔
      field.isOptional = true ∧ Record.SlotsComplete schema fields rest := by
  simp [SlotsComplete, and_assoc]

mutual

theorem Record.image_tells (hgraph : schema.graph.Coherent) (record : Record)
    (htyped : record.WellTyped schema) :
    (record.image schema).Tells (record.Complete schema) := by
  obtain ⟨number, id, slots, transaction⟩ := record
  have hslots := Record.slotsImage_tells hgraph (schema.graph.object id).name
    (schema.graph.object id).fields slots htyped.suits
  obtain ⟨header, hheader⟩ := ObjectType.exists_headerImage hgraph id transaction
  have hcomplete :
      Record.SlotsComplete schema (schema.graph.object id).fields slots ↔
        (Record.mk number id slots transaction).Complete schema :=
    (Record.complete_iff ⟨number, id, slots, transaction⟩).symm
  rw [Record.image, hheader]
  exact (((hslots.after _).after _).after _).congr hcomplete

theorem Record.slotsImage_tells (hgraph : schema.graph.Coherent) (owner : String)
    (fields : List Field) (slots : List (Option Value))
    (hslots : List.Forall₂ (Field.SlotHolds (Value.Suits schema)) fields slots) :
    (Record.slotsImage schema owner fields slots).Tells
      (Record.SlotsComplete schema fields slots) := by
  match slots, fields, hslots with
  | [], [], .nil =>
      rw [Record.slotsImage]
      exact Image.tells_ok [] ⟨by simp, by simp⟩
  | some value :: rest, field :: fields, .cons hslot hrest =>
      have hvalue := Value.image_tells hgraph owner field field.type value (hslot value rfl)
      have hmore := Record.slotsImage_tells hgraph owner fields rest hrest
      rw [Record.slotsImage]
      exact (hvalue.join hmore).congr Record.slotsComplete_some.symm
  | none :: rest, field :: fields, .cons hslot hrest =>
      have hmore := Record.slotsImage_tells hgraph owner fields rest hrest
      rw [Record.slotsImage]
      cases hoptional : field.isOptional with
      | false =>
          refine .inr ⟨owner, field.name, rfl, fun hcomplete => ?_⟩
          have hfilled := (Record.slotsComplete_none.mp hcomplete).1
          rw [hoptional] at hfilled
          cases hfilled
      | true =>
          refine hmore.congr ?_
          rw [Record.slotsComplete_none, hoptional, eq_self, true_and]

theorem Value.image_tells (hgraph : schema.graph.Coherent) (owner : String) (field : Field)
    (type : FieldType) (value : Value) (hsuits : value.Suits schema type) :
    (Value.image schema owner field type value).Tells (value.Complete schema) := by
  cases type with
  | primitive kind =>
      obtain ⟨data, hdata, -⟩ := Value.image_of_staticSize? owner field rfl hsuits.admits
      rw [hdata]
      refine Image.tells_ok data ?_
      have hscalar := (Primitive.isScalar_of_admits hsuits.admits).1
      exact Value.throughout_scalar hscalar (Value.onRecords_of_isScalar hscalar)
  | binary size =>
      cases value
      case binary bytes =>
        rw [Value.image]
        exact Image.tells_ok _ (Value.throughout_scalar trivial trivial)
      all_goals cases hsuits.admits
  | enum id =>
      cases value
      case ordinal ordinal =>
        rw [Value.image]
        exact Image.tells_ok _ (Value.throughout_scalar trivial trivial)
      all_goals cases hsuits.admits
  | text =>
      cases value
      case text words =>
        rw [Value.image]
        exact Image.tells_ok _ (Value.throughout_scalar trivial trivial)
      all_goals cases hsuits.admits
  | object id =>
      cases value
      case record nested =>
        rw [Value.image]
        exact Record.image_tells hgraph nested hsuits.typed
      all_goals cases hsuits.admits
  | array element =>
      cases value
      case array items =>
        have hitems := Value.itemsImage_tells hgraph owner field element items hsuits.item
        rw [Value.image]
        exact (hitems.after _).congr Value.complete_array_iff.symm
      all_goals cases hsuits.admits

theorem Value.itemsImage_tells (hgraph : schema.graph.Coherent) (owner : String) (field : Field)
    (element : FieldType) (items : List Value)
    (hsuits : ∀ item ∈ items, item.Suits schema element) :
    (Value.itemsImage schema owner field element items).Tells
      (∀ item ∈ items, item.Complete schema) := by
  match items with
  | [] =>
      rw [Value.itemsImage]
      exact Image.tells_ok [] (fun item hitem => absurd hitem List.not_mem_nil)
  | item :: rest =>
      obtain ⟨hhead, htail⟩ := List.forall_mem_cons.mp hsuits
      have hitem := Value.image_tells hgraph owner field element item hhead
      have hrest := Value.itemsImage_tells hgraph owner field element rest htail
      rw [Value.itemsImage]
      exact (hitem.join hrest).congr List.forall_mem_cons.symm

end

end WireSchema
