import WireSchema.Proofs.Enumerations
import WireSchema.Proofs.Surroundings

/-!
# Names and ordinals of enums

The value of an enum is known by its name, and by a byte, its ordinal.  The names of the values are
different and there are at most 256 of them, so that names and ordinals determine each other: in the
graph, in the contracts, in the slot of a field and on the wire.
-/

namespace WireSchema

open Reading (Recovers Refuses)

variable {schema : Schema}

/-! ## Names and bytes -/

/-- The names of an enum and the bytes below their number determine each other. -/
structure EnumType.Ordered (type : EnumType) : Prop where
  length_pos : 0 < type.values.length
  length_le : type.values.length ≤ 256
  ordinal_iff : ∀ name ordinal,
    type.ordinal? name = some ordinal ↔ type.value? ordinal = some name
  exists_ordinal_iff : ∀ name, (∃ ordinal, type.ordinal? name = some ordinal) ↔ name ∈ type.values
  exists_value_iff : ∀ ordinal : UInt8,
    (∃ name, type.value? ordinal = some name) ↔ ordinal.toNat < type.values.length

namespace EnumType

variable {type : EnumType}

theorem exists_value?_iff (ordinal : UInt8) :
    (∃ name, type.value? ordinal = some name) ↔ ordinal.toNat < type.values.length := by
  rw [value?, ← Option.isSome_iff_exists, isSome_getElem?]

theorem ordinal?_eq_some_iff (hnodup : type.values.Nodup) {name : String} {ordinal : UInt8} :
    type.ordinal? name = some ordinal ↔ type.value? ordinal = some name := by
  have hplace (index : Nat) : type.values.findIdx? (· == name) = some index ↔
      type.values[index]? = some name := by
    rw [List.findIdx?_eq_some_iff_getElem]
    constructor
    · rintro ⟨hlt, hname, -⟩
      rw [List.getElem?_eq_getElem hlt, eq_of_beq hname]
    · intro hname
      obtain ⟨hlt, hsame⟩ := List.getElem?_eq_some_iff.mp hname
      refine ⟨hlt, beq_iff_eq.mpr hsame, fun other hother hequal => ?_⟩
      have hother' := hnodup.getElem_inj_iff.mp ((eq_of_beq hequal).trans hsame.symm)
      omega
  rw [ordinal?, Option.bind_eq_some_iff, value?]
  constructor
  · rintro ⟨index, hindex, hordinal⟩
    split at hordinal
    next hlt =>
      rw [← Option.some.inj hordinal, UInt8.toNat_ofNat_of_lt' hlt]
      exact (hplace index).mp hindex
    next => cases hordinal
  · intro hname
    refine ⟨ordinal.toNat, (hplace _).mpr hname, ?_⟩
    rw [if_pos ordinal.toNat_lt, UInt8.ofNat_toNat]

theorem exists_ordinal?_iff (hlength : type.values.length ≤ 256) (hnodup : type.values.Nodup)
    {name : String} : (∃ ordinal, type.ordinal? name = some ordinal) ↔ name ∈ type.values := by
  simp only [ordinal?_eq_some_iff hnodup, value?]
  rw [List.mem_iff_getElem?]
  constructor
  · rintro ⟨ordinal, hname⟩
    exact ⟨ordinal.toNat, hname⟩
  · rintro ⟨index, hname⟩
    have hlt : index < 256 :=
      Nat.lt_of_lt_of_le (List.getElem?_eq_some_iff.mp hname).1 hlength
    refine ⟨UInt8.ofNat index, ?_⟩
    rw [UInt8.toNat_ofNat_of_lt' hlt, hname]

theorem DeclaredBy.ordered {document : Document} {rows : List String}
    (hdeclared : type.DeclaredBy document rows) : type.Ordered := by
  have hvalues : type.values = rows.map (Naming.identifier .field) := hdeclared.lists.values_eq
  have hlength : type.values.length ≤ 256 := by
    rw [hvalues, List.length_map]
    exact hdeclared.lists.length_le
  have hnodup : type.values.Nodup := by
    rw [hvalues]
    exact hdeclared.lists.distinguished.nodup
  refine ⟨?_, hlength, fun _ _ => ordinal?_eq_some_iff hnodup,
    fun _ => exists_ordinal?_iff hlength hnodup, exists_value?_iff⟩
  rw [hvalues, List.length_map]
  exact List.length_pos_iff.mpr hdeclared.lists.rows_ne

end EnumType

/-! ## Contracts -/

/-- The values that a contract lists for an enum: all of them in their order, and each with its
ordinal. -/
structure Contract.Enum.Tabulates (type : EnumType) (listed : Contract.Enum) : Prop where
  names_eq : listed.values.map (·.name) = type.values
  mem_iff : ∀ name ordinal, ⟨name, ordinal⟩ ∈ listed.values ↔
    ∃ byte, type.ordinal? name = some byte ∧ byte.toNat = ordinal

theorem Contract.tabulates_ofEnum {type : EnumType} (hordered : type.Ordered) :
    (ofEnum type).Tabulates type := by
  have hvalues := values_ofEnum hordered.length_le
  constructor
  · rw [hvalues, List.map_map]
    exact List.zipIdx_map_fst 0 type.values
  · intro name ordinal
    rw [hvalues, List.mem_map]
    constructor
    · rintro ⟨⟨value, place⟩, hentry, hsame⟩
      cases hsame
      have hname := List.mem_zipIdx_iff_getElem?.mp hentry
      have hlt : place < 256 :=
        Nat.lt_of_lt_of_le (List.getElem?_eq_some_iff.mp hname).1 hordered.length_le
      have hplace := UInt8.toNat_ofNat_of_lt' hlt
      refine ⟨UInt8.ofNat place, (hordered.ordinal_iff _ _).mpr ?_, hplace⟩
      rw [EnumType.value?, hplace]
      exact hname
    · rintro ⟨byte, hbyte, rfl⟩
      refine ⟨(name, byte.toNat), List.mem_zipIdx_iff_getElem?.mpr ?_, rfl⟩
      exact (hordered.ordinal_iff _ _).mp hbyte

/-! ## Drafts -/

theorem ObjectType.field?_of_getElem? {type : ObjectType} (hdistinct : NamesDistinct type.fields)
    {index : Nat} {field : Field} (hfield : type.fields[index]? = some field) :
    type.field? field.name = some field := by
  unfold ObjectType.field?
  apply Contract.find?_eq_some_of_unique (List.mem_of_getElem? hfield)
  · exact beq_self_eq_true field.name
  intro other hother hname
  exact List.inj_on_of_nodup_map hdistinct hother (List.mem_of_getElem? hfield) (eq_of_beq hname)

/-- A field of an enum type. -/
structure ObjectType.HasEnum (object : ObjectType) (index : Nat) (field : Field) (id : EnumId) :
    Prop where
  distinct : NamesDistinct object.fields
  field_eq : object.fields[index]? = some field
  type_eq : field.type = .enum id

theorem ObjectType.HasEnum.fieldAt_type {record : Record} {index : Nat} {field : Field}
    {id : EnumId} (henum : (record.typeIn schema).HasEnum index field id) :
    (record.fieldAt schema index).type = .enum id := by
  rw [Record.fieldAt_eq henum.field_eq, henum.type_eq]

section Fields

variable {record : Record} {index : Nat} {field : Field} {id : EnumId}
  (henum : (record.typeIn schema).HasEnum index field id)

include henum

theorem Record.enumValue?_eq (ordinal : UInt8)
    (hslot : record.valueAt? index = some (.ordinal ordinal)) :
    record.enumValue? schema field.name = (schema.graph.enum id).value? ordinal := by
  have hindex := ObjectType.fieldIndex?_of_getElem? henum.distinct henum.field_eq
  unfold Record.enumValue?
  rw [hindex, Option.bind_eq_bind, Option.bind_some, hslot, henum.fieldAt_type]
  rfl

/-- An enum field is set to the values of the enum and to nothing else. -/
theorem Draft.setEnum_eq_ok_iff (hordered : (schema.graph.enum id).Ordered) {name : String}
    {changed : Draft} :
    (Draft.mk record).setEnum schema field.name name = .ok changed ↔
      ∃ ordinal, (schema.graph.enum id).ordinal? name = some ordinal ∧
        changed = ⟨record.withSlot index (some (.ordinal ordinal))⟩ := by
  have hfield := ObjectType.field?_of_getElem? henum.distinct henum.field_eq
  have hindex := ObjectType.fieldIndex?_of_getElem? henum.distinct henum.field_eq
  simp only [Draft.setEnum, hfield, henum.type_eq]
  cases hordinal : (schema.graph.enum id).ordinal? name with
  | none => simp
  | some ordinal =>
      have hvalue := (hordered.ordinal_iff name ordinal).mp hordinal
      have hlt := (hordered.exists_value_iff ordinal).mp ⟨name, hvalue⟩
      have hadmits : schema.admits (record.fieldAt schema index).type
          (Value.ordinal ordinal).truncated = true := by
        rw [henum.fieldAt_type]
        exact decide_eq_true hlt
      have hset := Record.set_of_admits hindex hadmits
      simp only [Draft.set, hset, Except.map, Except.ok.injEq, Option.some.injEq]
      constructor
      · rintro rfl
        exact ⟨ordinal, rfl, rfl⟩
      · rintro ⟨other, rfl, rfl⟩
        rfl

end Fields

/-! ## Reading -/

theorem EnumType.refuses_readOrdinal {type : EnumType} {ordinal : UInt8}
    (hrange : type.values.length ≤ ordinal.toNat) :
    Refuses type.readOrdinal (Wire.bigEndian 1 ordinal.toNat)
      (· = .ordinalOutOfRange type.name ordinal) := by
  rw [← List.append_nil (Wire.bigEndian 1 ordinal.toNat)]
  refine (Reading.recovers_uint8 ordinal).refuses ?_
  rw [if_neg (Nat.not_lt.mpr hrange)]
  exact fun offset rest => ⟨_, _, rfl, rfl⟩

theorem Wire.bigEndian_toNat (byte : UInt8) : bigEndian 1 byte.toNat = [byte] := by
  simp [bigEndian, capacity]

/-! ## Enum fields -/

section Fields

variable {record : Record} {index : Nat} {field : Field} {id : EnumId}
  (henum : (record.typeIn schema).HasEnum index field id)

include henum

theorem Record.getElem?_withSlot (htyped : record.WellTyped schema) (slot : Option Value) :
    (record.withSlot index slot).slots[index]? = some slot := by
  have hlt := (List.getElem?_eq_some_iff.mp henum.field_eq).1
  rw [htyped.self.slots.length_eq] at hlt
  rw [Record.slots_withSlot, List.getElem?_set_self hlt]

theorem Value.Sendable.withOrdinal (hrecord : (Value.record record).Sendable schema)
    {byte : UInt8} (hrange : byte.toNat < (schema.graph.enum id).values.length) :
    (Value.record (record.withSlot index (some (.ordinal byte)))).Sendable schema := by
  refine hrecord.withSlot (.inr rfl) (fun value hvalue => ?_) (fun value hvalue => ?_)
  · cases hvalue
    rw [henum.fieldAt_type]
    exact ⟨decide_eq_true hrange, rfl⟩
  · cases hvalue
    exact ⟨Value.throughout_scalar trivial trivial, Value.throughout_scalar trivial trivial,
      Value.throughout_scalar trivial trivial⟩

theorem Record.image_withOrdinal {front back : List UInt8}
    (hsurrounds : record.Surrounds schema index field front back) (byte : UInt8) :
    (record.withSlot index (some (.ordinal byte))).image schema = .ok (front ++ byte :: back) := by
  have hdata : Value.image schema (record.typeIn schema).name field field.type (.ordinal byte) =
      .ok [byte] := by
    rw [henum.type_eq, Value.image, Wire.bigEndian_toNat]
  exact hsurrounds.image_eq _ _ hdata

theorem Record.enumValue?_withOrdinal (htyped : record.WellTyped schema) (ordinal : UInt8) :
    (record.withSlot index (some (.ordinal ordinal))).enumValue? schema field.name =
      (schema.graph.enum id).value? ordinal := by
  have hheld := Record.getElem?_withSlot henum htyped (some (.ordinal ordinal))
  rw [← Record.typeIn_withSlot] at henum
  exact Record.enumValue?_eq henum ordinal (by rw [Record.valueAt?, hheld, Option.join_some])

/-- The ordinal in the slot of the field is a byte of the image. -/
theorem Record.exists_surrounds_ordinal (hgraph : schema.graph.Coherent)
    (hrecord : (Value.record record).Sendable schema) {ordinal : UInt8}
    (hheld : record.slots[index]? = some (some (.ordinal ordinal))) :
    ∃ front back, record.Surrounds schema index field front back ∧
      record.image schema = .ok (front ++ ordinal :: back) := by
  obtain ⟨bytes, hbytes, -⟩ := Record.exists_image hgraph hrecord.typed hrecord.complete
  obtain ⟨front, back, hsurrounds⟩ := Record.exists_surrounds hgraph hrecord.typed
    hrecord.bounded hbytes henum.field_eq hheld
  have himage := Record.image_withOrdinal henum hsurrounds ordinal
  rw [Record.withSlot_self hheld] at himage
  exact ⟨front, back, hsurrounds, himage⟩

/-- A byte that stands for a value in the place of the field arrives as this value. -/
theorem Record.exists_enumValue? (hgraph : schema.graph.Coherent)
    (hrecord : (Value.record record).Sendable schema) (hnesting : record.nesting ≤ depthLimit - 1)
    {front back : List UInt8} (hsurrounds : record.Surrounds schema index field front back)
    {reading : Reading Record} (hreads : schema.Reads record.type reading) {byte : UInt8}
    (hrange : byte.toNat < (schema.graph.enum id).values.length) :
    ∃ arrived, Recovers reading (front ++ byte :: back) arrived ∧
      arrived.enumValue? schema field.name = (schema.graph.enum id).value? byte := by
  have hsendable := Value.Sendable.withOrdinal henum hrecord hrange
  have htravels : (record.withSlot index (some (.ordinal byte))).Travels schema
      (depthLimit - 1) := by
    refine ⟨hsendable.typed, hsendable.bounded, Record.nesting_le_iff.mpr fun held hheld => ?_⟩
    rcases List.mem_or_eq_of_mem_set hheld with hheld | hheld
    · exact Record.nesting_le_iff.mp hnesting held hheld
    · cases hheld
      exact Nat.zero_le _
  obtain ⟨taken, htaken⟩ := hreads.exists_recovers hgraph
  let sent : Record := record.withSlot index (some (.ordinal byte))
  let arrived : Record := { sent.carried schema with transaction := taken sent.transaction }
  have hrecovers : Recovers reading (front ++ byte :: back) arrived :=
    htaken sent _ rfl htravels (Record.image_withOrdinal henum hsurrounds byte)
  have hfield : (sent.typeIn schema).fields[index]? = some field := henum.field_eq
  have hheld := Record.getElem?_withSlot henum hrecord.typed (some (.ordinal byte))
  have hvalue : arrived.valueAt? index = some (Value.carried schema field.type (.ordinal byte)) :=
    Record.valueAt?_carried hfield hheld
  have htype : arrived.typeIn schema = record.typeIn schema :=
    congrArg schema.graph.object (Record.type_carried schema sent)
  rw [henum.type_eq] at hvalue
  rw [← htype] at henum
  exact ⟨arrived, hrecovers, Record.enumValue?_eq henum byte hvalue⟩

theorem ObjectType.HasEnum.recovers_readValue (nested : ObjectId → Reading Record) {byte : UInt8}
    (hrange : byte.toNat < (schema.graph.enum id).values.length) :
    Recovers (readValue schema.graph nested field.type) [byte] (.ordinal byte) := by
  rw [henum.type_eq, readValue, ← Wire.bigEndian_toNat byte]
  exact (EnumType.recovers_readOrdinal hrange).map _

/-- A byte that stands for no value is refused in the place of the field. -/
theorem ObjectType.HasEnum.refuses_readValue (nested : ObjectId → Reading Record) {byte : UInt8}
    (hrange : (schema.graph.enum id).values.length ≤ byte.toNat) :
    Refuses (readValue schema.graph nested field.type) [byte]
      (· = .ordinalOutOfRange (schema.graph.enum id).name byte) := by
  rw [henum.type_eq, readValue, ← Wire.bigEndian_toNat byte]
  exact (EnumType.refuses_readOrdinal hrange).map _

end Fields

/-- An enum field takes the names of its enum and no other name.  The byte of a name stands in a
place of its own in the encoding, where every reading takes the bytes of names for these names and
refuses all other bytes. -/
structure Draft.Enumerates (schema : Schema) (type : EnumType) (field : Field) (draft : Draft) :
    Prop where
  settable : ∀ name,
    (∃ changed, draft.setEnum schema field.name name = .ok changed) ↔ name ∈ type.values
  held : ∀ name changed, draft.setEnum schema field.name name = .ok changed →
    changed.record.enumValue? schema field.name = some name
  sent : ∀ name changed, draft.setEnum schema field.name name = .ok changed →
    (Value.record changed.record).Sendable schema → ∃ ordinal front back,
      type.ordinal? name = some ordinal ∧
      Writing.Gives (changed.record.encode schema) (front ++ ordinal :: back) ∧
      (changed.record.nesting ≤ depthLimit - 1 →
        ∀ reading, schema.Reads changed.record.type reading →
          (∀ byte value, type.value? byte = some value →
            ∃ arrived, Recovers reading (front ++ byte :: back) arrived ∧
              arrived.enumValue? schema field.name = some value) ∧
          ∀ byte : UInt8, type.values.length ≤ byte.toNat →
            Refuses reading (front ++ byte :: back) (· = .ordinalOutOfRange type.name byte))
  /-- Bytes are read and refused so wherever the field is read. -/
  read : ∀ (nested : ObjectId → Reading Record) (byte : UInt8),
    (byte.toNat < type.values.length →
      Recovers (readValue schema.graph nested field.type) [byte] (.ordinal byte)) ∧
    (type.values.length ≤ byte.toNat →
      Refuses (readValue schema.graph nested field.type) [byte]
        (· = .ordinalOutOfRange type.name byte))

theorem Draft.enumerates (hgraph : schema.graph.Coherent) {draft : Draft}
    (htyped : draft.record.WellTyped schema) {index : Nat} {field : Field} {id : EnumId}
    (henum : (draft.record.typeIn schema).HasEnum index field id)
    (hordered : (schema.graph.enum id).Ordered) :
    draft.Enumerates schema (schema.graph.enum id) field := by
  have hset (name : String) (changed : Draft) :
      draft.setEnum schema field.name name = .ok changed ↔
        ∃ ordinal, (schema.graph.enum id).ordinal? name = some ordinal ∧
          changed = ⟨draft.record.withSlot index (some (.ordinal ordinal))⟩ :=
    Draft.setEnum_eq_ok_iff henum hordered
  constructor
  · intro name
    rw [← hordered.exists_ordinal_iff name]
    constructor
    · rintro ⟨changed, hchanged⟩
      obtain ⟨ordinal, hordinal, -⟩ := (hset name changed).mp hchanged
      exact ⟨ordinal, hordinal⟩
    · rintro ⟨ordinal, hordinal⟩
      exact ⟨_, (hset name _).mpr ⟨ordinal, hordinal, rfl⟩⟩
  · intro name changed hchanged
    obtain ⟨ordinal, hordinal, rfl⟩ := (hset name changed).mp hchanged
    rw [← (hordered.ordinal_iff name ordinal).mp hordinal]
    exact Record.enumValue?_withOrdinal henum htyped ordinal
  · intro name changed hchanged hsendable
    obtain ⟨ordinal, hordinal, rfl⟩ := (hset name changed).mp hchanged
    have hheld := Record.getElem?_withSlot henum htyped (some (.ordinal ordinal))
    rw [← Record.typeIn_withSlot] at henum
    obtain ⟨front, back, hsurrounds, himage⟩ :=
      Record.exists_surrounds_ordinal henum hgraph hsendable hheld
    refine ⟨ordinal, front, back, hordinal, hsendable.gives himage, ?_⟩
    intro hnesting reading hreads
    constructor
    · intro byte value hvalue
      have hrange := (hordered.exists_value_iff byte).mp ⟨value, hvalue⟩
      rw [← hvalue]
      exact Record.exists_enumValue? henum hgraph hsendable hnesting hsurrounds hreads hrange
    · intro byte hrange
      exact hsurrounds.refuses hnesting reading hreads [byte] _
        (henum.refuses_readValue (schema.readObject (depthLimit - 1)) hrange)
  · intro nested byte
    exact ⟨henum.recovers_readValue nested, henum.refuses_readValue nested⟩

/-- The names and the ordinals of every enum determine each other, in the graph and in the
contracts, in every field of the enum and in every encoding of it. -/
theorem Graph.ordinals_of_compile {documents : List Document}
    (hcompile : Graph.compile documents = .ok schema.graph) {number : Nat} {type : EnumType}
    (htype : schema.graph.enums[number]? = some type) :
    (∃ document ∈ documents, ∃ rows, type.DeclaredBy document rows) ∧ type.Ordered ∧
    (∃ listed, Contract.enum? (Contract.all schema.graph)
        (Contract.enumName schema.graph ⟨number⟩) = some listed ∧ listed.Tabulates type) ∧
    ∀ (draft : Draft) (field : Field), draft.record.WellTyped schema →
      field ∈ (draft.record.typeIn schema).fields → field.type = .enum ⟨number⟩ →
        draft.Enumerates schema type field := by
  obtain ⟨document, hdocument, rows, hdeclared⟩ := exists_declaredBy_of_compile hcompile htype
  have hordered := hdeclared.ordered
  have henum : schema.graph.enum ⟨number⟩ = type := by
    rw [Graph.enum, Array.getD_eq_getD_getElem?, htype, Option.getD_some]
  refine ⟨⟨document, hdocument, rows, hdeclared⟩, hordered, ?_, ?_⟩
  · rcases exists_batch_of_compile hcompile with ⟨outlines, batch, found, hnumbers, hfound, hgraph⟩
    rw [← hgraph] at htype henum ⊢
    have hlisted := hnumbers.enum?_all hfound (Array.getElem?_eq_some_iff.mp htype).1
    rw [henum] at hlisted
    exact ⟨_, hlisted, Contract.tabulates_ofEnum hordered⟩
  · intro draft field htyped hfield hfieldType
    obtain ⟨index, hindex⟩ := List.mem_iff_getElem?.mp hfield
    have hdistinct := Graph.namesDistinct_of_compile hcompile draft.record.type
    rw [← henum] at hordered ⊢
    exact Draft.enumerates (Graph.coherent_of_compile hcompile) htyped
      ⟨hdistinct, hindex, hfieldType⟩ hordered

namespace Sample

/-- A leaf that becomes red.  Its color is the last of its bytes; there the byte behind those of the
two colors is refused. -/
theorem red_leaf :
    ∃ (type : EnumType) (changed : Draft) (front back : List UInt8),
      Sample.schema.graph.enums[0]? = some type ∧ type.values = ["red", "black"] ∧
      (Draft.mk leaf).setEnum Sample.schema "color" "red" = .ok changed ∧
      changed.record.enumValue? Sample.schema "color" = some "red" ∧
      Writing.Gives (changed.record.encode Sample.schema) (front ++ 0 :: back) ∧
      (∃ arrived, Recovers (Sample.schema.decodeObject ⟨0⟩) (front ++ 0 :: back) arrived ∧
        arrived.enumValue? Sample.schema "color" = some "red") ∧
      Refuses (Sample.schema.decodeObject ⟨0⟩) (front ++ 2 :: back)
        (· = .ordinalOutOfRange type.name 2) := by
  let color := leaf.fieldAt Sample.schema 4
  let type := Sample.schema.graph.enum ⟨0⟩
  have htype : Sample.schema.graph.enums[0]? = some type ∧ type.values = ["red", "black"] ∧
      type.ordinal? "red" = some 0 ∧ type.value? 0 = some "red" := by
    decide +kernel
  have hcolor : (leaf.typeIn Sample.schema).fields[4]? = some color ∧ color.name = "color" ∧
      color.type = .enum ⟨0⟩ := by
    decide +kernel
  have hnode : Sample.schema.graph.isA leaf.type ⟨0⟩ = true ∧
      (Sample.schema.graph.object ⟨0⟩).isPayload = false := by
    decide +kernel
  obtain ⟨henumType, hvalues, hred, hzero⟩ := htype
  obtain ⟨hfield, hname, hfieldType⟩ := hcolor
  obtain ⟨-, hordered, -, hfields⟩ := Graph.ordinals_of_compile compile_documents henumType
  have henumerates := hfields ⟨leaf⟩ color sendable_leaf.typed (List.mem_of_getElem? hfield)
    hfieldType
  have henum : (leaf.typeIn Sample.schema).HasEnum 4 color ⟨0⟩ :=
    ⟨Graph.namesDistinct_of_compile compile_documents leaf.type, hfield, hfieldType⟩
  have hset := (Draft.setEnum_eq_ok_iff henum hordered).mpr ⟨0, hred, rfl⟩
  have hsendable := Value.Sendable.withOrdinal henum sendable_leaf
    ((hordered.exists_value_iff 0).mp ⟨"red", hzero⟩)
  have hheld := henumerates.held "red" _ hset
  obtain ⟨ordinal, front, back, hordinal, hgives, hreads⟩ :=
    henumerates.sent "red" _ hset hsendable
  obtain rfl : ordinal = 0 := Option.some.inj (hordinal.symm.trans hred)
  obtain ⟨harrives, hrefuses⟩ := hreads (by decide +kernel) _ (.object hnode.1 hnode.2)
  have htwo : type.values.length ≤ UInt8.toNat 2 := by
    rw [hvalues]
    decide
  rw [hname] at harrives hset hheld
  exact ⟨type, _, front, back, henumType, hvalues, hset, hheld, hgives, harrives 0 "red" hzero,
    hrefuses 2 htwo⟩

end Sample

end WireSchema
