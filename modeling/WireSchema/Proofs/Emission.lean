import WireSchema.Proofs.Construction
import WireSchema.Proofs.Estimate
import WireSchema.Proofs.Lookup
import WireSchema.Proofs.RoundTrip

/-!
# The contracts determine the bytes

A record of a compiled graph is an instance in the words of the contracts.  The encoder, which
walks the graph, writes the bytes that an emitter puts together from the contracts alone.
-/

namespace WireSchema

/-! ## Records in the words of the contracts -/

mutual

/-- A record with its types, fields and values of enums by their names. -/
def Record.toInstance (schema : Schema) : Record → Contract.Instance
  | ⟨_, id, slots, transaction⟩ =>
    .of (Contract.qualifiedName schema.graph id) transaction
      (Record.members schema (schema.graph.object id).fields slots)

/-- What slots hold, by the names of their fields. -/
def Record.members (schema : Schema) (fields : List Field) :
    List (Option Value) → String → Option Contract.Content
  | [], _ => none
  | slot :: rest, name =>
    match fields with
    | [] => none
    | field :: fields =>
      if field.name = name then Record.slotContent schema field.type slot
      else Record.members schema fields rest name

def Record.slotContent (schema : Schema) (type : FieldType) :
    Option Value → Option Contract.Content
  | none => none
  | some value => some (Value.content schema type value)

def Value.content (schema : Schema) (type : FieldType) : Value → Contract.Content
  | .ordinal ordinal =>
    match type with
    | .enum id =>
      match (schema.graph.enum id).value? ordinal with
      | some name => .enumerator name
      | none => .plain (.ordinal ordinal)
    | _ => .plain (.ordinal ordinal)
  | .array items =>
    match type with
    | .array element => .array (Value.contents schema element items)
    | _ => .plain (.array items)
  | .record nested => .nested (nested.toInstance schema)
  | value => .plain value

def Value.contents (schema : Schema) (element : FieldType) :
    List Value → List Contract.Content
  | [] => []
  | item :: rest => Value.content schema element item :: Value.contents schema element rest

end

theorem Record.slotContent_eq (schema : Schema) (type : FieldType) (slot : Option Value) :
    Record.slotContent schema type slot = slot.map (Value.content schema type) := by
  cases slot <;> rfl

theorem Value.contents_eq (schema : Schema) (element : FieldType) (items : List Value) :
    Value.contents schema element items = items.map (Value.content schema element) := by
  induction items with
  | nil => rfl
  | cons item rest ih => rw [Value.contents, List.map_cons, ih]

/-- Every field is found by its name. -/
theorem Record.forall₂_members (schema : Schema) {Holds : Field → Option Value → Prop}
    {fields : List Field} {slots : List (Option Value)} (hslots : List.Forall₂ Holds fields slots)
    (hdistinct : NamesDistinct fields) :
    List.Forall₂ (fun field slot => Record.members schema fields slots field.name =
      slot.map (Value.content schema field.type)) fields slots := by
  induction hslots with
  | nil => exact .nil
  | @cons field slot fields slots hslot hrest ih =>
      rw [NamesDistinct, List.map_cons, List.nodup_cons] at hdistinct
      apply List.Forall₂.cons
      · rw [Record.members, if_pos rfl, Record.slotContent_eq]
      · apply List.Forall₂.imp _ (Outcome.forall₂_mem (ih hdistinct.2))
        rintro other held ⟨hother, -, hmember⟩
        have hne : field.name ≠ other.name := by
          intro hname
          exact hdistinct.1 (hname ▸ List.mem_map_of_mem hother)
        rw [Record.members, if_neg hne, hmember]

/-! ## Presence bits -/

/-- Among numbered fields, the one with a bit has a value exactly if the encoder sets the bit. -/
theorem any_numberFlags (members : String → Option Contract.Content) {fields : List Field}
    {slots : List (Option Value)}
    (hslots : List.Forall₂
      (fun field slot => (members field.name).isSome = slot.isSome) fields slots)
    (first bit : Nat) :
    (Batch.numberFlags first fields).any
        (fun field => field.flagBit == some bit && (members field.name).isSome) =
      (decide (first ≤ bit) && (presenceBits fields slots).getD (bit - first) false) := by
  induction hslots generalizing first with
  | nil => simp [Batch.numberFlags, presenceBits]
  | @cons field slot fields slots hslot hrest ih =>
      rw [Batch.numberFlags_cons, List.any_cons, ih, presenceBits_cons]
      by_cases hoptional : field.isOptional = true
      · simp only [Batch.flagged, hoptional, if_true, hslot]
        rcases Nat.lt_trichotomy bit first with hbelow | rfl | habove
        · have hbeyond : ¬ first + 1 ≤ bit := by omega
          simp [Nat.not_le.mpr hbelow, Nat.ne_of_gt hbelow, hbeyond]
        · simp
        · rcases Nat.exists_eq_add_of_lt habove with ⟨offset, rfl⟩
          have hfirst : first + offset + 1 - first = offset + 1 := by omega
          have hnext : first + offset + 1 - (first + 1) = offset := by omega
          have hbelow : first ≤ first + offset + 1 ∧ first + 1 ≤ first + offset + 1 := by omega
          rw [hfirst, hnext, List.getD_cons_succ, decide_eq_true hbelow.1,
            decide_eq_true hbelow.2]
          have hne : ¬ first = first + offset + 1 := by omega
          simp [hne]
      · simp [Batch.flagged, hoptional]

/-- The presence bytes of the contract are those of the encoder. -/
theorem Contract.flags_ofObject (graph : Graph) {type : ObjectType} {slots : List (Option Value)}
    {members : String → Option Contract.Content}
    (hnumbered : Batch.numberFlags 0 type.fields = type.fields)
    (hlayout : type.layout.flagBytes = flagBytes (type.fields.countP (·.isOptional)))
    (hslots : List.Forall₂
      (fun field slot => (members field.name).isSome = slot.isSome) type.fields slots) :
    (Contract.ofObject graph type).flags members =
      (FlagBits.ofBits (presenceBits type.fields slots)).bytes := by
  have hset (bit : Nat) : (Contract.ofObject graph type).isSet members bit =
      FlagBits.bitAt (FlagBits.ofBits (presenceBits type.fields slots)).bytes bit := by
    have hany := any_numberFlags members hslots 0 bit
    rw [hnumbered] at hany
    rw [decide_eq_true (Nat.zero_le bit), Bool.true_and, Nat.sub_zero] at hany
    rw [(FlagBits.carries_ofBits _).bit_eq, ← hany, Contract.Object.isSet, Contract.ofObject,
      List.any_map, ← List.zipIdx_map_fst 0 type.fields, List.any_map, List.zipIdx_map_fst]
    rfl
  have hlength : (FlagBits.ofBits (presenceBits type.fields slots)).bytes.length =
      (Contract.ofObject graph type).flagBytes := by
    rw [FlagBits.length_bytes_ofBits, length_presenceBits hslots, ← hlayout]
    rfl
  rw [Contract.eq_map_bitAt (FlagBits.ofBits (presenceBits type.fields slots)).bytes, hlength,
    Contract.Object.flags]
  simp only [hset]

/-! ## Parts of an encoding -/

/-- Records of a graph's types have types of the graph. -/
theorem Graph.lt_size_of_isA {graph : Graph} {id ancestor : ObjectId}
    (hisA : graph.isA id ancestor = true) (hancestor : ancestor.index < graph.objects.size) :
    id.index < graph.objects.size := by
  by_contra hid
  have hparent : (graph.object id).parent = none := by
    rw [Graph.object, Array.getD_eq_getD_getElem?, Array.getElem?_eq_none (Nat.le_of_not_lt hid)]
    rfl
  have hclimb : graph.ancestry id = [id] := by
    rw [ancestry]
    cases graph.objects.size with
    | zero => rfl
    | succ steps => rw [climb, hparent]
  rw [isA, hclimb, List.contains_iff_mem, List.mem_singleton] at hisA
  exact hid (hisA ▸ hancestor)

namespace Contract

variable {manifests : List Manifest} {graph : Graph}

theorem Tells.header_eq (htells : Tells manifests graph) {id : ObjectId}
    {transaction : Option UInt32} {data : List UInt8}
    (hheader : (graph.object id).headerImage transaction = .ok data) :
    (ofObject graph (graph.object id)).header transaction = data := by
  have hwire := htells.isSome_wireId id
  rw [← htells.coherent.hasHeader_eq] at hwire
  rw [ObjectType.headerImage, ← hwire] at hheader
  rw [Object.header, ofObject]
  cases hid : (graph.object id).wireId with
  | none =>
      rw [hid] at hheader
      cases hheader
      rfl
  | some wire =>
      rw [hid] at hheader
      cases hheader
      rfl

theorem Tells.tagBytes_eq (htells : Tells manifests graph) (id : ObjectId) :
    (ofObject graph (graph.object id)).tagBytes = (graph.object id).kindTagBytes := by
  rw [ObjectType.kindTagBytes, htells.coherent.hasKindTag_eq]
  rfl

theorem memberBytes?_ofField (ownStart place : Nat) (field : WireSchema.Field)
    (content : Content) :
    memberBytes? manifests (ofField graph ownStart field place) (some content) =
      content.bytes? manifests field.type.staticSize? (Token.ofType graph field.type) := by
  rw [memberBytes?, ofField, Token.read?_typeToken]
  rfl

end Contract

/-! ## The bytes of records -/

theorem mapM_cons_eq_some {α β : Type} {f : α → Option β} {item : α} {rest : List α} {part : β}
    {parts : List β} (hitem : f item = some part) (hrest : rest.mapM f = some parts) :
    (item :: rest).mapM f = some (part :: parts) := by
  rw [List.mapM_cons, hitem, hrest]
  rfl

section Bytes

variable {schema : Schema} {manifests : List Contract.Manifest}

theorem Value.content_primitive {kind : Primitive} {value : Value}
    (hadmits : kind.admits value = true) :
    Value.content schema (.primitive kind) value = .plain value := by
  have hscalar := (Primitive.isScalar_of_admits hadmits).1
  cases value
  case array items => cases hscalar
  case record nested => cases hscalar
  all_goals rfl

theorem Value.content_ordinal {id : EnumId} {ordinal : UInt8} {name : String}
    (hvalue : (schema.graph.enum id).value? ordinal = some name) :
    Value.content schema (.enum id) (.ordinal ordinal) = .enumerator name := by
  simp [Value.content, hvalue]

mutual

theorem Record.bytes_toInstance (htells : Contract.Tells manifests schema.graph) (record : Record)
    (htyped : record.WellTyped schema)
    (hknown : record.type.index < schema.graph.objects.size) {data : List UInt8}
    (himage : record.image schema = .ok data) :
    (record.toInstance schema).bytes? manifests = some data := by
  obtain ⟨number, id, slots, transaction⟩ := record
  rw [Record.image] at himage
  rcases Image.join_eq_ok himage with ⟨header, afterHeader, hheader, hafterHeader, rfl⟩
  rcases Image.join_eq_ok hafterHeader with ⟨tag, afterTag, htag, hafterTag, rfl⟩
  rcases Image.join_eq_ok hafterTag with ⟨bits, body, hbits, hbody, rfl⟩
  cases htag
  cases hbits
  have hslots : List.Forall₂ (Field.SlotHolds (Value.Suits schema))
      (schema.graph.object id).fields slots := htyped.suits
  have hmembers := Record.forall₂_members schema hslots (htells.namesDistinct id)
  have hpresent : List.Forall₂ (fun field slot =>
      (Record.members schema (schema.graph.object id).fields slots field.name).isSome =
        slot.isSome) (schema.graph.object id).fields slots := by
    apply hmembers.imp
    intro field slot hmember
    rw [hmember, Option.isSome_map]
  have hflags := Contract.flags_ofObject schema.graph (htells.numbered id)
    (htells.coherent.flagBytes_eq id) hpresent
  rcases Record.parts_members htells _ _ _ 0 _ slots hslots (htells.closed.fieldType id) hmembers
    hbody with ⟨parts, hparts, rfl⟩
  have hfields : (Contract.ofObject schema.graph (schema.graph.object id)).fields.mapM
      (fun field => Contract.memberBytes? manifests field
        (Record.members schema (schema.graph.object id).fields slots field.name)) = some parts :=
    hparts
  rw [Record.toInstance, Contract.Instance.bytes?, htells.object? id hknown, Option.bind_eq_bind,
    Option.bind_some, hfields, Option.bind_eq_bind, Option.bind_some, hflags,
    htells.header_eq hheader, htells.tagBytes_eq id, List.append_assoc, List.append_assoc]
  rfl

/-- The parts of an encoding that fields take. -/
theorem Record.parts_members (htells : Contract.Tells manifests schema.graph) (owner : String)
    (members : String → Option Contract.Content) (ownStart place : Nat) (fields : List Field)
    (slots : List (Option Value))
    (hslots : List.Forall₂ (Field.SlotHolds (Value.Suits schema)) fields slots)
    (hknown : ∀ field ∈ fields, schema.graph.Knows field.type)
    (hmembers : List.Forall₂ (fun field slot => members field.name =
      slot.map (Value.content schema field.type)) fields slots) {data : List UInt8}
    (himage : Record.slotsImage schema owner fields slots = .ok data) :
    ∃ parts, ((fields.zipIdx place).map fun entry =>
        Contract.ofField schema.graph ownStart entry.1 entry.2).mapM (fun field =>
          Contract.memberBytes? manifests field (members field.name)) = some parts ∧
      parts.flatten = data := by
  match slots, fields, hslots, hmembers with
  | [], [], .nil, .nil =>
      cases himage
      exact ⟨[], rfl, rfl⟩
  | none :: rest, field :: fields, .cons hslot hrest, .cons hmember hmore =>
      rw [Record.slotsImage] at himage
      split at himage
      · rcases Record.parts_members htells owner members ownStart (place + 1) fields rest hrest
          (fun other hother => hknown other (List.mem_cons_of_mem _ hother)) hmore himage with
          ⟨parts, hparts, rfl⟩
        refine ⟨[] :: parts, ?_, rfl⟩
        apply mapM_cons_eq_some _ hparts
        change Contract.memberBytes? manifests _ (members field.name) = some []
        rw [hmember]
        rfl
      · cases himage
  | some value :: rest, field :: fields, .cons hslot hrest, .cons hmember hmore =>
      rw [Record.slotsImage] at himage
      rcases Image.join_eq_ok himage with ⟨front, back, hfront, hback, rfl⟩
      rcases Record.parts_members htells owner members ownStart (place + 1) fields rest hrest
        (fun other hother => hknown other (List.mem_cons_of_mem _ hother)) hmore hback with
        ⟨parts, hparts, rfl⟩
      have hwidth : ∀ kind, field.type = .primitive kind →
          field.type.staticSize? = some kind.size := by
        intro kind htype
        rw [htype]
        rfl
      have hvalue := Value.bytes_content htells owner field field.type value (hslot value rfl)
        (hknown field List.mem_cons_self) _ hwidth hfront
      refine ⟨front :: parts, ?_, List.flatten_cons⟩
      apply mapM_cons_eq_some _ hparts
      change Contract.memberBytes? manifests _ (members field.name) = some front
      rw [hmember, Option.map_some, Contract.memberBytes?_ofField]
      exact hvalue

theorem Value.bytes_content (htells : Contract.Tells manifests schema.graph) (owner : String)
    (field : Field) (type : FieldType) (value : Value) (hsuits : value.Suits schema type)
    (hknown : schema.graph.Knows type) (width : Option Nat)
    (hwidth : ∀ kind, type = .primitive kind → width = some kind.size) {data : List UInt8}
    (himage : Value.image schema owner field type value = .ok data) :
    (Value.content schema type value).bytes? manifests width
      (Contract.Token.ofType schema.graph type) = some data := by
  cases type with
  | primitive kind =>
      rw [Value.image] at himage
      rw [Value.content_primitive hsuits.admits, Contract.Content.bytes?, Contract.Token.ofType,
        hwidth kind rfl, Contract.plainBytes?]
      cases hcode : kind.code? value with
      | none =>
          rw [hcode] at himage
          cases himage
      | some code =>
          rw [hcode] at himage
          cases himage
          rfl
  | text =>
      cases value
      case text text =>
        rw [Value.image] at himage
        cases himage
        rfl
      all_goals cases hsuits.admits
  | binary length =>
      cases value
      case binary bytes =>
        rw [Value.image] at himage
        cases himage
        rfl
      all_goals cases hsuits.admits
  | enum id =>
      cases value
      case ordinal ordinal =>
        rw [Value.image] at himage
        cases himage
        have hordinal : ordinal.toNat < (schema.graph.enum id).values.length := by
          simpa [Schema.admits] using hsuits.admits
        have hvalue := List.getElem?_eq_getElem hordinal
        have hlisted := htells.ordinal? id hknown ordinal _ hvalue
        rw [Value.content_ordinal hvalue, Contract.Token.ofType, Contract.Content.bytes?]
        rcases Option.bind_eq_some_iff.mp hlisted with ⟨listed, hfound, hordinal⟩
        rw [hfound, Option.bind_eq_bind, Option.bind_some, hordinal]
        rfl
      all_goals cases hsuits.admits
  | object id =>
      cases value
      case record nested =>
        rw [Value.image] at himage
        rcases Schema.exists_object_of_admits hsuits.admits with ⟨_, hid, -, hisA⟩
        cases hid
        rw [Value.content, Contract.Token.ofType, Contract.Content.bytes?]
        exact Record.bytes_toInstance htells nested hsuits.typed
          (Graph.lt_size_of_isA hisA hknown) himage
      all_goals cases hsuits.admits
  | array element =>
      cases value
      case array items =>
        rw [Value.image] at himage
        rcases Image.join_eq_ok himage with ⟨count, body, hcount, hbody, rfl⟩
        cases hcount
        have hitems := Value.bytes_contents htells owner field element items hsuits.item hknown
          hbody
        rw [Value.content, Contract.Token.ofType, Contract.Content.bytes?, hitems,
          Value.contents_eq, List.length_map]
        rfl
      all_goals cases hsuits.admits

theorem Value.bytes_contents (htells : Contract.Tells manifests schema.graph) (owner : String)
    (field : Field) (element : FieldType) (items : List Value)
    (hsuits : ∀ item ∈ items, item.Suits schema element)
    (hknown : schema.graph.Knows element) {data : List UInt8}
    (himage : Value.itemsImage schema owner field element items = .ok data) :
    Contract.itemsBytes? manifests (Contract.Token.ofType schema.graph element)
      (Value.contents schema element items) = some data := by
  match items with
  | [] =>
      cases himage
      rfl
  | item :: rest =>
      rw [Value.itemsImage] at himage
      rcases Image.join_eq_ok himage with ⟨front, back, hfront, hback, rfl⟩
      rcases List.forall_mem_cons.mp hsuits with ⟨hhead, htail⟩
      have hwidth : ∀ kind, element = .primitive kind →
          (Contract.Token.ofType schema.graph element).width? = some kind.size := by
        rintro kind rfl
        rfl
      have hitem := Value.bytes_content htells owner field element item hhead hknown _ hwidth hfront
      have hrest := Value.bytes_contents htells owner field element rest htail hknown hback
      rw [Value.contents, Contract.itemsBytes?, hitem, hrest]
      rfl

end

end Bytes

/-- The encoder writes the bytes that the contracts determine, as many at least as the contract of
the type tells. -/
theorem Record.bytes_of_encode {documents : List Document} {schema : Schema}
    (hcompile : Graph.compile documents = .ok schema.graph) {record : Record}
    (htyped : record.WellTyped schema)
    (hknown : record.type.index < schema.graph.objects.size) {writer left : Writer}
    (hencode : record.encode schema writer = .ok () left) :
    ∃ data object,
      (record.toInstance schema).bytes? (Contract.all schema.graph) = some data ∧
        left = writer.advance data ∧
          Contract.object? (Contract.all schema.graph)
              (Contract.qualifiedName schema.graph record.type) = some object ∧
            object.staticMinSize ≤ data.length := by
  have htells : Contract.Tells (Contract.all schema.graph) schema.graph := by
    rcases Graph.exists_batch_of_compile hcompile with
      ⟨outlines, batch, found, hnumbers, hfound, hgraph⟩
    rw [← hgraph]
    exact hnumbers.tells_graph hfound
  rcases (Record.emits_encode schema record).image_of_ok hencode with ⟨data, himage, hleft, -⟩
  have hbytes := Record.bytes_toInstance htells record htyped hknown himage
  refine ⟨data, _, hbytes, hleft, htells.object? _ hknown, ?_⟩
  exact Record.minSize_le htells.coherent htyped himage

namespace Sample

/-- An empty buffer that is large enough for the message. -/
def blank : Writer := .of (List.replicate 80 0)

theorem emitted_walk :
    ∃ left data object, walk.encode Sample.schema blank = .ok () left ∧
      (walk.toInstance Sample.schema).bytes? (Contract.all Sample.schema.graph) = some data ∧
        left = blank.advance data ∧
          Contract.object? (Contract.all Sample.schema.graph)
              (Contract.qualifiedName Sample.schema.graph ⟨2⟩) = some object ∧
            object.staticMinSize ≤ data.length := by
  have hroom : Action.succeeded (walk.encode Sample.schema blank) = true := by decide +kernel
  rcases Action.exists_ok hroom with ⟨⟨⟩, left, hencode⟩
  rcases Record.bytes_of_encode compile_documents wellTyped_walk (by decide +kernel) hencode with
    ⟨data, object, hemitted⟩
  exact ⟨left, data, object, hencode, hemitted⟩

end Sample

end WireSchema
