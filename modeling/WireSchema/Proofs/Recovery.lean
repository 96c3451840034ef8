import WireSchema.Proofs.Closed

/-!
# Contracts lose nothing

A graph can be recovered from the contracts of its namespaces.  The contracts tell how many enums
and objects each document has, hence the numbers of all declarations; qualified names and tokens
lead back to these numbers; and what a contract leaves out follows from what it tells.
-/

namespace WireSchema

/-- What numbers the declarations of a document: its namespace, how many enums it has, and the roles
of its objects. -/
def Outline.shape (outline : Outline) : String × Nat × List Role :=
  (outline.space, outline.enums.length, outline.objects.map (·.role))

/-- The shape of a document, as its contract tells it. -/
def Contract.Manifest.shape (manifest : Contract.Manifest) : String × Nat × List Role :=
  (manifest.space, manifest.enums.length, manifest.objects.map (·.role))

namespace Contract

/-- The enum of a namespace that a contract tells of. -/
def Enum.recover (space : String) (type : Enum) : EnumType :=
  ⟨space, type.tag, type.name, type.values.map (·.name)⟩

theorem recover_ofEnum (type : EnumType) (hlength : type.values.length ≤ Outline.maxEnumValues) :
    (ofEnum type).recover type.space = type := by
  have htake : type.values.take 256 = type.values := List.take_of_length_le hlength
  have hvalues : (enumValues type.values).map (·.name) = type.values := by
    rw [enumValues, List.map_map, htake]
    exact List.zipIdx_map_fst 0 type.values
  rw [Enum.recover, ofEnum, hvalues]

end Contract

namespace Batch

/-- Two documents of the same shape whose declarations have the same numbers. -/
structure SamePlaces (home partner : PlacedOutline) : Prop where
  firstObject_eq : home.firstObject = partner.firstObject
  firstEnum_eq : home.firstEnum = partner.firstEnum
  shape_eq : home.outline.shape = partner.outline.shape

namespace SamePlaces

variable {home partner : PlacedOutline} (hplaces : SamePlaces home partner)

include hplaces

theorem space_eq : home.outline.space = partner.outline.space :=
  congrArg Prod.fst hplaces.shape_eq

theorem length_enums_eq : home.outline.enums.length = partner.outline.enums.length :=
  congrArg (fun shape => shape.2.1) hplaces.shape_eq

theorem roles_eq : home.outline.objects.map (·.role) = partner.outline.objects.map (·.role) :=
  congrArg (fun shape => shape.2.2) hplaces.shape_eq

theorem length_objects_eq : home.outline.objects.length = partner.outline.objects.length := by
  have hlength := congrArg List.length hplaces.roles_eq
  rwa [List.length_map, List.length_map] at hlength

theorem objectIds_eq : home.objectIds = partner.objectIds := by
  rw [PlacedOutline.objectIds, PlacedOutline.objectIds, hplaces.length_objects_eq]
  apply List.map_congr_left
  intro place _
  rw [PlacedOutline.objectAt, PlacedOutline.objectAt, hplaces.firstObject_eq]

theorem idsWithRoles_eq (roles : List Role) :
    idsWithRoles home roles = idsWithRoles partner roles := by
  have hroles (home : PlacedOutline) : idsWithRoles home roles =
      (home.outline.objects.map (·.role)).zipIdx.filterMap fun entry =>
        if roles.contains entry.1 then some ⟨home.firstObject + entry.2⟩ else none := by
    rw [List.zipIdx_map, List.filterMap_map]
    rfl
  rw [hroles, hroles, hplaces.roles_eq, hplaces.firstObject_eq]

theorem namespaceOf_eq : namespaceOf home = namespaceOf partner := by
  rw [namespaceOf, namespaceOf, hplaces.space_eq, hplaces.length_enums_eq, hplaces.firstEnum_eq,
    hplaces.idsWithRoles_eq, hplaces.idsWithRoles_eq, hplaces.idsWithRoles_eq,
    hplaces.idsWithRoles_eq]

end SamePlaces

theorem forall₂_placeOutlines {outlines others : List Outline}
    (hshape : outlines.map Outline.shape = others.map Outline.shape) (firstObject firstEnum : Nat) :
    List.Forall₂ SamePlaces (placeOutlines firstObject firstEnum outlines)
      (placeOutlines firstObject firstEnum others) := by
  induction outlines generalizing others firstObject firstEnum with
  | nil =>
      cases others with
      | nil => exact .nil
      | cons other more => cases hshape
  | cons outline rest ih =>
      cases others with
      | nil => cases hshape
      | cons other more =>
          rw [List.map_cons, List.map_cons, List.cons.injEq] at hshape
          have hplaces :
              SamePlaces ⟨outline, firstObject, firstEnum⟩ ⟨other, firstObject, firstEnum⟩ :=
            ⟨rfl, rfl, hshape.1⟩
          rw [placeOutlines, placeOutlines]
          have hobjects : outline.objects.length = other.objects.length := hplaces.length_objects_eq
          have henums : outline.enums.length = other.enums.length := hplaces.length_enums_eq
          rw [hobjects, henums]
          exact .cons hplaces (ih hshape.2 _ _)

theorem Numbers.map_shape {batch : Batch} {outlines : List Outline} {found : Findings}
    (hnumbers : batch.Numbers outlines) (hfound : batch.Examined found) :
    (Contract.all (batch.graph found)).map Contract.Manifest.shape =
      outlines.map Outline.shape := by
  rw [hnumbers.all_graph, ← hnumbers.map_outline, List.map_map, List.map_map]
  apply List.map_congr_left
  intro home hhome
  have hroles : home.objectIds.map (fun id => ((batch.graph found).object id).role) =
      home.outline.objects.map (·.role) := by
    apply List.ext_getElem?
    intro place
    rw [PlacedOutline.objectIds, List.map_map, List.getElem?_map, List.getElem?_map]
    by_cases hplace : place < home.outline.objects.length
    · have hobject := List.getElem?_eq_getElem hplace
      have hplaced := hnumbers.sound.getElem?_of_place home hhome place _ hobject
      rw [List.getElem?_range hplace, hobject, Option.map_some, Option.map_some, Function.comp,
        PlacedOutline.objectAt, object_graph _ hplaced]
      rfl
    · rw [List.getElem?_eq_none (by rw [List.length_range]; omega),
        List.getElem?_eq_none (by omega)]
      rfl
  rw [Function.comp, Function.comp, hnumbers.ofNamespace_graph hfound hhome]
  simp only [Contract.Manifest.shape, Outline.shape, List.length_map, List.map_map]
  exact congrArg (fun roles => (home.outline.space, home.outline.enums.length, roles)) hroles

theorem Numbers.mem_tables_iff {batch : Batch} {outlines : List Outline} {found : Findings}
    (hnumbers : batch.Numbers outlines) (hfound : batch.Examined found) {table : DispatchTable} :
    table ∈ (batch.graph found).tables ↔
      table ∈ batch.outlines.flatMap fun home =>
        home.objectIds.filterMap (tableOf? found.tables) := by
  rw [List.mem_flatMap]
  constructor
  · intro htable
    have hroot := (hnumbers.closed_graph hfound).tableRoot table htable
    have hheld := tableOf?_of_mem hfound.tabulated.inOrder htable
    rcases hnumbers.exists_home_of_lt hroot with ⟨placed, -, hhome, hmem⟩
    exact ⟨placed.home, hhome, List.mem_filterMap.mpr ⟨table.root, hmem, hheld⟩⟩
  · rintro ⟨home, -, hmem⟩
    rcases List.mem_filterMap.mp hmem with ⟨root, -, hheld⟩
    exact (tableOf?_root hheld).1

/-- Two batches with the same contracts. -/
structure SameContracts (outlines others : List Outline) (batch other : Batch)
    (found seen : Findings) : Prop where
  numbers : batch.Numbers outlines
  otherNumbers : other.Numbers others
  examined : batch.Examined found
  otherExamined : other.Examined seen
  all_eq : Contract.all (batch.graph found) = Contract.all (other.graph seen)

/-- Two documents in the same place of batches with the same contracts. -/
structure Matches (batch other : Batch) (found seen : Findings) (home partner : PlacedOutline) :
    Prop where
  home_mem : home ∈ batch.outlines
  partner_mem : partner ∈ other.outlines
  places : SamePlaces home partner
  contract_eq : Contract.ofNamespace (batch.graph found) (namespaceOf home) =
    Contract.ofNamespace (other.graph seen) (namespaceOf partner)

namespace SameContracts

variable {outlines others : List Outline} {batch other : Batch} {found seen : Findings}
  (hsame : SameContracts outlines others batch other found seen)

include hsame

theorem forall₂_matches :
    List.Forall₂ (Matches batch other found seen) batch.outlines other.outlines := by
  have hshape := hsame.otherNumbers.map_shape hsame.otherExamined
  rw [← hsame.all_eq, hsame.numbers.map_shape hsame.examined] at hshape
  have hplaces := forall₂_placeOutlines hshape 0 0
  rw [← hsame.numbers.outlines_eq, ← hsame.otherNumbers.outlines_eq] at hplaces
  have hall := hsame.all_eq
  rw [hsame.numbers.all_graph, hsame.otherNumbers.all_graph, ← List.forall₂_eq_eq_eq,
    List.forall₂_map_left_iff, List.forall₂_map_right_iff] at hall
  refine hplaces.mp ?_ (Outcome.forall₂_mem hall)
  rintro home partner hplaces ⟨hhome, hpartner, hcontract⟩
  exact ⟨hhome, hpartner, hplaces, hcontract⟩

theorem namespaces_eq : (batch.graph found).namespaces = (other.graph seen).namespaces :=
  Outcome.map_eq_of_forall₂ hsame.forall₂_matches fun _ _ hmatches => hmatches.places.namespaceOf_eq

theorem exists_match {home : PlacedOutline} (hhome : home ∈ batch.outlines) :
    ∃ partner, Matches batch other found seen home partner := by
  rcases Outcome.exists_mem_of_forall₂ hsame.forall₂_matches hhome with ⟨partner, -, hmatches⟩
  exact ⟨partner, hmatches⟩

/-! ## Enums -/

theorem enumTypes_eq {home partner : PlacedOutline}
    (hmatches : Matches batch other found seen home partner) :
    enumTypes home = enumTypes partner := by
  have hrecover {batch : Batch} {outlines : List Outline} {found : Findings}
      (hnumbers : batch.Numbers outlines) (hfound : batch.Examined found) {home : PlacedOutline}
      (hhome : home ∈ batch.outlines) :
      (Contract.ofNamespace (batch.graph found) (namespaceOf home)).enums.map
        (Contract.Enum.recover home.outline.space) = enumTypes home := by
    rw [hnumbers.ofNamespace_graph hfound hhome, List.map_map]
    apply List.map_congr_left
    intro type htype
    have hproper := hnumbers.proper _ (hnumbers.outline_mem hhome)
    exact Contract.recover_ofEnum ⟨_, _, _, type.values⟩ (hproper.length_values_le type htype)
  rw [← hrecover hsame.numbers hsame.examined hmatches.home_mem,
    ← hrecover hsame.otherNumbers hsame.otherExamined hmatches.partner_mem, hmatches.contract_eq,
    hmatches.places.space_eq]

theorem enums_eq : (batch.graph found).enums = (other.graph seen).enums := by
  have hall : batch.outlines.map enumTypes = other.outlines.map enumTypes :=
    Outcome.map_eq_of_forall₂ hsame.forall₂_matches fun _ _ hmatches => hsame.enumTypes_eq hmatches
  have hflat := congrArg List.flatten hall
  rw [← List.flatMap_def, ← List.flatMap_def] at hflat
  exact congrArg List.toArray hflat

/-! ## Objects by their names -/

theorem size_eq : (batch.graph found).objects.size = (other.graph seen).objects.size := by
  rw [size_graph, size_graph, hsame.numbers.objects_eq, hsame.otherNumbers.objects_eq,
    List.length_flatMap, List.length_flatMap]
  apply congrArg List.sum
  apply Outcome.map_eq_of_forall₂ hsame.forall₂_matches
  intro home partner hmatches
  rw [objectsIn, objectsIn, List.length_map, List.length_map, hmatches.places.length_objects_eq]

/-- The contracts tell the same of the objects with the same number. -/
theorem ofObject_eq {id : ObjectId} (hid : id.index < (batch.graph found).objects.size) :
    Contract.ofObject (batch.graph found) ((batch.graph found).object id) =
        Contract.ofObject (other.graph seen) ((other.graph seen).object id) ∧
      ((batch.graph found).object id).space = ((other.graph seen).object id).space := by
  rcases hsame.numbers.exists_home_of_lt hid with ⟨placed, hplaced, hhome, hmem⟩
  rcases hsame.exists_match hhome with ⟨partner, hmatches⟩
  constructor
  · have hcontract := congrArg Contract.Manifest.objects hmatches.contract_eq
    rw [hsame.numbers.ofNamespace_graph hsame.examined hhome,
      hsame.otherNumbers.ofNamespace_graph hsame.otherExamined hmatches.partner_mem,
      ← hmatches.places.objectIds_eq] at hcontract
    exact List.map_inj_left.mp hcontract id hmem
  · rw [hmatches.places.objectIds_eq] at hmem
    rcases PlacedOutline.mem_objectIds_iff.mp hmem with ⟨place', object, hobject', hid'⟩
    have hplaced' := hsame.otherNumbers.sound.getElem?_of_place partner hmatches.partner_mem place'
      object hobject'
    have hspace : ((other.graph seen).object id).space = partner.outline.space := by
      rw [hid']
      exact space_graph _ hplaced'
    rw [hspace, ← hmatches.places.space_eq]
    exact space_graph id.index hplaced

/-- Outside of the graphs there are no objects to tell apart. -/
theorem object_eq_of_not_lt {id : ObjectId} (hid : ¬ id.index < (batch.graph found).objects.size) :
    (batch.graph found).object id = (other.graph seen).object id := by
  have hnone : (batch.graph found).objects[id.index]? = none := by
    rw [Array.getElem?_eq_none_iff]
    omega
  have hnone' : (other.graph seen).objects[id.index]? = none := by
    rw [Array.getElem?_eq_none_iff, ← hsame.size_eq]
    omega
  rw [Graph.object, Graph.object, Array.getD_eq_getD_getElem?, Array.getD_eq_getD_getElem?, hnone,
    hnone']

theorem qualifiedName_eq (id : ObjectId) :
    Contract.qualifiedName (batch.graph found) id =
      Contract.qualifiedName (other.graph seen) id := by
  by_cases hid : id.index < (batch.graph found).objects.size
  · rcases hsame.ofObject_eq hid with ⟨hobject, hspace⟩
    have hname := congrArg Contract.Object.name hobject
    rw [Contract.qualifiedName, Contract.qualifiedName, ObjectType.qualifiedName,
      ObjectType.qualifiedName, hspace]
    exact congrArg (fun name => _ ++ ":" ++ name) hname
  · rw [Contract.qualifiedName, Contract.qualifiedName, hsame.object_eq_of_not_lt hid]

theorem typeToken_eq (type : FieldType) :
    Contract.typeToken (batch.graph found) type = Contract.typeToken (other.graph seen) type := by
  induction type with
  | enum id => rw [Contract.typeToken, Contract.typeToken, Graph.enum, Graph.enum, hsame.enums_eq]
  | object id => rw [Contract.typeToken, Contract.typeToken, hsame.qualifiedName_eq]
  | array element ih => rw [Contract.typeToken, Contract.typeToken, ih]
  | _ => rfl

theorem knows_iff {type : FieldType} :
    (batch.graph found).Knows type ↔ (other.graph seen).Knows type := by
  induction type with
  | enum id => rw [Graph.Knows, Graph.Knows, hsame.enums_eq]
  | object id => rw [Graph.Knows, Graph.Knows, hsame.size_eq]
  | array element ih => exact ih
  | _ => exact Iff.rfl

theorem eq_of_typeToken {first second : FieldType} (hfirst : (batch.graph found).Knows first)
    (hsecond : (other.graph seen).Knows second)
    (htoken : Contract.typeToken (batch.graph found) first =
      Contract.typeToken (other.graph seen) second) : first = second := by
  rw [← hsame.typeToken_eq] at htoken
  exact hsame.numbers.eq_of_typeToken hfirst (hsame.knows_iff.mpr hsecond) htoken

theorem eq_of_qualifiedName {first second : ObjectId}
    (hfirst : first.index < (batch.graph found).objects.size)
    (hsecond : second.index < (other.graph seen).objects.size)
    (hname : Contract.qualifiedName (batch.graph found) first =
      Contract.qualifiedName (other.graph seen) second) : first = second := by
  rw [← hsame.qualifiedName_eq] at hname
  exact hsame.numbers.eq_of_qualifiedName hfirst (hsame.size_eq ▸ hsecond) hname

theorem eq_of_map_qualifiedName {first second : Option ObjectId}
    (hfirst : ∀ id, first = some id → id.index < (batch.graph found).objects.size)
    (hsecond : ∀ id, second = some id → id.index < (other.graph seen).objects.size)
    (hname : first.map (Contract.qualifiedName (batch.graph found)) =
      second.map (Contract.qualifiedName (other.graph seen))) : first = second := by
  cases first with
  | none =>
      cases second with
      | none => rfl
      | some id => cases hname
  | some id =>
      cases second with
      | none => cases hname
      | some partner =>
          rw [Option.map_some, Option.map_some, Option.some.injEq] at hname
          rw [hsame.eq_of_qualifiedName (hfirst id rfl) (hsecond partner rfl) hname]

theorem parent_eq (id : ObjectId) :
    ((batch.graph found).object id).parent = ((other.graph seen).object id).parent := by
  by_cases hid : id.index < (batch.graph found).objects.size
  · have hparent := congrArg Contract.Object.parent (hsame.ofObject_eq hid).1
    exact hsame.eq_of_map_qualifiedName ((hsame.numbers.closed_graph hsame.examined).parent id)
      ((hsame.otherNumbers.closed_graph hsame.otherExamined).parent id) hparent
  · rw [hsame.object_eq_of_not_lt hid]

/-! ## Fields -/

/-- What the contracts tell of the fields in the same place. -/
theorem ofField_eq {id : ObjectId} (hid : id.index < (batch.graph found).objects.size)
    (place : Nat) :
    ((batch.graph found).object id).fields[place]?.map (fun field =>
        Contract.ofField (batch.graph found) ((batch.graph found).object id).ownStart field place) =
      ((other.graph seen).object id).fields[place]?.map fun field =>
        Contract.ofField (other.graph seen) ((other.graph seen).object id).ownStart field
          place := by
  have hfields := congrArg (fun object => object.fields[place]?) (hsame.ofObject_eq hid).1
  simpa [Contract.ofObject, List.getElem?_zipIdx, Function.comp_def] using hfields

theorem length_fields_eq (id : ObjectId) :
    ((batch.graph found).object id).fields.length =
      ((other.graph seen).object id).fields.length := by
  by_cases hid : id.index < (batch.graph found).objects.size
  · have hfields := congrArg (fun object => object.fields.length) (hsame.ofObject_eq hid).1
    simpa [Contract.ofObject] using hfields
  · rw [hsame.object_eq_of_not_lt hid]

theorem lt_ownStart_iff {id : ObjectId} (hid : id.index < (batch.graph found).objects.size)
    (place : Nat) (hplace : place < ((batch.graph found).object id).fields.length) :
    place < ((batch.graph found).object id).ownStart ↔
      place < ((other.graph seen).object id).ownStart := by
  have hplace' := hsame.length_fields_eq id ▸ hplace
  have hfield := hsame.ofField_eq hid place
  rw [List.getElem?_eq_getElem hplace, List.getElem?_eq_getElem hplace', Option.map_some,
    Option.map_some, Option.some.injEq] at hfield
  exact decide_eq_decide.mp (congrArg Contract.Field.isInherited hfield)

theorem ownStart_eq (id : ObjectId) :
    ((batch.graph found).object id).ownStart = ((other.graph seen).object id).ownStart := by
  by_cases hid : id.index < (batch.graph found).objects.size
  · have hlength := hsame.length_fields_eq id
    have hfirst := ownStart_add_length_ownAt hsame.examined id.index
    have hsecond := ownStart_add_length_ownAt hsame.otherExamined id.index
    rw [show (⟨id.index⟩ : ObjectId) = id from rfl] at hfirst hsecond
    rcases Nat.lt_trichotomy ((batch.graph found).object id).ownStart
      ((other.graph seen).object id).ownStart with hless | hsame' | hless
    · have hiff := hsame.lt_ownStart_iff hid ((batch.graph found).object id).ownStart (by omega)
      exact absurd (hiff.mpr hless) (Nat.lt_irrefl _)
    · exact hsame'
    · have hiff := hsame.lt_ownStart_iff hid ((other.graph seen).object id).ownStart (by omega)
      exact absurd (hiff.mp hless) (Nat.lt_irrefl _)
  · rw [hsame.object_eq_of_not_lt hid]

theorem join_eq (number : Nat) : found.parents[number]?.join = seen.parents[number]?.join := by
  have hparent := hsame.parent_eq ⟨number⟩
  rw [parent_graph hsame.examined, parent_graph hsame.otherExamined] at hparent
  exact Option.map_injective (fun _ _ hid => congrArg ObjectId.index hid) hparent

theorem length_ownAt_eq (number : Nat) :
    (batch.ownAt number).length = (other.ownAt number).length := by
  have hfirst := ownStart_add_length_ownAt hsame.examined number
  have hsecond := ownStart_add_length_ownAt hsame.otherExamined number
  rw [hsame.ownStart_eq, hsame.length_fields_eq] at hfirst
  omega

/-- The contracts do not tell which ancestor declares a field, but how many fields each of them
declares. -/
theorem map_declaredIn_eq {id : ObjectId} (hid : id.index < (batch.graph found).objects.size) :
    ((batch.graph found).object id).fields.map (·.declaredIn) =
      ((other.graph seen).object id).fields.map (·.declaredIn) := by
  have hid' := hsame.size_eq ▸ hid
  rw [size_graph] at hid hid'
  rcases exists_map_declaredIn hsame.examined (List.getElem?_eq_getElem hid) with
    ⟨lineage, hlineage, hdeclared⟩
  rcases exists_map_declaredIn hsame.otherExamined (List.getElem?_eq_getElem hid') with
    ⟨line, hline, hdeclared'⟩
  rw [(hlineage.congr hsame.join_eq).eq_of_lineage hline] at hdeclared
  simp only [hsame.length_ownAt_eq] at hdeclared
  exact hdeclared.trans hdeclared'.symm

theorem fields_eq {id : ObjectId} (hid : id.index < (batch.graph found).objects.size) :
    ((batch.graph found).object id).fields = ((other.graph seen).object id).fields := by
  have hclosed := hsame.numbers.closed_graph hsame.examined
  have hclosed' := hsame.otherNumbers.closed_graph hsame.otherExamined
  have hdeclared := hsame.map_declaredIn_eq hid
  apply List.ext_getElem (hsame.length_fields_eq id)
  intro place hplace hplace'
  have hfield := hsame.ofField_eq hid place
  rw [List.getElem?_eq_getElem hplace, List.getElem?_eq_getElem hplace', Option.map_some,
    Option.map_some, Option.some.injEq, Contract.ofField, Contract.ofField,
    Contract.Field.mk.injEq] at hfield
  rcases hfield with ⟨hname, hkey, htoken, hoptional, -, hbit, -⟩
  have htype := hsame.eq_of_typeToken (hclosed.fieldType id _ (List.getElem_mem hplace))
    (hclosed'.fieldType id _ (List.getElem_mem hplace')) htoken
  have howner := congrArg (fun owners => owners[place]?) hdeclared
  simp only [List.getElem?_map, List.getElem?_eq_getElem hplace, List.getElem?_eq_getElem hplace',
    Option.map_some, Option.some.injEq] at howner
  exact (Field.mk.injEq ..).mpr ⟨hkey, hname, hoptional, htype, howner, hbit⟩

/-! ## Objects -/

theorem object_eq (id : ObjectId) :
    (batch.graph found).object id = (other.graph seen).object id := by
  by_cases hid : id.index < (batch.graph found).objects.size
  · have hid' := hsame.size_eq ▸ hid
    have hclosed := hsame.numbers.closed_graph hsame.examined
    have hclosed' := hsame.otherNumbers.closed_graph hsame.otherExamined
    have hfields := hsame.fields_eq hid
    rcases hsame.ofObject_eq hid with ⟨hobject, hspace⟩
    rw [Contract.ofObject, Contract.ofObject, Contract.Object.mk.injEq] at hobject
    rcases hobject with ⟨hname, htag, hrole, -, hroot, hkind, hpolymorphic, -, -, hwire, hresponse,
      hrequest, -⟩
    have hlayout :
        ((batch.graph found).object id).layout = ((other.graph seen).object id).layout := by
      rw [layout_graph, layout_graph, hfields, hpolymorphic, ObjectType.isPayload,
        ObjectType.isPayload, hrole]
    exact (ObjectType.mk.injEq ..).mpr ⟨hspace, htag, hname, hrole, hsame.parent_eq id,
      hsame.eq_of_qualifiedName (hclosed.root id hid) (hclosed'.root id hid') hroot, hfields,
      hsame.ownStart_eq id, hwire,
      hsame.eq_of_map_qualifiedName (hclosed.response id) (hclosed'.response id) hresponse,
      hsame.eq_of_map_qualifiedName (hclosed.request id) (hclosed'.request id) hrequest, hkind,
      hpolymorphic, hlayout⟩
  · exact hsame.object_eq_of_not_lt hid

theorem objects_eq : (batch.graph found).objects = (other.graph seen).objects := by
  apply Array.ext hsame.size_eq
  intro number hnumber hnumber'
  have hobject := hsame.object_eq ⟨number⟩
  rw [Graph.object, Graph.object, Array.getD_eq_getD_getElem?, Array.getD_eq_getD_getElem?,
    Array.getElem?_eq_getElem hnumber, Array.getElem?_eq_getElem hnumber'] at hobject
  exact hobject

/-! ## Tables and wire ids -/

theorem foundWireIds_eq : found.wireIds = seen.wireIds := by
  have hlisted {batch : Batch} {found : Findings} (hfound : batch.Examined found) :
      found.wireIds = (batch.graph found).objects.toList.map (·.wireId) := by
    apply List.ext_getElem?
    intro number
    rw [hfound.identified.ids_eq, List.getElem?_map, List.getElem?_map, Array.getElem?_toList,
      getElem?_objects_graph, Option.map_map]
    cases hplaced : batch.objects[number]? with
    | none => rfl
    | some placed =>
        have hwire := wireId_graph number hplaced hfound
        rw [object_graph _ hplaced] at hwire
        exact congrArg some hwire.symm
  rw [hlisted hsame.examined, hlisted hsame.otherExamined, hsame.objects_eq]

theorem wireIds_eq : (batch.graph found).wireIds = (other.graph seen).wireIds :=
  congrArg (idMap 0) hsame.foundWireIds_eq

/-- A contract tells a table apart from any other. -/
theorem eq_of_ofTable {first second : DispatchTable} (hfirst : first ∈ found.tables)
    (hsecond : second ∈ seen.tables)
    (htable : Contract.ofTable (batch.graph found) first =
      Contract.ofTable (other.graph seen) second) : first = second := by
  have hclosed := hsame.numbers.closed_graph hsame.examined
  have hclosed' := hsame.otherNumbers.closed_graph hsame.otherExamined
  rw [Contract.ofTable, Contract.ofTable, Contract.Dispatch.mk.injEq, ← List.forall₂_eq_eq_eq,
    List.forall₂_map_left_iff, List.forall₂_map_right_iff] at htable
  rcases htable with ⟨hname, hentries⟩
  have hroot : first.root = second.root :=
    hsame.eq_of_qualifiedName (hclosed.tableRoot first hfirst) (hclosed'.tableRoot second hsecond)
      hname
  have hmembers : first.members.entries = second.members.entries := by
    rw [← List.forall₂_eq_eq_eq]
    refine hentries.mp ?_ (Outcome.forall₂_mem hentries)
    rintro ⟨tag, id⟩ ⟨tag', id'⟩ hentry ⟨hmem, hmem', -⟩
    rw [Contract.DispatchEntry.mk.injEq] at hentry
    rcases hentry with ⟨rfl, hid⟩
    have hmember : id = id' :=
      hsame.eq_of_qualifiedName (hclosed.tableMember first hfirst _ hmem)
        (hclosed'.tableMember second hsecond _ hmem') hid
    rw [hmember]
  rcases first with ⟨root, members, hascending⟩
  rcases second with ⟨root', members', hascending'⟩
  cases hroot
  cases hmembers
  rfl

theorem tablesOf_eq {home partner : PlacedOutline}
    (hmatches : Matches batch other found seen home partner) :
    home.objectIds.filterMap (tableOf? found.tables) =
      partner.objectIds.filterMap (tableOf? seen.tables) := by
  have hdispatch := congrArg Contract.Manifest.dispatch hmatches.contract_eq
  rw [hsame.numbers.ofNamespace_graph hsame.examined hmatches.home_mem,
    hsame.otherNumbers.ofNamespace_graph hsame.otherExamined hmatches.partner_mem,
    ← List.forall₂_eq_eq_eq, List.forall₂_map_left_iff, List.forall₂_map_right_iff] at hdispatch
  rw [← List.forall₂_eq_eq_eq]
  refine hdispatch.mp ?_ (Outcome.forall₂_mem hdispatch)
  rintro first second htable ⟨hfirst, hsecond, -⟩
  rcases List.mem_filterMap.mp hfirst with ⟨_, -, hheld⟩
  rcases List.mem_filterMap.mp hsecond with ⟨_, -, hheld'⟩
  exact hsame.eq_of_ofTable (tableOf?_root hheld).1 (tableOf?_root hheld').1 htable

theorem tables_eq : (batch.graph found).tables = (other.graph seen).tables := by
  apply List.Pairwise.eq_of_mem_iff (r := fun first second : DispatchTable =>
    first.root.index < second.root.index)
  · exact hsame.examined.tabulated.inOrder
  · exact hsame.otherExamined.tabulated.inOrder
  · intro table
    have hall : batch.outlines.map (fun home => home.objectIds.filterMap (tableOf? found.tables)) =
        other.outlines.map fun home => home.objectIds.filterMap (tableOf? seen.tables) :=
      Outcome.map_eq_of_forall₂ hsame.forall₂_matches fun _ _ hmatches => hsame.tablesOf_eq hmatches
    have hflat := congrArg List.flatten hall
    rw [← List.flatMap_def, ← List.flatMap_def] at hflat
    exact (hsame.numbers.mem_tables_iff hsame.examined).trans
      (hflat ▸ (hsame.otherNumbers.mem_tables_iff hsame.otherExamined).symm)

theorem graph_eq : batch.graph found = other.graph seen :=
  (Graph.mk.injEq ..).mpr ⟨hsame.enums_eq, hsame.objects_eq, hsame.namespaces_eq, hsame.tables_eq,
    hsame.wireIds_eq⟩

end SameContracts

end Batch

namespace Graph

/-- Qualified names and tokens stand for one thing each. -/
structure Unambiguous (graph : Graph) : Prop where
  object : ∀ first second, first.index < graph.objects.size → second.index < graph.objects.size →
    Contract.qualifiedName graph first = Contract.qualifiedName graph second → first = second
  enum : ∀ first second, first.index < graph.enums.size → second.index < graph.enums.size →
    Contract.enumName graph first = Contract.enumName graph second → first = second
  apart : ∀ first second, first.index < graph.enums.size → second.index < graph.objects.size →
    Contract.enumName graph first ≠ Contract.qualifiedName graph second
  type : ∀ first second, graph.Knows first → graph.Knows second →
    Contract.typeToken graph first = Contract.typeToken graph second → first = second

theorem unambiguous_of_compile {documents : List Document} {graph : Graph}
    (hcompile : compile documents = .ok graph) : graph.Unambiguous := by
  rcases exists_batch_of_compile hcompile with ⟨outlines, batch, found, hnumbers, -, rfl⟩
  constructor
  · exact fun _ _ => hnumbers.eq_of_qualifiedName
  · exact fun _ _ => hnumbers.eq_of_enumName
  · exact fun _ _ => hnumbers.enumName_ne
  · exact fun _ _ => hnumbers.eq_of_typeToken

/-- Graphs with the same contracts are the same, and the names in a contract are unambiguous. -/
theorem eq_of_all_eq {documents others : List Document} {graph other : Graph}
    (hcompile : compile documents = .ok graph) (hother : compile others = .ok other) :
    (Contract.all graph = Contract.all other → graph = other) ∧ graph.Unambiguous := by
  constructor
  · intro hall
    rcases exists_batch_of_compile hcompile with ⟨outlines, batch, found, hnumbers, hfound, rfl⟩
    rcases exists_batch_of_compile hother with ⟨outlines', partner, seen, hnumbers', hseen, rfl⟩
    have hsame : Batch.SameContracts outlines outlines' batch partner found seen :=
      ⟨hnumbers, hnumbers', hfound, hseen, hall⟩
    exact hsame.graph_eq
  · exact unambiguous_of_compile hcompile

end Graph

namespace Sample

/-- A document of a namespace with a colon in its name. -/
def cargo : Document :=
  ⟨"dock:east", .object [
    ("crate", .object [("seal", .string "binary4"), ("?lid", .string "@crate")]),
    ("barrel@crate", .object [("hoops", .array [.string "uint8"])])]⟩

/-- The same document with a length written otherwise. -/
def cargoAgain : Document :=
  ⟨"dock:east", .object [
    ("crate", .object [("seal", .string "binary04"), ("?lid", .string "@crate")]),
    ("barrel@crate", .object [("hoops", .array [.string "uint8"])])]⟩

def eastDock : Namespace := ⟨"dock:east", [], [⟨0⟩, ⟨1⟩], [], [], []⟩

theorem objectIds_eastDock : Contract.objectIds eastDock = [⟨0⟩, ⟨1⟩] :=
  List.mergeSort_of_pairwise (by decide)

theorem all_eastDock {graph : Graph} (hspaces : graph.namespaces = [eastDock]) :
    Contract.all graph =
      [{ space := "dock:east"
         enums := []
         objects := [Contract.ofObject graph (graph.object ⟨0⟩),
           Contract.ofObject graph (graph.object ⟨1⟩)]
         dispatch :=
          (graph.tables.filter fun table => (graph.object table.root).space == "dock:east").map
            (Contract.ofTable graph)
         factory := (graph.factoryIds "dock:east").map fun (id, object) =>
          ⟨id, Contract.qualifiedName graph object⟩ }] := by
  have hcontract : Contract.ofGraph? graph eastDock.name =
      some (Contract.ofNamespace graph eastDock) := by
    rw [Contract.ofGraph?, Graph.namespace?, hspaces]
    rfl
  have hall : Contract.all graph = [Contract.ofNamespace graph eastDock] := by
    simp only [Contract.all, hspaces, List.filterMap_cons, List.filterMap_nil, hcontract]
  rw [hall, Contract.ofNamespace, objectIds_eastDock]
  rfl

theorem cargo_same :
    (schemaOf 1 [cargo]).graph = (schemaOf 1 [cargoAgain]).graph ∧
      (schemaOf 1 [cargo]).graph.Unambiguous := by
  have hcompile : Graph.compile [cargo] = .ok (schemaOf 1 [cargo]).graph :=
    compile_schemaOf 1 (by decide +kernel)
  have hagain : Graph.compile [cargoAgain] = .ok (schemaOf 1 [cargoAgain]).graph :=
    compile_schemaOf 1 (by decide +kernel)
  have hall : Contract.all (schemaOf 1 [cargo]).graph =
      Contract.all (schemaOf 1 [cargoAgain]).graph := by
    rw [all_eastDock (by decide +kernel), all_eastDock (by decide +kernel)]
    decide +kernel
  rcases Graph.eq_of_all_eq hcompile hagain with ⟨hsame, hunambiguous⟩
  exact ⟨hsame hall, hunambiguous⟩

end Sample

end WireSchema
