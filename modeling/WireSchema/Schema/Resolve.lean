import WireSchema.Schema.Graph
import WireSchema.Schema.Outline
import WireSchema.Schema.WireIds

/-!
# Resolving a batch

The outlines of a batch become one graph.  Objects are numbered through the batch, document by
document.  Resolution then goes through the batch once for each of these: parents, lineages,
field types, inherited fields, wire ids, kind tags.  The first fault of the first pass that finds
one is reported.
-/

namespace WireSchema

/-- An outline with the numbers of its first object and its first enum in the batch. -/
structure PlacedOutline where
  outline : Outline
  firstObject : Nat
  firstEnum : Nat

/-- An object of the batch with the outline it is declared in. -/
structure PlacedObject where
  home : PlacedOutline
  object : Declaration.Object

structure Batch where
  outlines : List PlacedOutline
  objects : List PlacedObject

namespace PlacedObject

def space (placed : PlacedObject) : String := placed.home.outline.space

def label (placed : PlacedObject) : String := placed.space ++ ":" ++ placed.object.tag

/-- The number of the response of a request. -/
def response? (placed : PlacedObject) : Option ObjectId :=
  placed.object.response.map fun index => ⟨placed.home.firstObject + index⟩

end PlacedObject

namespace Batch

def placeOutlines (firstObject firstEnum : Nat) : List Outline → List PlacedOutline
  | [] => []
  | outline :: rest =>
    ⟨outline, firstObject, firstEnum⟩ ::
      placeOutlines (firstObject + outline.objects.length) (firstEnum + outline.enums.length) rest

def repeatedSpace? (seen : List String) : List Outline → Option String
  | [] => none
  | outline :: rest =>
    if seen.contains outline.space then some outline.space
    else repeatedSpace? (outline.space :: seen) rest

def ofOutlines (outlines : List Outline) : Except SchemaError Batch :=
  match repeatedSpace? [] outlines with
  | some space => .error (.duplicateNamespace space)
  | none =>
    let placed := placeOutlines 0 0 outlines
    .ok ⟨placed, placed.flatMap fun home => home.outline.objects.map fun o => ⟨home, o⟩⟩

/-- The label of an object of the batch, by its number. -/
def label (batch : Batch) (index : Nat) : String :=
  match batch.objects[index]? with
  | some placed => placed.label
  | none => ""

def targetOutline (batch : Batch) (placed : PlacedObject) (link : Link) :
    Except SchemaError PlacedOutline :=
  match batch.outlines.find? (·.outline.space == link.space) with
  | some target => .ok target
  | none => .error (.unknownNamespace placed.space placed.object.tag link.space)

def parentOf (batch : Batch) (placed : PlacedObject) : Except SchemaError (Option Nat) :=
  match placed.object.parent with
  | none => .ok none
  | some link => do
    let target ← batch.targetOutline placed link
    match target.outline.objectIndex? link.tag with
    | some index => return some (target.firstObject + index)
    | none =>
      throw (.unresolvedReference placed.space placed.object.tag link.space link.tag .object)

/-- Climbs from the head of a chain to its root.  The chain is given with the object climbed to
first; the result begins with the root.  A parent that is already in the chain ends the climb with
the chain that closes on it.  Every step adds an object to the chain, so the steps suffice if there
are as many as objects. -/
def ascend (parents : List (Option Nat)) : Nat → List Nat → Nat → Except (List Nat) (List Nat)
  | 0, chain, _ => .ok chain
  | steps + 1, chain, current =>
    match parents[current]? with
    | some (some parent) =>
      if chain.contains parent then .error (parent :: chain)
      else ascend parents steps (parent :: chain) parent
    | _ => .ok chain

/-- The lineage of an object: its root first, then the descendants of which the next inherits,
and at last the object. -/
def lineageOf (batch : Batch) (parents : List (Option Nat)) (start : Nat) :
    Except SchemaError (List Nat) :=
  match ascend parents (parents.length + 1) [start] start with
  | .ok lineage => .ok lineage
  | .error chain => .error (.inheritanceCycle (chain.reverse.map batch.label))

/-- Resolves the type of a field.  A tag names an enum rather than an object. -/
def resolveShape (batch : Batch) (placed : PlacedObject) :
    Declaration.Shape → Except SchemaError FieldType
  | .primitive kind => .ok (.primitive kind)
  | .text => .ok .text
  | .binary length => .ok (.binary length)
  | .array element => (batch.resolveShape placed element).map .array
  | .embedded index => .ok (.object ⟨placed.home.firstObject + index⟩)
  | .link link => do
    let target ← batch.targetOutline placed link
    match target.outline.enumIndex? link.tag, target.outline.objectIndex? link.tag with
    | some index, _ => return .enum ⟨target.firstEnum + index⟩
    | none, some index => return .object ⟨target.firstObject + index⟩
    | none, none =>
      throw (.unresolvedReference placed.space placed.object.tag link.space link.tag .enumOrObject)

def resolveField (batch : Batch) (placed : PlacedObject) (id : ObjectId)
    (field : Declaration.Field) : Except SchemaError Field :=
  (batch.resolveShape placed field.shape).map fun type =>
    ⟨field.key, field.name, field.isOptional, type, id, none⟩

def ownFields (batch : Batch) (placed : PlacedObject) (index : Nat) :
    Except SchemaError (List Field) :=
  placed.object.fields.mapM (batch.resolveField placed ⟨index⟩)

/-- Adds the fields of an object to the inherited ones, of which none may have the same name. -/
def extendFields (batch : Batch) (index : Nat) (inherited : List Field) :
    List Field → Except SchemaError (List Field)
  | [] => .ok inherited
  | field :: rest =>
    match inherited.find? (·.name == field.name) with
    | some held =>
      let (space, owner) :=
        match batch.objects[index]? with
        | some placed => (placed.space, placed.object.tag)
        | none => ("", "")
      .error (.inheritedFieldConflict space owner field.name (batch.label held.declaredIn.index))
    | none => batch.extendFields index (inherited ++ [field]) rest

/-- Numbers the presence bits of the optional fields, from the given number on. -/
def numberFlags (bit : Nat) : List Field → List Field
  | [] => []
  | field :: rest =>
    if field.isOptional then { field with flagBit := some bit } :: numberFlags (bit + 1) rest
    else { field with flagBit := none } :: numberFlags bit rest

/-- All fields of an object on top of the inherited ones, and how many are inherited. -/
def flattenOn (batch : Batch) (own : List (List Field)) (inherited : List Field) (index : Nat) :
    Except SchemaError (List Field × Nat) := do
  let fields ← batch.extendFields index inherited ((own[index]?).getD [])
  return (numberFlags 0 fields, inherited.length)

/-- What is known while the objects are flattened: of those that are done, all fields, and how many
of them are inherited. -/
abbrev FlatTable := List (Option (List Field × Nat))

def FlatTable.flattened? (table : FlatTable) (index : Nat) : Option (List Field × Nat) :=
  table[index]?.join

/-- Walks up from the head of a chain to the first ancestor that is flattened.  The chain is given
with the object walked up to first; the result begins with the uppermost object that is not
flattened.  As in `ascend`, the steps suffice if there are as many as objects. -/
def pending (parents : List (Option Nat)) (table : FlatTable) : Nat → List Nat → Nat → List Nat
  | 0, chain, _ => chain
  | steps + 1, chain, current =>
    match parents[current]? with
    | some (some parent) =>
      if (table.flattened? parent).isSome then chain
      else pending parents table steps (parent :: chain) parent
    | _ => chain

/-- The fields of the parent of an object, from the table. -/
def inheritedFields (parents : List (Option Nat)) (table : FlatTable) (index : Nat) : List Field :=
  match parents[index]? with
  | some (some parent) => ((table.flattened? parent).getD ([], 0)).1
  | _ => []

/-- Flattens an object whose parent is flattened: its fields are those of the parent, then its own.
An object that is flattened is left as it is. -/
def flattenOne (batch : Batch) (parents : List (Option Nat)) (own : List (List Field))
    (table : FlatTable) (index : Nat) : Except SchemaError FlatTable :=
  if (table.flattened? index).isSome then .ok table
  else do
    let entry ← batch.flattenOn own (inheritedFields parents table index) index
    return table.set index (some entry)

/-- Flattens an object after its ancestors that are not yet flattened, the uppermost first. -/
def flattenFrom (batch : Batch) (parents : List (Option Nat)) (own : List (List Field))
    (table : FlatTable) (start : Nat) : Except SchemaError FlatTable :=
  (pending parents table (parents.length + 1) [start] start).foldlM
    (batch.flattenOne parents own) table

/-- All fields of each object, and how many of them are inherited. -/
def flattenFields (batch : Batch) (parents : List (Option Nat)) (own : List (List Field)) :
    Except SchemaError (List (List Field × Nat)) := do
  let table ← (List.range own.length).foldlM (batch.flattenFrom parents own)
    (List.replicate own.length none)
  return table.map (·.getD ([], 0))

/-- Assigns wire ids to the payloads among the objects, in their order. -/
def assignIds (ids : WireIds) : List PlacedObject → Except SchemaError (List (Option UInt32))
  | [] => .ok []
  | placed :: rest =>
    match placed.object.wireName with
    | none => (assignIds ids rest).map (none :: ·)
    | some name => do
      let (id, ids) ← ids.assign placed.space name (placed.space ++ ":" ++ name)
      return some id :: (← assignIds ids rest)

/-- The tables with a member added to the table of its root, which is made when it is missing.
Tables are kept in the order of their roots. -/
def addMember (root : ObjectId) (tag : UInt32) (id : ObjectId) :
    List DispatchTable → Except ObjectId (List DispatchTable)
  | [] => ((DispatchTable.ofRoot root).insert tag id).map ([·])
  | table :: rest =>
    if table.root = root then (table.insert tag id).map (· :: rest)
    else if root.index < table.root.index then
      ((DispatchTable.ofRoot root).insert tag id).map (· :: table :: rest)
    else (addMember root tag id rest).map (table :: ·)

/-- Builds the dispatch tables: an object with an ancestor is a member of the table of its root.
Each object is given with its number and its lineage. -/
def buildTables (batch : Batch) (tables : List DispatchTable) :
    List (PlacedObject × Nat × List Nat) → Except SchemaError (List DispatchTable)
  | [] => .ok tables
  | (placed, index, lineage) :: rest =>
    match lineage with
    | root :: _ :: _ =>
      let tag := Naming.wireHash placed.object.name
      match addMember ⟨root⟩ tag ⟨index⟩ tables with
      | .ok tables => batch.buildTables tables rest
      | .error holder =>
        .error (.kindTagCollision tag (batch.label root) (batch.label holder.index)
          (batch.label index))
    | _ => batch.buildTables tables rest

/-- What the passes over a batch find out about its objects, in their order. -/
structure Findings where
  parents : List (Option Nat)
  lineages : List (List Nat)
  fields : List (List Field × Nat)
  wireIds : List (Option UInt32)
  tables : List DispatchTable

/-- The request whose response is the object with the given number. -/
def requestOf? (batch : Batch) (index : Nat) : Option ObjectId :=
  (batch.objects.findIdx? fun placed => placed.response? == some ⟨index⟩).map ObjectId.mk

def objectType (batch : Batch) (found : Findings) (placed : PlacedObject) (index : Nat) :
    ObjectType :=
  let parent := (found.parents[index]?).getD none
  let (fields, ownStart) := (found.fields[index]?).getD ([], 0)
  let isPolymorphic := parent.isSome || found.tables.any (·.root.index == index)
  { space := placed.space
    tag := placed.object.tag
    name := placed.object.name
    role := placed.object.role
    parent := parent.map ObjectId.mk
    root := ⟨(((found.lineages[index]?).getD []).head?).getD index⟩
    fields := fields
    ownStart := ownStart
    wireId := (found.wireIds[index]?).getD none
    response := placed.response?
    request := batch.requestOf? index
    kindTag := if parent.isSome then Naming.wireHash placed.object.name else 0
    isPolymorphic := isPolymorphic
    layout := Layout.ofFields fields placed.object.role.isPayload isPolymorphic }

/-- The objects of an outline with the given roles, by their numbers in the batch. -/
def idsWithRoles (home : PlacedOutline) (roles : List Role) : List ObjectId :=
  home.outline.objects.zipIdx.filterMap fun (object, index) =>
    if roles.contains object.role then some ⟨home.firstObject + index⟩ else none

def namespaceOf (home : PlacedOutline) : Namespace :=
  { name := home.outline.space
    enums := (List.range home.outline.enums.length).map fun index => ⟨home.firstEnum + index⟩
    objects := idsWithRoles home [.object, .embedded]
    messages := idsWithRoles home [.message]
    requests := idsWithRoles home [.request]
    responses := idsWithRoles home [.response] }

def enumTypes (home : PlacedOutline) : List EnumType :=
  home.outline.enums.map fun e => ⟨home.outline.space, e.tag, e.name, e.values⟩

/-- The map from wire ids to payloads, from the ids of the objects with the given first number. -/
def idMap (index : Nat) : List (Option UInt32) → TagMap ObjectId
  | [] => .empty
  | some id :: rest => (idMap (index + 1) rest).insert id ⟨index⟩
  | none :: rest => idMap (index + 1) rest

def graph (batch : Batch) (found : Findings) : Graph :=
  { enums := (batch.outlines.flatMap enumTypes).toArray
    objects :=
      (batch.objects.zipIdx.map fun (placed, index) => batch.objectType found placed index).toArray
    namespaces := batch.outlines.map namespaceOf
    tables := found.tables
    wireIds := idMap 0 found.wireIds }

/-- The passes over a batch, in their order. -/
def examine (batch : Batch) : Except SchemaError Findings := do
  let parents ← batch.objects.mapM batch.parentOf
  let lineages ← (List.range batch.objects.length).mapM (batch.lineageOf parents)
  let own ← batch.objects.zipIdx.mapM fun (placed, index) => batch.ownFields placed index
  let fields ← batch.flattenFields parents own
  let wireIds ← assignIds .empty batch.objects
  let tables ← batch.buildTables [] (batch.objects.zip ((List.range lineages.length).zip lineages))
  return ⟨parents, lineages, fields, wireIds, tables⟩

end Batch

namespace Graph

/-- Resolves outlines that each passed the checks within their document. -/
def resolve (outlines : List Outline) : Except SchemaError Graph := do
  let batch ← Batch.ofOutlines outlines
  let found ← batch.examine
  return batch.graph found

def compile (documents : List Document) : Except SchemaError Graph := do
  resolve (← documents.mapM Outline.ofDocument)

end Graph
end WireSchema
