import WireSchema.Proofs.Listing

/-!
# Namespaces of a graph

The numbers of a document's declarations follow one another in the graph.  A namespace therefore
lists what the graph holds of its document, in the order of the numbers, and together the namespaces
list every declaration once.
-/

namespace WireSchema

namespace Graph

def objectIds (graph : Graph) : List ObjectId := (List.range graph.objects.size).map ObjectId.mk

def enumIds (graph : Graph) : List EnumId := (List.range graph.enums.size).map EnumId.mk

/-- The objects of a namespace that have one of some roles. -/
def objectsWith (graph : Graph) (space : String) (roles : List Role) : List ObjectId :=
  graph.objectIds.filter fun id =>
    (graph.object id).space == space && roles.contains (graph.object id).role

def enumsOf (graph : Graph) (space : String) : List EnumId :=
  graph.enumIds.filter fun id => (graph.enum id).space == space

variable {graph : Graph}

theorem mem_objectIds_iff {id : ObjectId} : id ∈ graph.objectIds ↔ id.index < graph.objects.size := by
  rw [objectIds, List.mem_map]
  constructor
  · rintro ⟨number, hnumber, rfl⟩
    exact List.mem_range.mp hnumber
  · exact fun hid => ⟨id.index, List.mem_range.mpr hid, rfl⟩

theorem mem_enumIds_iff {id : EnumId} : id ∈ graph.enumIds ↔ id.index < graph.enums.size := by
  rw [enumIds, List.mem_map]
  constructor
  · rintro ⟨number, hnumber, rfl⟩
    exact List.mem_range.mp hnumber
  · exact fun hid => ⟨id.index, List.mem_range.mpr hid, rfl⟩

theorem mem_objectsWith_iff {space : String} {roles : List Role} {id : ObjectId} :
    id ∈ graph.objectsWith space roles ↔ id.index < graph.objects.size ∧
      (graph.object id).space = space ∧ (graph.object id).role ∈ roles := by
  simp [objectsWith, mem_objectIds_iff]

end Graph

namespace Batch

variable {batch : Batch} {outlines : List Outline} {found : Findings}

/-- Consecutive outlines have consecutive numbers. -/
theorem flatMap_range_eq {α β : Type} {first : PlacedOutline → Nat} {items : PlacedOutline → List α}
    {start : Nat} {homes : List PlacedOutline} (hhomes : Consecutive first items start homes)
    (f : Nat → β) :
    (homes.flatMap fun home => (List.range (items home).length).map fun place =>
        f (first home + place)) =
      (List.range (homes.flatMap items).length).map fun number => f (start + number) := by
  induction hhomes with
  | nil => rfl
  | cons hrest ih =>
      rw [List.flatMap_cons, ih, List.flatMap_cons, List.length_append, List.range_add,
        List.map_append, List.map_map]
      simp only [Function.comp_def, Nat.add_assoc]

namespace Numbers

variable (hnumbers : batch.Numbers outlines)

include hnumbers

theorem flatMap_objectIds :
    batch.outlines.flatMap PlacedOutline.objectIds = (batch.graph found).objectIds := by
  have hconsecutive := consecutive_objectsIn outlines 0 0
  rw [← hnumbers.outlines_eq] at hconsecutive
  have hall := flatMap_range_eq hconsecutive ObjectId.mk
  simp only [Nat.zero_add] at hall
  rw [Graph.objectIds, size_graph, hnumbers.objects_eq, ← hall]
  simp only [objectsIn, List.length_map]
  rfl

theorem flatMap_enums :
    ((batch.graph found).namespaces.flatMap (·.enums)) = (batch.graph found).enumIds := by
  have hconsecutive := consecutive_enumTypes outlines 0 0
  rw [← hnumbers.outlines_eq] at hconsecutive
  have hall := flatMap_range_eq hconsecutive EnumId.mk
  simp only [Nat.zero_add] at hall
  have hspaces : (batch.graph found).namespaces = batch.outlines.map namespaceOf := rfl
  have henums : (batch.graph found).enums.size = (batch.outlines.flatMap enumTypes).length := rfl
  rw [Graph.enumIds, henums, ← hall, hspaces, List.flatMap_map]
  simp only [enumTypes, List.length_map]
  rfl

variable (found) in
theorem idsWithRoles_eq_filter {home : PlacedOutline} (hhome : home ∈ batch.outlines)
    (roles : List Role) :
    idsWithRoles home roles =
      home.objectIds.filter fun id => roles.contains ((batch.graph found).object id).role := by
  apply List.Pairwise.eq_of_mem_iff (r := fun first second : ObjectId =>
    first.index < second.index)
  · exact home.pairwise_objectIds.sublist (idsWithRoles_sublist home roles)
  · exact home.pairwise_objectIds.filter _
  · intro id
    have hrole {place : Nat} {object : Declaration.Object}
        (hobject : home.outline.objects[place]? = some object) :
        ((batch.graph found).object (home.objectAt place)).role = object.role := by
      have hplaced := hnumbers.sound.getElem?_of_place home hhome place object hobject
      rw [PlacedOutline.objectAt, object_graph _ hplaced]
      rfl
    rw [mem_idsWithRoles_iff, List.mem_filter, PlacedOutline.mem_objectIds_iff]
    constructor
    · rintro ⟨place, object, hobject, hmem, rfl⟩
      refine ⟨⟨place, object, hobject, rfl⟩, ?_⟩
      rw [List.contains_iff_mem]
      exact (hrole hobject).symm ▸ hmem
    · rintro ⟨⟨place, object, hobject, rfl⟩, hmem⟩
      rw [List.contains_iff_mem, hrole hobject] at hmem
      exact ⟨place, object, hobject, hmem, rfl⟩

theorem flatMap_idsWithRoles (roles : List Role) :
    batch.outlines.flatMap (idsWithRoles · roles) =
      (batch.graph found).objectIds.filter fun id =>
        roles.contains ((batch.graph found).object id).role := by
  rw [← hnumbers.flatMap_objectIds, List.filter_flatMap]
  apply List.flatMap_congr
  exact fun home hhome => hnumbers.idsWithRoles_eq_filter found hhome roles

variable (found) in
theorem objectIds_eq_filter {home : PlacedOutline} (hhome : home ∈ batch.outlines) :
    home.objectIds = (batch.graph found).objectIds.filter fun id =>
      ((batch.graph found).object id).space == home.outline.space := by
  apply List.Pairwise.eq_of_mem_iff (r := fun first second : ObjectId =>
    first.index < second.index)
  · exact home.pairwise_objectIds
  · apply List.Pairwise.filter
    rw [Graph.objectIds, List.pairwise_map]
    exact List.pairwise_lt_range
  · intro id
    rw [List.mem_filter, PlacedOutline.mem_objectIds_iff, Graph.mem_objectIds_iff, size_graph]
    constructor
    · rintro ⟨place, object, hobject, rfl⟩
      have hplaced := hnumbers.sound.getElem?_of_place home hhome place object hobject
      refine ⟨(List.getElem?_eq_some_iff.mp hplaced).1, ?_⟩
      rw [PlacedOutline.objectAt, space_graph _ hplaced]
      exact beq_self_eq_true _
    · rintro ⟨hlt, hspace⟩
      have hplaced := List.getElem?_eq_getElem hlt
      rcases hnumbers.sound.exists_place id.index _ hplaced with ⟨hmem, place, hobject, hnumber⟩
      have hspace := (space_graph id.index hplaced).symm.trans (eq_of_beq hspace)
      rw [hnumbers.home_eq_of_space hmem hhome hspace] at hobject hnumber
      exact ⟨place, _, hobject, ObjectId.eq_of_index hnumber⟩

/-- A namespace lists the objects with some roles that the graph has for it. -/
theorem idsWithRoles_eq {home : PlacedOutline} (hhome : home ∈ batch.outlines)
    (roles : List Role) :
    idsWithRoles home roles = (batch.graph found).objectsWith home.outline.space roles := by
  rw [hnumbers.idsWithRoles_eq_filter found hhome, hnumbers.objectIds_eq_filter found hhome,
    List.filter_filter, Graph.objectsWith]
  simp only [Bool.and_comm]

theorem enums_namespaceOf {home : PlacedOutline} (hhome : home ∈ batch.outlines) :
    (namespaceOf home).enums = (batch.graph found).enumsOf home.outline.space := by
  apply List.Pairwise.eq_of_mem_iff (r := fun first second : EnumId =>
    first.index < second.index)
  · rw [namespaceOf, List.pairwise_map]
    apply List.pairwise_lt_range.imp
    intro first second hless
    exact Nat.add_lt_add_left hless _
  · apply List.Pairwise.filter
    rw [Graph.enumIds, List.pairwise_map]
    exact List.pairwise_lt_range
  · intro id
    rw [Graph.enumsOf, List.mem_filter, Graph.mem_enumIds_iff, namespaceOf, List.mem_map]
    constructor
    · rintro ⟨place, hplace, rfl⟩
      have hdeclared := List.getElem?_eq_getElem (List.mem_range.mp hplace)
      have htype : (batch.graph found).enums[home.firstEnum + place]? = _ :=
        hnumbers.getElem?_enums hhome hdeclared
      have henum : (batch.graph found).enum ⟨home.firstEnum + place⟩ = _ :=
        hnumbers.enum_graph hhome hdeclared
      rw [henum]
      exact ⟨(Array.getElem?_eq_some_iff.mp htype).1, beq_self_eq_true _⟩
    · rintro ⟨hlt, hspace⟩
      rcases hnumbers.exists_enum_place (Array.getElem?_eq_getElem hlt) with
        ⟨other, hother, place, declared, hdeclared, hnumber, htype⟩
      rw [Graph.enum, Array.getD_eq_getD_getElem?, Array.getElem?_eq_getElem hlt,
        Option.getD_some, htype] at hspace
      rw [hnumbers.home_eq_of_space hother hhome (eq_of_beq hspace)] at hdeclared hnumber
      exact ⟨place, List.mem_range.mpr (List.getElem?_eq_some_iff.mp hdeclared).1,
        congrArg EnumId.mk hnumber.symm⟩

end Numbers

end Batch
end WireSchema
