import WireSchema.Proofs.Examination
import WireSchema.Record.Typing

/-!
# Compiled graphs are coherent

What the passes find out about a batch makes the graph of it coherent.  Objects with a parent are
top-level objects, and so are their parents; hence payloads stand outside of all families.  The
table of a family holds every member but the root under its kind tag, and the root under tag zero.
-/

namespace WireSchema
namespace Batch

variable {batch : Batch} {found : Findings}

/-! ## Objects of the graph -/

theorem object_graph (number : Nat) {placed : PlacedObject}
    (hplaced : batch.objects[number]? = some placed) :
    (batch.graph found).object ⟨number⟩ = batch.objectType found placed number := by
  simp [graph, Graph.object, Array.getD_eq_getD_getElem?, List.getElem?_zipIdx, hplaced]

theorem object_graph_of_none (number : Nat) (hplaced : batch.objects[number]? = none) :
    (batch.graph found).object ⟨number⟩ = default := by
  simp [graph, Graph.object, Array.getD_eq_getD_getElem?, List.getElem?_zipIdx, hplaced]

theorem size_graph : (batch.graph found).objects.size = batch.objects.length := by
  simp [graph]

theorem isPayload_graph (number : Nat) {placed : PlacedObject}
    (hplaced : batch.objects[number]? = some placed) :
    ((batch.graph found).object ⟨number⟩).isPayload = placed.object.role.isPayload := by
  rw [object_graph _ hplaced]
  rfl

theorem exists_placed_of_isPayload {id : ObjectId}
    (hpayload : ((batch.graph found).object id).isPayload = true) :
    ∃ placed, batch.objects[id.index]? = some placed ∧ placed.object.role.isPayload = true := by
  cases hplaced : batch.objects[id.index]? with
  | none =>
      rw [object_graph_of_none id.index hplaced] at hpayload
      cases hpayload
  | some placed =>
      rw [isPayload_graph id.index hplaced] at hpayload
      exact ⟨placed, rfl, hpayload⟩

theorem layout_graph (id : ObjectId) :
    ((batch.graph found).object id).layout =
      .ofFields ((batch.graph found).object id).fields ((batch.graph found).object id).isPayload
        ((batch.graph found).object id).isPolymorphic := by
  obtain ⟨number⟩ := id
  cases hplaced : batch.objects[number]? with
  | none =>
      rw [object_graph_of_none _ hplaced]
      rfl
  | some placed =>
      rw [object_graph _ hplaced]
      rfl

theorem getElem?_parents_of_none (hfound : batch.Examined found) {number : Nat}
    (hplaced : batch.objects[number]? = none) : found.parents[number]? = none := by
  rw [List.getElem?_eq_none_iff] at hplaced ⊢
  rw [hfound.length_parents]
  exact hplaced

theorem parent_graph (hfound : batch.Examined found) (number : Nat) :
    ((batch.graph found).object ⟨number⟩).parent =
      found.parents[number]?.join.map ObjectId.mk := by
  cases hplaced : batch.objects[number]? with
  | none =>
      rw [object_graph_of_none _ hplaced, getElem?_parents_of_none hfound hplaced]
      rfl
  | some placed =>
      obtain ⟨parent, hparent, -⟩ := hfound.exists_parent number placed hplaced
      rw [object_graph _ hplaced, objectType, hparent]
      rfl

/-! ## Families -/

/-- What has a parent is a top-level object, and so is the parent. -/
theorem role_of_join (hbatch : batch.Sound) (hfound : batch.Examined found) {number parent : Nat}
    (hparent : found.parents[number]?.join = some parent) :
    (∃ placed, batch.objects[number]? = some placed ∧ placed.object.role = .object) ∧
      ∃ ancestor, batch.objects[parent]? = some ancestor ∧ ancestor.object.role = .object := by
  have hnumber : number < batch.objects.length := by
    rw [← hfound.length_parents]
    exact Lineage.lt_of_join hparent
  have hplaced := List.getElem?_eq_getElem hnumber
  obtain ⟨found', hfound', hrun⟩ := hfound.exists_parent number _ hplaced
  rw [hfound', Option.join_some] at hparent
  subst hparent
  obtain ⟨hrole, hancestor⟩ := role_of_parentOf hbatch hplaced hrun
  exact ⟨⟨_, hplaced, hrole⟩, hancestor⟩

/-- Every number has a lineage, which the findings hold if it is that of an object. -/
theorem exists_lineage (hfound : batch.Examined found) (number : Nat) :
    ∃ lineage, Lineage found.parents number lineage ∧ lineage.Nodup ∧
      ∀ placed, batch.objects[number]? = some placed →
        found.lineages[number]? = some lineage := by
  cases hplaced : batch.objects[number]? with
  | none =>
      have hnone := getElem?_parents_of_none hfound hplaced
      refine ⟨[number], .root (by rw [hnone]; rfl), by simp, ?_⟩
      intro placed hsome
      cases hsome
  | some placed =>
      obtain ⟨lineage, hlineage, hnodup, hchain⟩ := hfound.exists_lineage number placed hplaced
      exact ⟨lineage, hchain, hnodup, fun _ _ => hlineage⟩

theorem isA_graph_iff (hfound : batch.Examined found) {number : Nat} {ancestor : ObjectId}
    {lineage : List Nat} (hlineage : Lineage found.parents number lineage)
    (hnodup : lineage.Nodup) :
    (batch.graph found).isA ⟨number⟩ ancestor = true ↔ ancestor.index ∈ lineage := by
  refine Graph.isA_iff (parent_graph hfound) ?_ hlineage hnodup
  rw [hfound.length_parents, size_graph]

/-- An object without a parent is its only ancestor; one with a parent belongs to a family. -/
theorem isA_cases (hbatch : batch.Sound) (hfound : batch.Examined found) {id ancestor : ObjectId}
    (hisA : (batch.graph found).isA id ancestor = true) :
    (id = ancestor ∧ found.parents[id.index]?.join = none) ∨ ∃ placed parent root next more,
      batch.objects[id.index]? = some placed ∧ placed.object.role = .object ∧
        found.parents[id.index]?.join = some parent ∧
          found.lineages[id.index]? = some (root :: next :: more) ∧
            Lineage found.parents id.index (root :: next :: more) ∧
              ancestor.index ∈ root :: next :: more := by
  obtain ⟨lineage, hlineage, hnodup, hheld⟩ := exists_lineage hfound id.index
  have hmem := (isA_graph_iff hfound hlineage hnodup).mp hisA
  cases hlineage with
  | root hparent => exact .inl ⟨ObjectId.eq_of_index (List.mem_singleton.mp hmem).symm, hparent⟩
  | @child number parent above hparent habove =>
      obtain ⟨⟨placed, hplaced, hrole⟩, -⟩ := role_of_join hbatch hfound hparent
      obtain ⟨root, rest, rfl⟩ := List.exists_cons_of_ne_nil habove.ne_nil
      have hfamily : ∃ next more, root :: rest ++ [id.index] = root :: next :: more := by
        cases rest with
        | nil => exact ⟨id.index, [], rfl⟩
        | cons next rest => exact ⟨next, rest ++ [id.index], rfl⟩
      obtain ⟨next, more, hfamily⟩ := hfamily
      have hchain : Lineage found.parents id.index (root :: next :: more) := by
        rw [← hfamily]
        exact .child hparent habove
      refine .inr ⟨placed, parent, root, next, more, hplaced, hrole, hparent, ?_, hchain, ?_⟩
      · rw [← hfamily]
        exact hheld placed hplaced
      · rw [← hfamily]
        exact hmem

theorem any_root_eq (tables : List DispatchTable) (number : Nat) :
    tables.any (·.root.index == number) = (tableOf? tables ⟨number⟩).isSome := by
  induction tables with
  | nil => rfl
  | cons table rest ih =>
      rw [List.any_cons, tableOf?_cons, ih]
      by_cases hroot : table.root = ⟨number⟩
      · rw [if_pos hroot, hroot, beq_self_eq_true]
        rfl
      · have hindex : table.root.index ≠ number := fun hsame =>
          hroot (ObjectId.eq_of_index hsame)
        rw [if_neg hroot, beq_eq_false_iff_ne.mpr hindex, Bool.false_or]

theorem isPolymorphic_graph (number : Nat) {placed : PlacedObject}
    (hplaced : batch.objects[number]? = some placed) :
    ((batch.graph found).object ⟨number⟩).isPolymorphic =
      (found.parents[number]?.join.isSome || (tableOf? found.tables ⟨number⟩).isSome) := by
  rw [object_graph _ hplaced, ← any_root_eq]
  cases hparent : found.parents[number]? with
  | none => simp [objectType, hparent]
  | some parent => simp [objectType, hparent]

theorem root_graph (number : Nat) {root : Nat} {placed : PlacedObject} {below : List Nat}
    (hplaced : batch.objects[number]? = some placed)
    (hlineage : found.lineages[number]? = some (root :: below)) :
    ((batch.graph found).object ⟨number⟩).root = ⟨root⟩ := by
  rw [object_graph _ hplaced, objectType, hlineage]
  rfl

theorem kindTag_graph (number : Nat) {placed : PlacedObject}
    (hplaced : batch.objects[number]? = some placed) :
    ((batch.graph found).object ⟨number⟩).kindTag =
      if found.parents[number]?.join.isSome then Naming.wireHash placed.object.name
      else DispatchTable.rootTag := by
  rw [object_graph _ hplaced]
  cases hparent : found.parents[number]? with
  | none => simp [objectType, hparent, DispatchTable.rootTag]
  | some parent => simp [objectType, hparent, DispatchTable.rootTag]

theorem exists_table (hfound : batch.Examined found) {number root next : Nat}
    {placed : PlacedObject} {more : List Nat} (hplaced : batch.objects[number]? = some placed)
    (hlineage : found.lineages[number]? = some (root :: next :: more)) :
    ∃ table, tableOf? found.tables ⟨root⟩ = some table ∧
      table.members.find? (Naming.wireHash placed.object.name) = some ⟨number⟩ :=
  hfound.tabulated.find?_member placed number root next more
    (mem_entries_iff.mpr ⟨hplaced, hlineage⟩)

theorem exists_child_of_tableOf? (hfound : batch.Examined found) {root : ObjectId}
    {table : DispatchTable} (htable : tableOf? found.tables root = some table) :
    ∃ child : Nat, found.parents[child]?.join = some root.index := by
  obtain ⟨-, placed, index, next, more, hentry⟩ := hfound.tabulated.of_tableOf? root table htable
  obtain ⟨hplaced, hheld⟩ := mem_entries_iff.mp hentry
  obtain ⟨lineage, hlineage, -, hsame⟩ := exists_lineage hfound index
  rw [hsame placed hplaced, Option.some.injEq] at hheld
  subst hheld
  exact hlineage.exists_child

theorem not_isPolymorphic_of_isPayload (hbatch : batch.Sound) (hfound : batch.Examined found)
    {id : ObjectId} (hpayload : ((batch.graph found).object id).isPayload = true) :
    ((batch.graph found).object id).isPolymorphic = false := by
  obtain ⟨placed, hplaced, hrole⟩ := exists_placed_of_isPayload hpayload
  have hnot : ∀ other, batch.objects[id.index]? = some other → other.object.role ≠ .object := by
    intro other hother hobject
    rw [hplaced, Option.some.injEq] at hother
    subst hother
    rw [hobject] at hrole
    cases hrole
  have hparent : found.parents[id.index]?.join = none := by
    cases hjoin : found.parents[id.index]?.join with
    | none => rfl
    | some parent =>
        obtain ⟨⟨other, hother, hobject⟩, -⟩ := role_of_join hbatch hfound hjoin
        exact absurd hobject (hnot other hother)
  have htable : tableOf? found.tables id = none := by
    cases hfind : tableOf? found.tables id with
    | none => rfl
    | some table =>
        obtain ⟨child, hchild⟩ := exists_child_of_tableOf? hfound hfind
        obtain ⟨-, other, hother, hobject⟩ := role_of_join hbatch hfound hchild
        exact absurd hobject (hnot other hother)
  rw [isPolymorphic_graph id.index hplaced, hparent]
  exact congrArg Option.isSome htable

theorem isPayload_of_isA (hbatch : batch.Sound) (hfound : batch.Examined found)
    {id ancestor : ObjectId} (hisA : (batch.graph found).isA id ancestor = true)
    (hancestor : ((batch.graph found).object ancestor).isPayload = false) :
    ((batch.graph found).object id).isPayload = false := by
  rcases isA_cases hbatch hfound hisA with ⟨rfl, -⟩ | ⟨placed, -, -, -, -, hplaced, hrole, -⟩
  · exact hancestor
  · rw [isPayload_graph id.index hplaced, hrole]
    rfl

/-- An ancestor has a parent, or it is the root and owns the table. -/
theorem isPolymorphic_of_isA (hbatch : batch.Sound) (hfound : batch.Examined found)
    {id ancestor : ObjectId} (hisA : (batch.graph found).isA id ancestor = true) :
    ((batch.graph found).object id).isPolymorphic =
      ((batch.graph found).object ancestor).isPolymorphic := by
  rcases isA_cases hbatch hfound hisA with ⟨rfl, -⟩ |
    ⟨placed, parent, root, next, more, hplaced, hrole, hparent, hheld, hlineage, hmem⟩
  · rfl
  · have hid : ((batch.graph found).object id).isPolymorphic = true := by
      rw [isPolymorphic_graph id.index hplaced, hparent]
      rfl
    obtain ⟨above, habove, -⟩ := hlineage.exists_upper hmem
    rw [hid]
    cases hjoin : found.parents[ancestor.index]?.join with
    | some grandparent =>
        obtain ⟨⟨other, hother, -⟩, -⟩ := role_of_join hbatch hfound hjoin
        rw [isPolymorphic_graph ancestor.index hother, hjoin]
        rfl
    | none =>
        have hroot : root = ancestor.index := by
          have hhead := hlineage.head?_eq (.root hjoin) hmem
          simpa using hhead
        subst hroot
        obtain ⟨table, htable, -⟩ := exists_table hfound hplaced hheld
        obtain ⟨child, hchild⟩ := exists_child_of_tableOf? hfound htable
        obtain ⟨-, other, hother, -⟩ := role_of_join hbatch hfound hchild
        rw [isPolymorphic_graph ancestor.index hother, htable, Option.isSome_some,
          Bool.or_true]

theorem eq_of_isA (hbatch : batch.Sound) (hfound : batch.Examined found)
    {id ancestor : ObjectId} (hisA : (batch.graph found).isA id ancestor = true)
    (hancestor : ((batch.graph found).object ancestor).isPolymorphic = false) : id = ancestor := by
  rcases isA_cases hbatch hfound hisA with ⟨hsame, -⟩ |
    ⟨placed, parent, root, next, more, hplaced, hrole, hparent, -⟩
  · exact hsame
  · rw [← isPolymorphic_of_isA hbatch hfound hisA,
      isPolymorphic_graph id.index hplaced, hparent] at hancestor
    cases hancestor

theorem exists_placed_of_isPolymorphic {id : ObjectId}
    (hpolymorphic : ((batch.graph found).object id).isPolymorphic = true) :
    ∃ placed, batch.objects[id.index]? = some placed := by
  cases hplaced : batch.objects[id.index]? with
  | none =>
      rw [object_graph_of_none id.index hplaced] at hpolymorphic
      cases hpolymorphic
  | some placed => exact ⟨placed, rfl⟩

/-- A kind tag leads back to the member that has it, from every ancestor of the member. -/
theorem concreteType_kindTag (hbatch : batch.Sound) (hfound : batch.Examined found)
    {id ancestor : ObjectId} (hisA : (batch.graph found).isA id ancestor = true)
    (hpolymorphic : ((batch.graph found).object ancestor).isPolymorphic = true) :
    (batch.graph found).concreteType ancestor ((batch.graph found).object id).kindTag = id := by
  obtain ⟨relative, hrelative⟩ := exists_placed_of_isPolymorphic hpolymorphic
  obtain ⟨above, habove, -, hheldAbove⟩ := exists_lineage hfound ancestor.index
  have hheldAbove := hheldAbove relative hrelative
  rcases isA_cases hbatch hfound hisA with ⟨rfl, hparent⟩ |
    ⟨placed, parent, root, next, more, hplaced, hrole, hparent, hheld, hlineage, hmem⟩
  -- The root has tag zero, and a table only if some object inherits from it.
  · rw [habove.eq_of_lineage (.root hparent)] at hheldAbove
    have hroot : ((batch.graph found).object id).root = id :=
      root_graph id.index hrelative hheldAbove
    rw [kindTag_graph id.index hrelative, hparent, Option.isSome_none,
      if_neg Bool.false_ne_true]
    cases htable : (batch.graph found).table? id with
    | none =>
        rw [← hroot] at htable
        rw [Graph.concreteType_of_none htable (by rw [hroot]; exact hisA), hroot]
    | some table =>
        have hrootTag := (hfound.tabulated.of_tableOf? id table htable).1
        rw [← hroot] at htable
        exact Graph.concreteType_of_some htable hrootTag hisA
  -- Every other member stands in the table of the root, which is that of the ancestor as well.
  · obtain ⟨first, rest, rfl⟩ := List.exists_cons_of_ne_nil habove.ne_nil
    have hfirst : root = first := by
      have hhead := hlineage.head?_eq habove hmem
      simpa using hhead
    subst hfirst
    have hroot : ((batch.graph found).object ancestor).root = ⟨root⟩ :=
      root_graph ancestor.index hrelative hheldAbove
    obtain ⟨table, htable, hmember⟩ := exists_table hfound hplaced hheld
    rw [kindTag_graph id.index hplaced, hparent, Option.isSome_some, if_pos rfl]
    refine Graph.concreteType_of_some ?_ hmember hisA
    rw [hroot]
    exact htable

/-! ## Fields -/

theorem isPayload_target (hbatch : batch.Sound) (hfound : batch.Examined found) {id : ObjectId}
    {field : Field} (hfield : field ∈ ((batch.graph found).object id).fields) {target : ObjectId}
    (htarget : field.type.target? = some target) :
    ((batch.graph found).object target).isPayload = false := by
  obtain ⟨number⟩ := id
  cases hplaced : batch.objects[number]? with
  | none =>
      rw [object_graph_of_none _ hplaced] at hfield
      cases hfield
  | some placed =>
      rw [object_graph _ hplaced] at hfield
      change field ∈ (found.fields[number]?.getD ([], 0)).1 at hfield
      cases hentry : found.fields[number]? with
      | none =>
          rw [hentry] at hfield
          cases hfield
      | some entry =>
          rw [hentry] at hfield
          obtain ⟨owner, holder, declared, hholder, hdeclared, hresolve⟩ :=
            hfound.resolved (List.mem_of_getElem? hentry) hfield
          have hrefers := (hbatch.of_getElem? hholder).refers declared hdeclared
          obtain ⟨aim, haim, hrole⟩ :=
            isPayload_of_resolveShape hbatch hholder hrefers hresolve htarget
          rw [isPayload_graph target.index haim]
          exact hrole

/-! ## Wire ids -/

theorem wireId_graph (number : Nat) {placed : PlacedObject}
    (hplaced : batch.objects[number]? = some placed) (hfound : batch.Examined found) :
    ((batch.graph found).object ⟨number⟩).wireId =
      placed.object.wireName.map (WireIds.idOf placed.space) := by
  have hwireId : found.wireIds[number]? =
      some (placed.object.wireName.map (WireIds.idOf placed.space)) := by
    rw [hfound.identified.ids_eq, List.getElem?_map, hplaced, Option.map_some]
  rw [object_graph _ hplaced, objectType, hwireId]
  rfl

theorem byWireId?_graph_iff (hfound : batch.Examined found) {wire : UInt32} {id : ObjectId} :
    (batch.graph found).byWireId? wire = some id ↔ Assigned found.wireIds wire id.index := by
  have hfind := find?_idMap_iff hfound.identified.distinct 0 wire id
  refine hfind.trans ?_
  constructor
  · rintro ⟨place, hplace, rfl⟩
    rw [Nat.zero_add]
    exact hplace
  · intro hplace
    exact ⟨id.index, hplace, by rw [Nat.zero_add]⟩

/-- The wire id of an object is assigned to its number, and only payloads have one. -/
theorem assigned_iff (hbatch : batch.Sound) (hfound : batch.Examined found) {wire : UInt32}
    {id : ObjectId} :
    Assigned found.wireIds wire id.index ↔
      ((batch.graph found).object id).isPayload = true ∧
        ((batch.graph found).object id).wireId = some wire := by
  obtain ⟨number⟩ := id
  cases hplaced : batch.objects[number]? with
  | none =>
      rw [object_graph_of_none _ hplaced, Assigned, hfound.identified.ids_eq, List.getElem?_map,
        hplaced]
      constructor
      · intro hnone
        cases hnone
      · rintro ⟨hpayload, -⟩
        cases hpayload
  | some placed =>
      rw [isPayload_graph _ hplaced, wireId_graph _ hplaced hfound, Assigned,
        hfound.identified.ids_eq, List.getElem?_map, hplaced,
        (hbatch.of_getElem? hplaced).isPayload_eq]
      cases hname : placed.object.wireName <;> simp [hname]

theorem byWireId?_graph (hbatch : batch.Sound) (hfound : batch.Examined found) {wire : UInt32}
    {id : ObjectId} :
    (batch.graph found).byWireId? wire = some id ↔
      ((batch.graph found).object id).isPayload = true ∧
        ((batch.graph found).object id).wireId = some wire :=
  (byWireId?_graph_iff hfound).trans (assigned_iff hbatch hfound)

theorem exists_wireId (hbatch : batch.Sound) (hfound : batch.Examined found) {id : ObjectId}
    (hpayload : ((batch.graph found).object id).isPayload = true) :
    ∃ wire, ((batch.graph found).object id).wireId = some wire ∧
      (batch.graph found).byWireId? wire = some id := by
  obtain ⟨placed, hplaced, hrole⟩ := exists_placed_of_isPayload hpayload
  rw [(hbatch.of_getElem? hplaced).isPayload_eq] at hrole
  obtain ⟨name, hname⟩ := Option.isSome_iff_exists.mp hrole
  have hwire : ((batch.graph found).object id).wireId = some (WireIds.idOf placed.space name) := by
    rw [wireId_graph id.index hplaced hfound, hname, Option.map_some]
  exact ⟨_, hwire, (byWireId?_graph hbatch hfound).mpr ⟨hpayload, hwire⟩⟩

/-! ## Factories -/

theorem mem_idsWithRoles_iff {home : PlacedOutline} {roles : List Role} {id : ObjectId} :
    id ∈ idsWithRoles home roles ↔
      ∃ place object, home.outline.objects[place]? = some object ∧ object.role ∈ roles ∧
        id = ⟨home.firstObject + place⟩ := by
  rw [idsWithRoles, List.mem_filterMap]
  constructor
  · rintro ⟨⟨object, place⟩, hobject, hid⟩
    dsimp only at hid
    split at hid
    next hrole =>
      cases hid
      exact ⟨place, object, List.mem_zipIdx_iff_getElem?.mp hobject,
        List.contains_iff_mem.mp hrole, rfl⟩
    next => cases hid
  · rintro ⟨place, object, hobject, hrole, rfl⟩
    refine ⟨(object, place), List.mem_zipIdx_iff_getElem?.mpr hobject, ?_⟩
    dsimp only
    rw [if_pos (List.contains_iff_mem.mpr hrole)]

theorem mem_payloads_iff {home : PlacedOutline} {id : ObjectId} :
    id ∈ (namespaceOf home).payloads ↔
      ∃ place object, home.outline.objects[place]? = some object ∧
        object.role.isPayload = true ∧ id = ⟨home.firstObject + place⟩ := by
  have hroles : ∀ role : Role, role.isPayload = true ↔
      role ∈ [Role.message] ∨ role ∈ [Role.request] ∨ role ∈ [Role.response] := by
    intro role
    cases role <;> simp [Role.isPayload]
  simp only [Namespace.payloads, namespaceOf, List.mem_append, mem_idsWithRoles_iff, hroles]
  constructor
  · rintro ((⟨place, object, hobject, hrole, hid⟩ | ⟨place, object, hobject, hrole, hid⟩) |
      ⟨place, object, hobject, hrole, hid⟩)
    · exact ⟨place, object, hobject, .inl hrole, hid⟩
    · exact ⟨place, object, hobject, .inr (.inl hrole), hid⟩
    · exact ⟨place, object, hobject, .inr (.inr hrole), hid⟩
  · rintro ⟨place, object, hobject, hrole | hrole | hrole, hid⟩
    · exact .inl (.inl ⟨place, object, hobject, hrole, hid⟩)
    · exact .inl (.inr ⟨place, object, hobject, hrole, hid⟩)
    · exact .inr ⟨place, object, hobject, hrole, hid⟩

theorem mem_allFactoryIds_iff (hbatch : batch.Sound) (hfound : batch.Examined found)
    {wire : UInt32} {id : ObjectId} :
    (wire, id) ∈ (batch.graph found).allFactoryIds ↔
      (batch.graph found).byWireId? wire = some id := by
  rw [byWireId?_graph hbatch hfound, Graph.allFactoryIds, List.mem_flatMap]
  constructor
  · rintro ⟨space, hspace, hid⟩
    obtain ⟨home, hhome, rfl⟩ := List.mem_map.mp hspace
    obtain ⟨payload, hpayload, hwire⟩ := List.mem_filterMap.mp hid
    obtain ⟨other, hother, hsame⟩ := Option.map_eq_some_iff.mp hwire
    cases hsame
    obtain ⟨place, object, hobject, hrole, rfl⟩ := mem_payloads_iff.mp hpayload
    have hplaced := hbatch.getElem?_of_place home hhome place object hobject
    exact ⟨(isPayload_graph _ hplaced).trans hrole, hother⟩
  · rintro ⟨hpayload, hwire⟩
    obtain ⟨placed, hplaced, hrole⟩ := exists_placed_of_isPayload hpayload
    obtain ⟨hhome, place, hobject, hnumber⟩ := hbatch.exists_place id.index placed hplaced
    refine ⟨namespaceOf placed.home, List.mem_map_of_mem hhome, ?_⟩
    refine List.mem_filterMap.mpr ⟨id, mem_payloads_iff.mpr ?_, ?_⟩
    · exact ⟨place, placed.object, hobject, hrole, ObjectId.eq_of_index hnumber⟩
    · rw [hwire, Option.map_some]

theorem coherent_graph (hbatch : batch.Sound) (hfound : batch.Examined found) :
    (batch.graph found).Coherent where
  layout_eq := layout_graph
  exists_wireId _ hpayload := exists_wireId hbatch hfound hpayload
  of_byWireId? _ _ hfind := (byWireId?_graph hbatch hfound).mp hfind
  mem_allFactoryIds _ _ := mem_allFactoryIds_iff hbatch hfound
  isPolymorphic_payload _ hpayload := not_isPolymorphic_of_isPayload hbatch hfound hpayload
  isPayload_target _ _ hfield _ htarget := isPayload_target hbatch hfound hfield htarget
  isPayload_of_isA _ _ hisA hancestor := isPayload_of_isA hbatch hfound hisA hancestor
  isPolymorphic_of_isA _ _ hisA := isPolymorphic_of_isA hbatch hfound hisA
  eq_of_isA _ _ hisA hancestor := eq_of_isA hbatch hfound hisA hancestor
  concreteType_kindTag _ _ hisA hpolymorphic :=
    concreteType_kindTag hbatch hfound hisA hpolymorphic

end Batch

/-- Every graph that is compiled is coherent. -/
theorem Graph.coherent_of_compile {documents : List Document} {graph : Graph}
    (hcompile : Graph.compile documents = .ok graph) : graph.Coherent := by
  unfold Graph.compile at hcompile
  obtain ⟨outlines, houtlines, hcompile⟩ := Outcome.bind_eq_ok hcompile
  unfold Graph.resolve at hcompile
  obtain ⟨batch, hbatch, hcompile⟩ := Outcome.bind_eq_ok hcompile
  obtain ⟨found, hfound, hcompile⟩ := Outcome.bind_eq_ok hcompile
  cases hcompile
  refine Batch.coherent_graph (Batch.sound_ofOutlines hbatch ?_) (Batch.examined_of_examine hfound)
  intro outline houtline
  obtain ⟨document, -, hread⟩ := Outcome.exists_mem_of_mapM houtlines houtline
  exact Outline.sound_ofDocument hread

/-! ## Schemas of documents -/

namespace Sample

/-- The schema that documents are compiled into; it has no types if they are refused. -/
def schemaOf (number : Nat) (documents : List Document) : Schema :=
  ⟨number, match Graph.compile documents with
    | .ok graph => graph
    | .error _ => ⟨#[], #[], [], [], .empty⟩⟩

theorem compile_schemaOf (number : Nat) {documents : List Document}
    (haccepted : (Graph.compile documents).isOk = true) :
    Graph.compile documents = .ok (schemaOf number documents).graph := by
  unfold schemaOf
  cases hcompile : Graph.compile documents with
  | ok graph => rfl
  | error fault =>
      rw [hcompile] at haccepted
      cases haccepted

/-! ## A schema of trees

A document with a family of two and a message that holds a member of it. -/

def documents : List Document :=
  [⟨"tree", .object [
    ("color", .array [.string "red", .string "black"]),
    ("node", .object [("?next", .string "@node"), ("hash", .string "binary4")]),
    ("leaf@node", .object [
      ("tags", .array [.array [.string "string"]]),
      ("?weight", .string "float"),
      ("color", .string "@color")]),
    ("walk", .array [.object [("head", .string "@node"), ("at", .string "datetime")]])]⟩]

def schema : Schema :=
  ⟨1, match Graph.compile documents with
    | .ok graph => graph
    | .error _ => ⟨#[], #[], [], [], .empty⟩⟩

theorem compile_documents : Graph.compile documents = .ok schema.graph :=
  compile_schemaOf 1 (by decide +kernel)

end Sample

end WireSchema
