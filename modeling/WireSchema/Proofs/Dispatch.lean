import WireSchema.Proofs.BatchOrder
import WireSchema.Proofs.RoundTrip

/-!
# Dispatch

The kind tags of a compiled graph tell the members of a family apart.  A table stands for a family
of at least two members and holds each of them under its tag, and decoding goes by the tag exactly
where encoding writes one.
-/

namespace WireSchema

open Relation (ReflTransGen TransGen)

namespace Graph

/-- One object inherits from another one, through any number of parents. -/
def Descends (graph : Graph) (id ancestor : ObjectId) : Prop :=
  TransGen (fun child parent => (graph.object child).parent = some parent) id ancestor

def IsKindOf (graph : Graph) (id ancestor : ObjectId) : Prop :=
  id = ancestor ∨ graph.Descends id ancestor

/-- Two objects belong to the same family. -/
def Kin (graph : Graph) (first second : ObjectId) : Prop :=
  ∃ above, graph.IsKindOf first above ∧ graph.IsKindOf second above

/-- Tables and tags of a graph describe its families, and nothing else. -/
structure DispatchesExactly (graph : Graph) : Prop where
  owner_iff : ∀ id, (∃ table ∈ graph.tables, table.root = id) ↔
    (graph.object id).parent = none ∧ ∃ member, graph.Descends member id
  entry_iff : ∀ table ∈ graph.tables, ∀ tag member, (tag, member) ∈ table.members.entries ↔
    (tag = 0 ∧ member = table.root) ∨
      (graph.Descends member table.root ∧ tag = (graph.object member).kindTag)
  kindTag_root : ∀ id, (graph.object id).parent = none → (graph.object id).kindTag = 0
  kindTag_ne_zero : ∀ id ancestor, graph.Descends id ancestor → (graph.object id).kindTag ≠ 0
  eq_of_kindTag : ∀ first second, graph.Kin first second →
    (graph.object first).kindTag = (graph.object second).kindTag → first = second
  isPolymorphic_iff : ∀ id, (graph.object id).isPolymorphic = true ↔
    ∃ relative, relative ≠ id ∧ graph.Kin id relative
  isA_iff : ∀ id declared, graph.isA id declared = true ↔ graph.IsKindOf id declared
  /-- A kind tag is written if and only if one is read. -/
  hasKindTag_eq : ∀ id declared, graph.IsKindOf id declared →
    (graph.object id).layout.hasKindTag = (graph.object declared).isPolymorphic
  recovers : ∀ id declared, graph.IsKindOf id declared →
    Reading.Recovers (graph.readConcreteType declared) (graph.object id).kindTagBytes id
  selects_kind : ∀ declared tag, graph.IsKindOf (graph.concreteType declared tag) declared
  selects : ∀ declared, (graph.object declared).isPolymorphic = true → ∀ id,
    graph.IsKindOf id declared → graph.concreteType declared (graph.object id).kindTag = id

theorem Coherent.recovers_kindTagBytes {graph : Graph} (hgraph : graph.Coherent)
    {id declared : ObjectId} (hisA : graph.isA id declared = true) :
    Reading.Recovers (graph.readConcreteType declared) (graph.object id).kindTagBytes id := by
  have hschema : (Schema.mk 0 graph).graph.Coherent := hgraph
  exact recovers_readConcreteType hschema hisA

end Graph

namespace Batch

variable {batch : Batch} {outlines : List Outline} {found : Findings}

section Ancestors

variable (hfound : batch.Examined found)

include hfound

theorem parent_graph_eq_some_iff {id parent : ObjectId} :
    ((batch.graph found).object id).parent = some parent ↔
      Up found.parents id.index parent.index := by
  have hparent := parent_graph hfound id.index
  change ((batch.graph found).object id).parent = _ at hparent
  rw [hparent, Option.map_eq_some_iff, Up]
  constructor
  · rintro ⟨number, hnumber, rfl⟩
    exact hnumber
  · exact fun hup => ⟨parent.index, hup, rfl⟩

theorem parent_graph_eq_none_iff {id : ObjectId} :
    ((batch.graph found).object id).parent = none ↔ found.parents[id.index]?.join = none := by
  have hparent := parent_graph hfound id.index
  change ((batch.graph found).object id).parent = _ at hparent
  rw [hparent, Option.map_eq_none_iff]

theorem descends_iff {id ancestor : ObjectId} :
    (batch.graph found).Descends id ancestor ↔
      TransGen (Up found.parents) id.index ancestor.index := by
  constructor
  · intro hpath
    induction hpath with
    | single hparent => exact .single ((parent_graph_eq_some_iff hfound).mp hparent)
    | tail _ hparent ih => exact ih.tail ((parent_graph_eq_some_iff hfound).mp hparent)
  · intro hpath
    have hlift : ∀ number, TransGen (Up found.parents) id.index number →
        (batch.graph found).Descends id ⟨number⟩ := by
      intro number hnumber
      induction hnumber with
      | single hup => exact .single ((parent_graph_eq_some_iff hfound).mpr hup)
      | tail _ hup ih => exact .tail ih ((parent_graph_eq_some_iff hfound).mpr hup)
    exact hlift ancestor.index hpath

theorem isKindOf_iff {id ancestor : ObjectId} :
    (batch.graph found).IsKindOf id ancestor ↔
      ReflTransGen (Up found.parents) id.index ancestor.index := by
  rw [Relation.reflTransGen_iff_eq_or_transGen, Graph.IsKindOf, descends_iff hfound]
  constructor
  · rintro (rfl | hpath)
    · exact .inl rfl
    · exact .inr hpath
  · rintro (hindex | hpath)
    · exact .inl (ObjectId.eq_of_index hindex.symm)
    · exact .inr hpath

theorem isA_iff_isKindOf {id ancestor : ObjectId} :
    (batch.graph found).isA id ancestor = true ↔ (batch.graph found).IsKindOf id ancestor := by
  rcases exists_lineage hfound id.index with ⟨lineage, hlineage, hnodup, -⟩
  rw [isKindOf_iff hfound, ← hlineage.mem_iff]
  exact isA_graph_iff hfound hlineage hnodup

theorem not_descends_self (id : ObjectId) : ¬ (batch.graph found).Descends id id := by
  rcases exists_lineage hfound id.index with ⟨lineage, hlineage, -⟩
  rw [descends_iff hfound]
  exact hlineage.not_transGen_self

/-- At the top of every family is an object without a parent. -/
theorem exists_root (id : ObjectId) :
    ∃ root, ((batch.graph found).object root).parent = none ∧
      (batch.graph found).IsKindOf id root := by
  rcases exists_lineage hfound id.index with ⟨lineage, hlineage, -⟩
  rcases hlineage.exists_head with ⟨root, hhead, hnone⟩
  refine ⟨⟨root⟩, (parent_graph_eq_none_iff hfound).mpr hnone, (isKindOf_iff hfound).mpr ?_⟩
  exact hlineage.mem_iff.mp (List.mem_of_head? hhead)

omit hfound in
theorem exists_parent_of_descends {id ancestor : ObjectId}
    (hpath : (batch.graph found).Descends id ancestor) :
    ∃ parent, ((batch.graph found).object id).parent = some parent := by
  rcases TransGen.head'_iff.mp hpath with ⟨parent, hparent, -⟩
  exact ⟨parent, hparent⟩

end Ancestors

namespace Numbers

variable (hnumbers : batch.Numbers outlines) (hfound : batch.Examined found)

include hnumbers hfound

theorem exists_placed_of_descends {id ancestor : ObjectId}
    (hpath : (batch.graph found).Descends id ancestor) :
    ∃ placed above, batch.objects[id.index]? = some placed ∧
      batch.objects[ancestor.index]? = some above ∧
        TransGen (Inherits outlines) placed.member above.member :=
  hnumbers.exists_transGen hfound.parents_eq ((descends_iff hfound).mp hpath)

omit hnumbers in
theorem kindTag_of_parent {id parent : ObjectId} {placed : PlacedObject}
    (hplaced : batch.objects[id.index]? = some placed)
    (hparent : ((batch.graph found).object id).parent = some parent) :
    ((batch.graph found).object id).kindTag = placed.member.kindTag := by
  have hup : found.parents[id.index]?.join = some parent.index :=
    (parent_graph_eq_some_iff hfound).mp hparent
  rw [kindTag_graph id.index hplaced, hup, Option.isSome_some, if_pos rfl]
  rfl

omit hnumbers in
theorem kindTag_of_root {id : ObjectId} (hroot : ((batch.graph found).object id).parent = none) :
    ((batch.graph found).object id).kindTag = 0 := by
  cases hplaced : batch.objects[id.index]? with
  | none =>
      have hdefault : (batch.graph found).object id = default :=
        object_graph_of_none id.index hplaced
      rw [hdefault]
      rfl
  | some placed =>
      rw [kindTag_graph id.index hplaced, (parent_graph_eq_none_iff hfound).mp hroot]
      rfl

theorem kindTag_of_descends {id ancestor : ObjectId}
    (hpath : (batch.graph found).Descends id ancestor) :
    ((batch.graph found).object id).kindTag ≠ 0 := by
  rcases hnumbers.exists_placed_of_descends hfound hpath with ⟨placed, -, hplaced, -⟩
  rcases exists_parent_of_descends hpath with ⟨parent, hparent⟩
  rw [kindTag_of_parent hfound hplaced hparent]
  exact Naming.wireHash_ne_zero placed.object.name

/-! ## Tables -/

theorem isSome_table_iff (id : ObjectId) :
    (tableOf? found.tables id).isSome = true ↔
      ((batch.graph found).object id).parent = none ∧
        ∃ member, (batch.graph found).Descends member id := by
  constructor
  · intro hsome
    rcases Option.isSome_iff_exists.mp hsome with ⟨table, htable⟩
    rcases exists_child_of_tableOf? hfound htable with ⟨child, hchild⟩
    rcases (role_of_join hnumbers.sound hfound hchild).2 with ⟨placed, hplaced, -⟩
    have hnone := ((hnumbers.isSome_tableOf?_iff hfound hplaced).mp hsome).1
    have hroot := (join_eq_none_iff hfound.parents_eq hplaced).mpr hnone
    exact ⟨(parent_graph_eq_none_iff hfound).mpr hroot, ⟨child⟩,
      (descends_iff hfound).mpr (.single hchild)⟩
  · rintro ⟨hroot, member, hpath⟩
    rcases hnumbers.exists_placed_of_descends hfound hpath with
      ⟨below, placed, -, hplaced, hinherits⟩
    have hnone := (join_eq_none_iff hfound.parents_eq hplaced).mp
      ((parent_graph_eq_none_iff hfound).mp hroot)
    exact (hnumbers.isSome_tableOf?_iff hfound hplaced).mpr ⟨hnone, below.member, hinherits⟩

omit hnumbers in
theorem exists_table_root_iff (id : ObjectId) :
    (∃ table ∈ found.tables, table.root = id) ↔ (tableOf? found.tables id).isSome = true := by
  constructor
  · rintro ⟨table, htable, rfl⟩
    rw [tableOf?_of_mem hfound.tabulated.inOrder htable]
    rfl
  · intro hsome
    rcases Option.isSome_iff_exists.mp hsome with ⟨table, htable⟩
    exact ⟨table, tableOf?_root htable⟩

theorem mem_members_iff {table : DispatchTable} (htable : table ∈ found.tables) (tag : UInt32)
    (member : ObjectId) :
    (tag, member) ∈ table.members.entries ↔
      (tag = 0 ∧ member = table.root) ∨
        ((batch.graph found).Descends member table.root ∧
          tag = ((batch.graph found).object member).kindTag) := by
  have hsome := tableOf?_of_mem hfound.tabulated.inOrder htable
  rw [TagMap.mem_entries_iff, hnumbers.find?_table_iff hfound hsome]
  refine or_congr Iff.rfl ⟨?_, ?_⟩
  · rintro ⟨placed, above, hplaced, habove, rfl, -, hinherits⟩
    have hpath : (batch.graph found).Descends member table.root :=
      (descends_iff hfound).mpr
        ((hnumbers.transGen_iff hfound.parents_eq hplaced habove).mpr hinherits)
    rcases exists_parent_of_descends hpath with ⟨parent, hparent⟩
    exact ⟨hpath, (kindTag_of_parent hfound hplaced hparent).symm⟩
  · rintro ⟨hpath, rfl⟩
    rcases hnumbers.exists_placed_of_descends hfound hpath with
      ⟨placed, above, hplaced, habove, hinherits⟩
    rcases exists_parent_of_descends hpath with ⟨parent, hparent⟩
    have howner : (tableOf? found.tables table.root).isSome = true := by
      rw [hsome]
      rfl
    exact ⟨placed, above, hplaced, habove, (kindTag_of_parent hfound hplaced hparent).symm,
      ((hnumbers.isSome_tableOf?_iff hfound habove).mp howner).1, hinherits⟩

/-! ## Families -/

theorem eq_of_kindTag (hconsistent : Consistent outlines) {first second : ObjectId}
    (hkin : (batch.graph found).Kin first second)
    (htag : ((batch.graph found).object first).kindTag =
      ((batch.graph found).object second).kindTag) : first = second := by
  rcases hkin with ⟨above, hfirst, hsecond⟩
  -- The comparison is made below the root, from which every tag of the family comes.
  rcases exists_root hfound above with ⟨root, hroot, habove⟩
  have hup {id : ObjectId} (hid : (batch.graph found).IsKindOf id above) :
      (batch.graph found).IsKindOf id root := by
    rw [isKindOf_iff hfound] at hid habove ⊢
    exact hid.trans habove
  rcases hup hfirst with rfl | hfirst
  · rcases hup hsecond with rfl | hsecond
    · rfl
    · rw [kindTag_of_root hfound hroot] at htag
      exact absurd htag.symm (hnumbers.kindTag_of_descends hfound hsecond)
  · rcases hup hsecond with rfl | hsecond
    · rw [kindTag_of_root hfound hroot] at htag
      exact absurd htag (hnumbers.kindTag_of_descends hfound hfirst)
    · rcases hnumbers.exists_placed_of_descends hfound hfirst with
        ⟨placed, top, hplaced, htop, hinherits⟩
      rcases hnumbers.exists_placed_of_descends hfound hsecond with
        ⟨other, top', hother, htop', hinherits'⟩
      rw [htop, Option.some.injEq] at htop'
      subst htop'
      rcases exists_parent_of_descends hfirst with ⟨parent, hparent⟩
      rcases exists_parent_of_descends hsecond with ⟨parent', hparent'⟩
      rw [kindTag_of_parent hfound hplaced hparent,
        kindTag_of_parent hfound hother hparent'] at htag
      have hnone := (join_eq_none_iff hfound.parents_eq htop).mp
        ((parent_graph_eq_none_iff hfound).mp hroot)
      exact ObjectId.eq_of_index (hnumbers.eq_of_member hplaced hother
        (hconsistent.kindTags top.member placed.member other.member hnone hinherits hinherits'
          htag))

theorem isPolymorphic_of_parent {id parent : ObjectId}
    (hparent : ((batch.graph found).object id).parent = some parent) :
    ((batch.graph found).object id).isPolymorphic = true := by
  have hup : found.parents[id.index]?.join = some parent.index :=
    (parent_graph_eq_some_iff hfound).mp hparent
  rcases (role_of_join hnumbers.sound hfound hup).1 with ⟨placed, hplaced, -⟩
  rw [isPolymorphic_graph id.index hplaced, hup, Option.isSome_some, Bool.true_or]

theorem isPolymorphic_of_descends {id member : ObjectId}
    (hpath : (batch.graph found).Descends member id) :
    ((batch.graph found).object id).isPolymorphic = true := by
  cases hparent : ((batch.graph found).object id).parent with
  | some parent => exact hnumbers.isPolymorphic_of_parent hfound hparent
  | none =>
      rcases hnumbers.exists_placed_of_descends hfound hpath with ⟨-, placed, -, hplaced, -⟩
      have htable := (hnumbers.isSome_table_iff hfound id).mpr ⟨hparent, member, hpath⟩
      rw [isPolymorphic_graph id.index hplaced]
      exact Bool.or_eq_true_iff.mpr (.inr htable)

theorem isPolymorphic_iff_kin (id : ObjectId) :
    ((batch.graph found).object id).isPolymorphic = true ↔
      ∃ relative, relative ≠ id ∧ (batch.graph found).Kin id relative := by
  constructor
  · intro hpolymorphic
    cases hparent : ((batch.graph found).object id).parent with
    | some parent =>
        have hpath : (batch.graph found).Descends id parent := .single hparent
        refine ⟨parent, ?_, parent, .inr hpath, .inl rfl⟩
        rintro rfl
        exact not_descends_self hfound _ hpath
    | none =>
        rcases exists_placed_of_isPolymorphic hpolymorphic with ⟨placed, hplaced⟩
        rw [isPolymorphic_graph id.index hplaced,
          (parent_graph_eq_none_iff hfound).mp hparent] at hpolymorphic
        rcases (hnumbers.isSome_table_iff hfound id).mp hpolymorphic with ⟨-, member, hpath⟩
        refine ⟨member, ?_, id, .inl rfl, .inr hpath⟩
        rintro rfl
        exact not_descends_self hfound _ hpath
  · rintro ⟨relative, hother, above, rfl | hid, hrelative⟩
    · rcases hrelative with rfl | hpath
      · exact absurd rfl hother
      · exact hnumbers.isPolymorphic_of_descends hfound hpath
    · rcases exists_parent_of_descends hid with ⟨parent, hparent⟩
      exact hnumbers.isPolymorphic_of_parent hfound hparent

end Numbers

end Batch

/-- The dispatch of every compiled graph is exact. -/
theorem Graph.dispatches_of_compile {documents : List Document} {graph : Graph}
    (hcompile : Graph.compile documents = .ok graph) : graph.DispatchesExactly := by
  have hgraph := Graph.coherent_of_compile hcompile
  rcases Outcome.bind_eq_ok hcompile with ⟨outlines, hread, hresolve⟩
  have hproper := Graph.proper_of_mapM hread
  have hconsistent := (Graph.exists_resolve_iff hproper).mp ⟨graph, hresolve⟩
  rcases Graph.exists_batch_of_resolve hproper hresolve with
    ⟨batch, found, hnumbers, hfound, rfl⟩
  have hisA : ∀ id declared, (batch.graph found).isA id declared = true ↔
      (batch.graph found).IsKindOf id declared := fun _ _ => Batch.isA_iff_isKindOf hfound
  exact
    { owner_iff := fun id =>
        (Batch.Numbers.exists_table_root_iff hfound id).trans (hnumbers.isSome_table_iff hfound id)
      entry_iff := fun table htable => hnumbers.mem_members_iff hfound htable
      kindTag_root := fun id => Batch.Numbers.kindTag_of_root hfound
      kindTag_ne_zero := fun id ancestor => hnumbers.kindTag_of_descends hfound
      eq_of_kindTag := fun first second => hnumbers.eq_of_kindTag hfound hconsistent
      isPolymorphic_iff := hnumbers.isPolymorphic_iff_kin hfound
      isA_iff := hisA
      hasKindTag_eq := fun id declared hkind =>
        hgraph.hasKindTag_of_isA ((hisA id declared).mpr hkind)
      recovers := fun id declared hkind =>
        hgraph.recovers_kindTagBytes ((hisA id declared).mpr hkind)
      selects_kind := fun declared tag =>
        (hisA _ declared).mp (Graph.isA_concreteType _ declared tag)
      selects := fun declared hpolymorphic id hkind =>
        hgraph.concreteType_kindTag id declared ((hisA id declared).mpr hkind) hpolymorphic }

theorem Sample.dispatches_harbour :
    (schemaOf 1 [ships, docks]).graph.DispatchesExactly ∧
      (schemaOf 1 [ships, docks]).graph.concreteType ⟨0⟩
        ((schemaOf 1 [ships, docks]).graph.object ⟨2⟩).kindTag = ⟨2⟩ := by
  have hexact := Graph.dispatches_of_compile
    (show Graph.compile [ships, docks] = _ from compile_schemaOf 1 (by decide +kernel))
  have hparent : ((schemaOf 1 [ships, docks]).graph.object ⟨2⟩).parent = some ⟨0⟩ := by
    decide +kernel
  exact ⟨hexact, hexact.selects ⟨0⟩ (by decide +kernel) ⟨2⟩ (.inr (.single hparent))⟩

end WireSchema
