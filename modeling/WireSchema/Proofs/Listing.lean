import Mathlib.Data.List.Sort
import WireSchema.Contract
import WireSchema.Proofs.Compiled
import WireSchema.Proofs.Members

/-!
# What a contract lists

The contract of a namespace lists the enums and the objects of its document in their places, and
the dispatch tables in the places of their roots.  Hence a contract can be read place by place,
whatever the numbers of its declarations in the graph.
-/

namespace WireSchema

namespace PlacedOutline

/-- The object in a place of a document. -/
def objectAt (home : PlacedOutline) (place : Nat) : ObjectId := ⟨home.firstObject + place⟩

/-- The enum in a place of a document. -/
def enumAt (home : PlacedOutline) (place : Nat) : EnumId := ⟨home.firstEnum + place⟩

/-- The objects of a document, in their places. -/
def objectIds (home : PlacedOutline) : List ObjectId :=
  (List.range home.outline.objects.length).map home.objectAt

theorem mem_objectIds_iff {home : PlacedOutline} {id : ObjectId} :
    id ∈ home.objectIds ↔
      ∃ place object, home.outline.objects[place]? = some object ∧ id = home.objectAt place := by
  simp only [objectIds, List.mem_map, List.mem_range]
  constructor
  · rintro ⟨place, hplace, rfl⟩
    exact ⟨place, _, List.getElem?_eq_getElem hplace, rfl⟩
  · rintro ⟨place, object, hobject, rfl⟩
    exact ⟨place, (List.getElem?_eq_some_iff.mp hobject).1, rfl⟩

theorem pairwise_objectIds (home : PlacedOutline) :
    home.objectIds.Pairwise fun first second => first.index < second.index := by
  rw [objectIds, List.pairwise_map]
  apply List.pairwise_lt_range.imp
  intro first second hless
  simp only [objectAt]
  omega

end PlacedOutline

namespace Batch

/-! ## Objects of a namespace -/

theorem idsWithRoles_sublist (home : PlacedOutline) (roles : List Role) :
    (idsWithRoles home roles).Sublist home.objectIds := by
  have hall : home.objectIds =
      home.outline.objects.zipIdx.map fun entry => home.objectAt entry.2 := by
    rw [PlacedOutline.objectIds, List.range_eq_range', ← List.zipIdx_map_snd 0, List.map_map]
    rfl
  rw [hall, idsWithRoles]
  generalize home.outline.objects.zipIdx = entries
  induction entries with
  | nil => simp
  | cons entry rest ih =>
      rw [List.filterMap_cons, List.map_cons]
      dsimp only
      by_cases hrole : roles.contains entry.1.role = true
      · rw [if_pos hrole]
        exact ih.cons_cons _
      · rw [if_neg hrole]
        exact ih.cons _

theorem nodup_idsWithRoles (home : PlacedOutline) (roles : List Role) :
    (idsWithRoles home roles).Nodup := by
  apply (idsWithRoles_sublist home roles).nodup
  apply home.pairwise_objectIds.imp
  rintro first second hless rfl
  exact Nat.lt_irrefl _ hless

theorem idsWithRoles_append (home : PlacedOutline) (roles others : List Role)
    (hdisjoint : ∀ role ∈ roles, role ∉ others) :
    (idsWithRoles home roles ++ idsWithRoles home others).Perm
      (idsWithRoles home (roles ++ others)) := by
  rw [List.perm_ext_iff_of_nodup _ (nodup_idsWithRoles home _)]
  · intro id
    simp only [List.mem_append, mem_idsWithRoles_iff]
    constructor
    · rintro (⟨place, object, hobject, hrole, rfl⟩ | ⟨place, object, hobject, hrole, rfl⟩)
      · exact ⟨place, object, hobject, .inl hrole, rfl⟩
      · exact ⟨place, object, hobject, .inr hrole, rfl⟩
    · rintro ⟨place, object, hobject, hrole | hrole, rfl⟩
      · exact .inl ⟨place, object, hobject, hrole, rfl⟩
      · exact .inr ⟨place, object, hobject, hrole, rfl⟩
  · rw [List.nodup_append]
    refine ⟨nodup_idsWithRoles home _, nodup_idsWithRoles home _, ?_⟩
    rintro id hfirst other hsecond rfl
    rcases mem_idsWithRoles_iff.mp hfirst with ⟨place, object, hobject, hrole, rfl⟩
    rcases mem_idsWithRoles_iff.mp hsecond with ⟨place', object', hobject', hrole', hid⟩
    have hplace : place = place' := by
      have hindex := congrArg ObjectId.index hid
      simp only at hindex
      omega
    rw [hplace, hobject', Option.some.injEq] at hobject
    exact hdisjoint _ hrole (hobject ▸ hrole')

/-- Every object of a document is in one of the lists of its namespace. -/
theorem perm_namespaceOf (home : PlacedOutline) :
    ((namespaceOf home).objects ++ (namespaceOf home).messages ++ (namespaceOf home).requests ++
      (namespaceOf home).responses).Perm home.objectIds := by
  have hall : (idsWithRoles home [.object, .embedded, .message, .request, .response]).Perm
      home.objectIds := by
    rw [List.perm_ext_iff_of_nodup (nodup_idsWithRoles home _)]
    · intro id
      rw [mem_idsWithRoles_iff, PlacedOutline.mem_objectIds_iff]
      constructor
      · rintro ⟨place, object, hobject, -, rfl⟩
        exact ⟨place, object, hobject, rfl⟩
      · rintro ⟨place, object, hobject, rfl⟩
        refine ⟨place, object, hobject, ?_, rfl⟩
        cases object.role <;> decide
    · apply home.pairwise_objectIds.imp
      rintro first second hless rfl
      exact Nat.lt_irrefl _ hless
  refine .trans ?_ hall
  have hmessages := idsWithRoles_append home [.object, .embedded] [.message] (by decide)
  have hrequests := idsWithRoles_append home [.object, .embedded, .message] [.request] (by decide)
  have hresponses := idsWithRoles_append home [.object, .embedded, .message, .request] [.response]
    (by decide)
  exact (((hmessages.append_right _).trans hrequests).append_right _).trans hresponses

/-- The payloads of a namespace are those of its document. -/
theorem perm_payloads (home : PlacedOutline) :
    (namespaceOf home).payloads.Perm (idsWithRoles home [.message, .request, .response]) := by
  have hrequests := idsWithRoles_append home [.message] [.request] (by decide)
  have hresponses := idsWithRoles_append home [.message, .request] [.response] (by decide)
  exact (hrequests.append_right _).trans hresponses

/-- All objects of a namespace are listed in their places. -/
theorem objectIds_namespaceOf (home : PlacedOutline) :
    Contract.objectIds (namespaceOf home) = home.objectIds := by
  have hsorted : (Contract.objectIds (namespaceOf home)).Pairwise fun first second =>
      decide (first.index ≤ second.index) = true := by
    apply List.pairwise_mergeSort
    · intro first second third hfirst hsecond
      simp only [decide_eq_true_eq] at *
      omega
    · intro first second
      simp only [Bool.or_eq_true, decide_eq_true_eq]
      omega
  apply List.Perm.eq_of_pairwise _ hsorted _
    ((List.mergeSort_perm _ _).trans (perm_namespaceOf home))
  · intro first second _ _ hle hge
    simp only [decide_eq_true_eq] at hle hge
    exact ObjectId.eq_of_index (Nat.le_antisymm hle hge)
  · apply home.pairwise_objectIds.imp
    intro first second hless
    simp only [decide_eq_true_eq]
    omega

/-! ## The graph of a batch -/

theorem getElem?_objects_graph {batch : Batch} {found : Findings} (number : Nat) :
    (batch.graph found).objects[number]? =
      batch.objects[number]?.map fun placed => batch.objectType found placed number := by
  rw [graph, List.getElem?_toArray, List.getElem?_map, List.getElem?_zipIdx, Option.map_map,
    Nat.zero_add]
  rfl

theorem getElem?_objects_graph_of {batch : Batch} {found : Findings} {number : Nat}
    {placed : PlacedObject} (hplaced : batch.objects[number]? = some placed) :
    (batch.graph found).objects[number]? = some (batch.objectType found placed number) := by
  rw [getElem?_objects_graph, hplaced, Option.map_some]

theorem space_graph {batch : Batch} {found : Findings} (number : Nat) {placed : PlacedObject}
    (hplaced : batch.objects[number]? = some placed) :
    ((batch.graph found).object ⟨number⟩).space = placed.space := by
  rw [object_graph _ hplaced]
  rfl

theorem qualifiedName_graph {batch : Batch} {found : Findings} (number : Nat)
    {placed : PlacedObject} (hplaced : batch.objects[number]? = some placed) :
    Contract.qualifiedName (batch.graph found) ⟨number⟩ =
      placed.space ++ ":" ++ placed.object.name := by
  rw [Contract.qualifiedName, object_graph _ hplaced]
  rfl

/-- The fields of an object: those of its ancestors, then its own. -/
theorem exists_fields_objectType {batch : Batch} {found : Findings} (hfound : batch.Examined found)
    {number : Nat} {placed : PlacedObject} (hplaced : batch.objects[number]? = some placed) :
    ∃ lineage, found.lineages[number]? = some lineage ∧ Lineage found.parents number lineage ∧
      NamesDistinct (batch.allFields lineage) ∧
        batch.allFields lineage = batch.allFields lineage.dropLast ++ batch.ownAt number ∧
          (batch.objectType found placed number).fields = numberFlags 0 (batch.allFields lineage) ∧
            (batch.objectType found placed number).ownStart =
              (batch.allFields lineage.dropLast).length := by
  rcases hfound.exists_lineage number placed hplaced with ⟨lineage, hlineage, -, hchain⟩
  rcases hfound.fields_eq number lineage hlineage with ⟨hdistinct, hfields⟩
  refine ⟨lineage, hlineage, hchain, hdistinct, ?_, ?_, ?_⟩
  · have happend := congrArg batch.allFields hchain.dropLast_append
    rw [← happend, allFields, List.flatMap_append, List.flatMap_singleton]
    rfl
  · rw [objectType, hfields]
    rfl
  · rw [objectType, hfields]
    rfl

/-- The fields of an object are numbered ones with different names. -/
theorem exists_fields_graph {batch : Batch} {found : Findings} (hfound : batch.Examined found)
    (id : ObjectId) :
    ∃ lineage, NamesDistinct (batch.allFields lineage) ∧
      ((batch.graph found).object id).fields = numberFlags 0 (batch.allFields lineage) := by
  cases hplaced : batch.objects[id.index]? with
  | none =>
      rw [object_graph_of_none id.index hplaced]
      exact ⟨[], List.nodup_nil, rfl⟩
  | some placed =>
      rcases exists_fields_objectType hfound hplaced with ⟨lineage, -, -, hdistinct, -, hfields, -⟩
      rw [object_graph id.index hplaced]
      exact ⟨lineage, hdistinct, hfields⟩

theorem ownStart_add_length_ownAt {batch : Batch} {found : Findings} (hfound : batch.Examined found)
    (number : Nat) :
    ((batch.graph found).object ⟨number⟩).ownStart + (batch.ownAt number).length =
      ((batch.graph found).object ⟨number⟩).fields.length := by
  cases hplaced : batch.objects[number]? with
  | none =>
      rw [object_graph_of_none _ hplaced, ownAt, hplaced]
      rfl
  | some placed =>
      rcases exists_fields_objectType hfound hplaced with
        ⟨lineage, -, -, -, happend, hfields, hstart⟩
      rw [object_graph _ hplaced, hfields, hstart, length_numberFlags, happend, List.length_append]

theorem map_declaredIn_ownAt {batch : Batch} {found : Findings} (hfound : batch.Examined found)
    (number : Nat) :
    (batch.ownAt number).map (·.declaredIn) =
      List.replicate (batch.ownAt number).length ⟨number⟩ := by
  rw [List.eq_replicate_iff]
  constructor
  · rw [List.length_map]
  · intro owner howner
    rcases List.mem_map.mp howner with ⟨field, hfield, rfl⟩
    rcases hfound.exists_of_mem_ownAt hfield with ⟨placed, declared, -, -, hrun⟩
    rcases Outcome.map_eq_ok hrun with ⟨type, -, rfl⟩
    rfl

/-- Which objects declare the fields of an object. -/
theorem exists_map_declaredIn {batch : Batch} {found : Findings} (hfound : batch.Examined found)
    {number : Nat} {placed : PlacedObject} (hplaced : batch.objects[number]? = some placed) :
    ∃ lineage, Lineage found.parents number lineage ∧
      ((batch.graph found).object ⟨number⟩).fields.map (·.declaredIn) =
        lineage.flatMap fun member =>
          List.replicate (batch.ownAt member).length ⟨member⟩ := by
  rcases exists_fields_objectType hfound hplaced with ⟨lineage, -, hchain, -, -, hfields, -⟩
  refine ⟨lineage, hchain, ?_⟩
  rw [object_graph _ hplaced, hfields, map_numberFlags fun _ _ => rfl, allFields, List.map_flatMap]
  simp only [map_declaredIn_ownAt hfound]

theorem tableOf?_root {tables : List DispatchTable} {root : ObjectId} {table : DispatchTable}
    (htable : tableOf? tables root = some table) : table ∈ tables ∧ table.root = root := by
  constructor
  · exact List.mem_of_find?_eq_some htable
  · simpa using List.find?_some htable

theorem tableOf?_of_mem {tables : List DispatchTable} (horder : InOrder tables)
    {table : DispatchTable} (htable : table ∈ tables) :
    tableOf? tables table.root = some table := by
  induction tables with
  | nil => cases htable
  | cons head rest ih =>
      rcases List.pairwise_cons.mp horder with ⟨hhead, htail⟩
      rw [tableOf?_cons]
      rcases List.mem_cons.mp htable with rfl | hlater
      · rw [if_pos rfl]
      · have hless := hhead table hlater
        have hne : head.root ≠ table.root := by
          intro hroot
          rw [hroot] at hless
          exact Nat.lt_irrefl _ hless
        rw [if_neg hne]
        exact ih htail hlater

namespace Numbers

variable {batch : Batch} {outlines : List Outline} {found : Findings}
  (hnumbers : batch.Numbers outlines)

include hnumbers

theorem getElem?_enums {home : PlacedOutline} (hhome : home ∈ batch.outlines) {place : Nat}
    {type : Declaration.Enum} (htype : home.outline.enums[place]? = some type) :
    (batch.graph found).enums[(home.enumAt place).index]? =
      some ⟨home.outline.space, type.tag, type.name, type.values⟩ := by
  have hnumbered := consecutive_enumTypes outlines 0 0
  rw [← hnumbers.outlines_eq] at hnumbered
  have hitem : (enumTypes home)[place]? =
      some ⟨home.outline.space, type.tag, type.name, type.values⟩ := by
    rw [enumTypes, List.getElem?_map, htype, Option.map_some]
  rcases hnumbered.getElem?_flatMap hhome hitem with ⟨before, hfirst, hfound⟩
  rw [PlacedOutline.enumAt, hfirst, Nat.zero_add, graph, List.getElem?_toArray]
  exact hfound

theorem enum_graph {home : PlacedOutline} (hhome : home ∈ batch.outlines) {place : Nat}
    {type : Declaration.Enum} (htype : home.outline.enums[place]? = some type) :
    (batch.graph found).enum (home.enumAt place) =
      ⟨home.outline.space, type.tag, type.name, type.values⟩ := by
  rw [Graph.enum, Array.getD_eq_getD_getElem?, hnumbers.getElem?_enums hhome htype,
    Option.getD_some]

theorem typeToken_enumAt {home : PlacedOutline} (hhome : home ∈ batch.outlines) {place : Nat}
    {type : Declaration.Enum} (htype : home.outline.enums[place]? = some type) :
    Contract.typeToken (batch.graph found) (.enum (home.enumAt place)) =
      "@" ++ home.outline.space ++ ":" ++ type.name := by
  rw [Contract.typeToken, hnumbers.enum_graph hhome htype]

theorem exists_enum_place {number : Nat} {type : EnumType}
    (htype : (batch.graph found).enums[number]? = some type) :
    ∃ home ∈ batch.outlines, ∃ place declared, home.outline.enums[place]? = some declared ∧
      number = (home.enumAt place).index ∧
        type = ⟨home.outline.space, declared.tag, declared.name, declared.values⟩ := by
  have hnumbered := consecutive_enumTypes outlines 0 0
  rw [← hnumbers.outlines_eq] at hnumbered
  rw [graph, List.getElem?_toArray] at htype
  rcases hnumbered.exists_place htype with ⟨home, hhome, place, hitem, hsum⟩
  rw [enumTypes, List.getElem?_map] at hitem
  rcases Option.map_eq_some_iff.mp hitem with ⟨declared, hdeclared, rfl⟩
  rw [Nat.zero_add] at hsum
  exact ⟨home, hhome, place, declared, hdeclared, hsum, rfl⟩

/-- What answers a request, by its number. -/
theorem exists_answer {number request : Nat} {placed : PlacedObject}
    (hplaced : batch.objects[request]? = some placed)
    (hanswered : placed.response? = some ⟨number⟩) :
    ∃ key answer, batch.objects[number]? = some ⟨placed.home, answer⟩ ∧
      placed.object.tag = key ++ "_request" ∧ answer.tag = key ++ "_response" := by
  rcases Option.map_eq_some_iff.mp hanswered with ⟨place, hplace, hid⟩
  cases hid
  rcases (hnumbers.sound.of_getElem? hplaced).answered place hplace with
    ⟨key, answer, htag, hanswer, hanswerTag⟩
  have hhome := (hnumbers.sound.exists_place request placed hplaced).1
  exact ⟨key, answer, hnumbers.sound.getElem?_of_place _ hhome place answer hanswer, htag,
    hanswerTag⟩

/-- No response answers two requests. -/
theorem eq_of_response? {first second number : Nat} {placed other : PlacedObject}
    (hplaced : batch.objects[first]? = some placed)
    (hother : batch.objects[second]? = some other)
    (hanswered : placed.response? = some ⟨number⟩)
    (hanswered' : other.response? = some ⟨number⟩) : first = second := by
  rcases hnumbers.exists_answer hplaced hanswered with ⟨key, answer, hnumber, htag, hanswerTag⟩
  rcases hnumbers.exists_answer hother hanswered' with ⟨key', answer', hnumber', htag', hanswerTag'⟩
  rw [hnumber, Option.some.injEq, PlacedObject.mk.injEq] at hnumber'
  rcases hnumber' with ⟨hhome, rfl⟩
  have hkey : key = key' := by
    rw [hanswerTag] at hanswerTag'
    exact String.append_left_inj _ |>.mp hanswerTag'
  rcases hnumbers.sound.exists_place first placed hplaced with ⟨hmem, place, hobject, hfirst⟩
  rcases hnumbers.sound.exists_place second other hother with ⟨-, place', hobject', hsecond⟩
  rw [← hhome] at hobject' hsecond
  have hproper := hnumbers.proper _ (hnumbers.outline_mem hmem)
  rw [hfirst, hsecond, hproper.place_eq_of_tag hobject hobject' (by rw [htag, htag', hkey])]

theorem requestOf?_eq_some_iff {number request : Nat} :
    batch.requestOf? number = some ⟨request⟩ ↔
      ∃ placed, batch.objects[request]? = some placed ∧ placed.response? = some ⟨number⟩ := by
  rw [requestOf?, Option.map_eq_some_iff]
  constructor
  · rintro ⟨found, hfound, hid⟩
    cases hid
    rcases List.findIdx?_eq_some_iff_getElem.mp hfound with ⟨hlt, hanswered, -⟩
    exact ⟨batch.objects[request], List.getElem?_eq_getElem hlt, by simpa using hanswered⟩
  · rintro ⟨placed, hplaced, hanswered⟩
    cases hfound : batch.objects.findIdx? fun placed => placed.response? == some ⟨number⟩ with
    | none =>
        rw [List.findIdx?_eq_none_iff] at hfound
        have hfalse := hfound placed (List.mem_of_getElem? hplaced)
        simp [hanswered] at hfalse
    | some other =>
        rcases List.findIdx?_eq_some_iff_getElem.mp hfound with ⟨hlt, hanswered', -⟩
        have hasked := hnumbers.eq_of_response? hplaced (List.getElem?_eq_getElem hlt) hanswered
          (by simpa using hanswered')
        rw [hasked]
        exact ⟨other, rfl, rfl⟩

/-- The tables whose roots belong to a namespace stand in the places of the roots. -/
theorem filter_tables (hfound : batch.Examined found) {home : PlacedOutline}
    (hhome : home ∈ batch.outlines) :
    found.tables.filter (fun table =>
        ((batch.graph found).object table.root).space == home.outline.space) =
      home.objectIds.filterMap (tableOf? found.tables) := by
  apply List.Pairwise.eq_of_mem_iff (r := fun first second : DispatchTable =>
    first.root.index < second.root.index)
  · exact hfound.tabulated.inOrder.filter _
  · rw [List.pairwise_filterMap]
    apply home.pairwise_objectIds.imp
    intro first second hless table htable other hother
    rw [(tableOf?_root htable).2, (tableOf?_root hother).2]
    exact hless
  · intro table
    rw [List.mem_filter, List.mem_filterMap]
    constructor
    · rintro ⟨hmem, hspace⟩
      have htable := tableOf?_of_mem hfound.tabulated.inOrder hmem
      rcases exists_child_of_tableOf? hfound htable with ⟨child, hchild⟩
      rcases (role_of_join hnumbers.sound hfound hchild).2 with ⟨placed, hplaced, -⟩
      rcases hnumbers.sound.exists_place _ placed hplaced with ⟨hmem, place, hobject, hnumber⟩
      have hsame : placed.home.outline.space = home.outline.space :=
        (space_graph _ hplaced).symm.trans (eq_of_beq hspace)
      refine ⟨table.root, ?_, htable⟩
      rw [PlacedOutline.mem_objectIds_iff]
      rw [hnumbers.home_eq_of_space hmem hhome hsame] at hobject hnumber
      exact ⟨place, placed.object, hobject, ObjectId.eq_of_index hnumber⟩
    · rintro ⟨root, hroot, htable⟩
      rcases tableOf?_root htable with ⟨hmem, rfl⟩
      rcases PlacedOutline.mem_objectIds_iff.mp hroot with ⟨place, object, hobject, hid⟩
      have hplaced := hnumbers.sound.getElem?_of_place home hhome place object hobject
      refine ⟨hmem, ?_⟩
      rw [hid, PlacedOutline.objectAt, space_graph _ hplaced]
      exact beq_self_eq_true _

theorem namespace?_graph {home : PlacedOutline} (hhome : home ∈ batch.outlines) :
    (batch.graph found).namespace? home.outline.space = some (namespaceOf home) := by
  cases hspace : (batch.graph found).namespace? home.outline.space with
  | none =>
      have hfalse := List.find?_eq_none.mp hspace (namespaceOf home) (List.mem_map_of_mem hhome)
      simp [namespaceOf] at hfalse
  | some space =>
      rcases List.mem_map.mp (List.mem_of_find?_eq_some hspace) with ⟨other, hother, rfl⟩
      have hname : other.outline.space = home.outline.space := by
        simpa [namespaceOf] using List.find?_some hspace
      rw [hnumbers.home_eq_of_space hother hhome hname]

theorem namespace?_graph_eq_none {space : String}
    (hnone : ∀ outline ∈ outlines, outline.space ≠ space) :
    (batch.graph found).namespace? space = none := by
  rw [Graph.namespace?, List.find?_eq_none]
  intro other hother
  rcases List.mem_map.mp hother with ⟨home, hhome, rfl⟩
  simpa [namespaceOf] using hnone _ (hnumbers.outline_mem hhome)

theorem map_ofEnum {home : PlacedOutline} (hhome : home ∈ batch.outlines) :
    (namespaceOf home).enums.map (fun id => Contract.ofEnum ((batch.graph found).enum id)) =
      home.outline.enums.map fun type =>
        Contract.ofEnum ⟨home.outline.space, type.tag, type.name, type.values⟩ := by
  apply List.ext_getElem?
  intro place
  simp only [namespaceOf, List.map_map, List.getElem?_map]
  by_cases hplace : place < home.outline.enums.length
  · have htype := List.getElem?_eq_getElem hplace
    rw [List.getElem?_range hplace, htype, Option.map_some, Option.map_some, Option.some.injEq]
    exact congrArg Contract.ofEnum (hnumbers.enum_graph hhome htype)
  · rw [List.getElem?_eq_none (by rw [List.length_range]; omega),
      List.getElem?_eq_none (by omega)]
    rfl

theorem factoryIds_graph {home : PlacedOutline} (hhome : home ∈ batch.outlines) :
    (batch.graph found).factoryIds home.outline.space =
      (batch.graph found).withWireIds (namespaceOf home).payloads := by
  rw [Graph.factoryIds, hnumbers.namespace?_graph hhome]

/-- The contract of a namespace, place by place. -/
theorem ofNamespace_graph (hfound : batch.Examined found) {home : PlacedOutline}
    (hhome : home ∈ batch.outlines) :
    Contract.ofNamespace (batch.graph found) (namespaceOf home) =
      { space := home.outline.space
        enums := home.outline.enums.map fun type =>
          Contract.ofEnum ⟨home.outline.space, type.tag, type.name, type.values⟩
        objects := home.objectIds.map fun id =>
          Contract.ofObject (batch.graph found) ((batch.graph found).object id)
        dispatch := (home.objectIds.filterMap (tableOf? found.tables)).map
          (Contract.ofTable (batch.graph found))
        factory := ((batch.graph found).withWireIds (namespaceOf home).payloads).map fun entry =>
          ⟨entry.1, Contract.qualifiedName (batch.graph found) entry.2⟩ } := by
  rw [Contract.ofNamespace, hnumbers.map_ofEnum hhome, objectIds_namespaceOf]
  have htables := congrArg (List.map (Contract.ofTable (batch.graph found)))
    (hnumbers.filter_tables hfound hhome)
  have hfactory : (batch.graph found).factoryIds (namespaceOf home).name = _ :=
    hnumbers.factoryIds_graph hhome
  rw [hfactory]
  exact (Contract.Manifest.mk.injEq ..).mpr ⟨rfl, rfl, rfl, htables, rfl⟩

/-- The contracts of all namespaces, document by document. -/
theorem all_graph :
    Contract.all (batch.graph found) =
      batch.outlines.map fun home =>
        Contract.ofNamespace (batch.graph found) (namespaceOf home) := by
  have hspaces : (batch.graph found).namespaces = batch.outlines.map namespaceOf := rfl
  rw [Contract.all, hspaces, List.filterMap_map, ← List.filterMap_eq_map]
  apply List.filterMap_congr
  intro home hhome
  change Contract.ofGraph? (batch.graph found) home.outline.space = _
  rw [Contract.ofGraph?, hnumbers.namespace?_graph hhome]
  rfl

end Numbers

end Batch

namespace Graph

/-- A graph that is resolved is that of a batch, with what the passes find out about it. -/
theorem exists_batch_of_resolve {outlines : List Outline} {graph : Graph}
    (hproper : ∀ outline ∈ outlines, outline.Proper) (hresolve : resolve outlines = .ok graph) :
    ∃ batch found, Batch.Numbers batch outlines ∧ batch.Examined found ∧
      batch.graph found = graph := by
  rcases Outcome.bind_eq_ok hresolve with ⟨batch, hbatch, hresolve⟩
  rcases Outcome.bind_eq_ok hresolve with ⟨found, hfound, hresolve⟩
  cases hresolve
  exact ⟨batch, found, Batch.numbers_ofOutlines hbatch hproper, Batch.examined_of_examine hfound,
    rfl⟩

theorem proper_of_mapM {documents : List Document} {outlines : List Outline}
    (hread : documents.mapM Outline.ofDocument = .ok outlines) :
    ∀ outline ∈ outlines, outline.Proper := by
  intro outline houtline
  rcases Outcome.exists_mem_of_mapM hread houtline with ⟨document, -, hdocument⟩
  exact Outline.proper_ofDocument hdocument

theorem exists_reading_of_compile {documents : List Document} {graph : Graph}
    (hcompile : compile documents = .ok graph) :
    ∃ outlines batch found, documents.mapM Outline.ofDocument = .ok outlines ∧
      Batch.Numbers batch outlines ∧ batch.Examined found ∧ batch.graph found = graph := by
  rcases Outcome.bind_eq_ok hcompile with ⟨outlines, hread, hresolve⟩
  rcases exists_batch_of_resolve (proper_of_mapM hread) hresolve with ⟨batch, found, hgraph⟩
  exact ⟨outlines, batch, found, hread, hgraph⟩

theorem exists_batch_of_compile {documents : List Document} {graph : Graph}
    (hcompile : compile documents = .ok graph) :
    ∃ outlines batch found, Batch.Numbers batch outlines ∧ batch.Examined found ∧
      batch.graph found = graph := by
  rcases exists_reading_of_compile hcompile with ⟨outlines, batch, found, -, hgraph⟩
  exact ⟨outlines, batch, found, hgraph⟩

end Graph
end WireSchema
