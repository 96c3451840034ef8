import WireSchema.Proofs.Renumbering

/-!
# The order of a batch

The order in which the documents of a batch are given does not show in the contracts.  Whether a
batch is accepted is a matter of its declarations, and of twins the contracts tell the same.
-/

namespace WireSchema

namespace TagMap

variable {α β γ : Type}

theorem mem_map_entries_iff {map : TagMap α} {f : α → γ} {tag : UInt32} {value : γ} :
    (tag, value) ∈ map.entries.map (fun entry => (entry.1, f entry.2)) ↔
      (map.find? tag).map f = some value := by
  rw [List.mem_map, Option.map_eq_some_iff]
  constructor
  · rintro ⟨⟨tag', held⟩, hheld, heq⟩
    cases heq
    exact ⟨held, mem_entries_iff.mp hheld, rfl⟩
  · rintro ⟨held, hheld, rfl⟩
    exact ⟨(tag, held), mem_entries_iff.mpr hheld, rfl⟩

/-- Two maps that look the same under every tag list the same. -/
theorem map_entries_eq {map : TagMap α} {other : TagMap β} {f : α → γ} {g : β → γ}
    (hsame : ∀ tag, (map.find? tag).map f = (other.find? tag).map g) :
    map.entries.map (fun entry => (entry.1, f entry.2)) =
      other.entries.map (fun entry => (entry.1, g entry.2)) := by
  apply List.Pairwise.eq_of_mem_iff (r := fun first second : UInt32 × γ => first.1 < second.1)
  · exact List.pairwise_map.mpr map.ascending
  · exact List.pairwise_map.mpr other.ascending
  · rintro ⟨tag, value⟩
    rw [mem_map_entries_iff, mem_map_entries_iff, hsame tag]

end TagMap

open Relation (TransGen)

namespace Batch

/-! ## Fields in contracts -/

/-- Two fields have the same entry in the contracts of two graphs. -/
def SameEntry (graph other : Graph) (field twin : Field) : Prop :=
  SameField graph other field twin ∧ field.flagBit = twin.flagBit

theorem forall₂_sameEntry {graph other : Graph} {fields twins : List Field}
    (hall : List.Forall₂ (SameField graph other) fields twins) (bit : Nat) :
    List.Forall₂ (SameEntry graph other) (numberFlags bit fields) (numberFlags bit twins) := by
  induction hall generalizing bit with
  | nil => exact .nil
  | cons hfirst _ ih =>
      rw [numberFlags_cons, numberFlags_cons, hfirst.isOptional_eq]
      refine .cons ⟨⟨hfirst.key_eq, hfirst.name_eq, hfirst.isOptional_eq, hfirst.type⟩, ?_⟩ (ih _)
      simp only [flagged, hfirst.isOptional_eq]

theorem map_ofField_eq {graph other : Graph} {fields twins : List Field} {ownStart : Nat}
    (hall : List.Forall₂ (SameEntry graph other) fields twins) (index : Nat) :
    (fields.zipIdx index).map (fun entry => Contract.ofField graph ownStart entry.1 entry.2) =
      (twins.zipIdx index).map fun entry => Contract.ofField other ownStart entry.1 entry.2 := by
  induction hall generalizing index with
  | nil => rfl
  | cons hfirst _ ih =>
      rcases hfirst with ⟨hfield, hbit⟩
      rw [List.zipIdx_cons, List.zipIdx_cons, List.map_cons, List.map_cons, ih]
      simp only [Contract.ofField, hfield.key_eq, hfield.name_eq, hfield.isOptional_eq,
        hfield.type.token_eq, hfield.type.staticSize?_eq, hbit]

theorem ofFields_eq {graph other : Graph} {fields twins : List Field}
    (hall : List.Forall₂ (SameEntry graph other) fields twins) (isPayload isPolymorphic : Bool) :
    Layout.ofFields fields isPayload isPolymorphic =
      Layout.ofFields twins isPayload isPolymorphic := by
  have hcount : fields.countP (·.isOptional) = twins.countP (·.isOptional) := by
    induction hall with
    | nil => rfl
    | cons hfirst _ ih => rw [List.countP_cons, List.countP_cons, ih, hfirst.1.isOptional_eq]
  have hsizes : (fields.filter (·.isStatic)).filterMap (·.type.staticSize?) =
      (twins.filter (·.isStatic)).filterMap (·.type.staticSize?) := by
    clear hcount
    induction hall with
    | nil => rfl
    | cons hfirst _ ih =>
        have hsize := hfirst.1.type.staticSize?_eq
        have hstatic := congrArg₂ (fun isOptional (size : Option Nat) => !isOptional && size.isSome)
          hfirst.1.isOptional_eq hsize
        change Field.isStatic _ = Field.isStatic _ at hstatic
        rw [List.filter_cons, List.filter_cons, hstatic]
        split
        · rw [List.filterMap_cons, List.filterMap_cons, hsize, ih]
        · exact ih
  rw [Layout.ofFields, Layout.ofFields, hcount, hsizes]

namespace Included

variable {outlines larger : List Outline} {batch other : Batch} {found seen : Findings}
  (hsame : Included outlines larger batch other found seen) {number partner : Nat}
  (htwin : Twin batch other number partner)

include hsame htwin

theorem exists_fields :
    List.Forall₂ (SameEntry (batch.graph found) (other.graph seen))
        ((batch.graph found).object ⟨number⟩).fields ((other.graph seen).object ⟨partner⟩).fields ∧
      ((batch.graph found).object ⟨number⟩).ownStart =
        ((other.graph seen).object ⟨partner⟩).ownStart ∧
      TwinIds batch other ((batch.graph found).object ⟨number⟩).root
        ((other.graph seen).object ⟨partner⟩).root := by
  rcases htwin.objects with ⟨placed, twin, hplaced, hpartner, -, -⟩
  rcases exists_fields_objectType hsame.examined hplaced with
    ⟨lineage, hlineage, hchain, -, happend, hfields, hstart⟩
  rcases exists_fields_objectType hsame.otherExamined hpartner with
    ⟨line, hline, hchain', -, happend', hfields', hstart'⟩
  rcases hsame.exists_lineage hchain htwin with ⟨other, hother, htwins⟩
  rw [hother.eq_of_lineage hchain'] at htwins
  have hall := hsame.forall₂_allFields htwins
  have hown := hsame.forall₂_ownAt htwin
  rw [object_graph _ hplaced, object_graph _ hpartner]
  refine ⟨?_, ?_, ?_⟩
  · rw [hfields, hfields']
    exact forall₂_sameEntry hall 0
  · have hlength := hall.length_eq
    rw [happend, happend', List.length_append, List.length_append, hown.length_eq] at hlength
    rw [hstart, hstart']
    omega
  · rw [objectType, objectType, hlineage, hline]
    cases htwins with
    | nil => exact absurd rfl hchain.ne_nil
    | cons hhead _ => exact hhead

theorem isSome_tableOf?_eq :
    (tableOf? found.tables ⟨number⟩).isSome = (tableOf? seen.tables ⟨partner⟩).isSome := by
  rcases htwin.objects with ⟨placed, twin, hplaced, hpartner, -, hobject⟩
  rw [Bool.eq_iff_iff, hsame.numbers.isSome_tableOf?_iff hsame.examined hplaced,
    hsame.otherNumbers.isSome_tableOf?_iff hsame.otherExamined hpartner, hobject,
    ← htwin.member_eq hplaced hpartner]
  refine and_congr_right fun _ => exists_congr fun member => ?_
  exact (hsame.transGen_inherits_iff (hsame.numbers.member_mem hplaced)).symm

theorem isPolymorphic_eq :
    ((batch.graph found).object ⟨number⟩).isPolymorphic =
      ((other.graph seen).object ⟨partner⟩).isPolymorphic := by
  rcases htwin.objects with ⟨placed, twin, hplaced, hpartner, -, -⟩
  rw [isPolymorphic_graph _ hplaced, isPolymorphic_graph _ hpartner, hsame.isSome_tableOf?_eq htwin,
    isSome_eq_of_rel (hsame.rel_parents htwin)]

theorem layout_eq :
    ((batch.graph found).object ⟨number⟩).layout =
      ((other.graph seen).object ⟨partner⟩).layout := by
  rcases htwin.objects with ⟨placed, twin, hplaced, hpartner, -, hobject⟩
  rw [layout_graph, layout_graph, isPayload_graph _ hplaced, isPayload_graph _ hpartner, hobject,
    hsame.isPolymorphic_eq htwin]
  exact ofFields_eq (hsame.exists_fields htwin).1 _ _

/-- Twins have the same entry in the contracts. -/
theorem ofObject_eq :
    Contract.ofObject (batch.graph found) ((batch.graph found).object ⟨number⟩) =
      Contract.ofObject (other.graph seen) ((other.graph seen).object ⟨partner⟩) := by
  rcases hsame.exists_fields htwin with ⟨hfields, hstart, hroot⟩
  have hparents := hsame.rel_parents htwin
  have hpolymorphic := hsame.isPolymorphic_eq htwin
  have hlayout := hsame.layout_eq htwin
  rcases htwin.objects with ⟨placed, twin, hplaced, hpartner, houtline, hobject⟩
  have hspace : placed.space = twin.space := congrArg Outline.space houtline
  have hresponse := hsame.rel_response htwin hplaced hpartner
  rw [Contract.ofObject, Contract.ofObject, Contract.Object.mk.injEq]
  refine ⟨?_, ?_, ?_, ?_, hroot.qualifiedName_eq, ?_, hpolymorphic, ?_, ?_, ?_, ?_, ?_, ?_⟩
  · rw [object_graph _ hplaced, object_graph _ hpartner]
    exact congrArg Declaration.Object.name hobject
  · rw [object_graph _ hplaced, object_graph _ hpartner]
    exact congrArg Declaration.Object.tag hobject
  · rw [object_graph _ hplaced, object_graph _ hpartner]
    exact congrArg Declaration.Object.role hobject
  · rw [parent_graph hsame.examined, parent_graph hsame.otherExamined]
    exact map_qualifiedName_eq (rel_map_mk hparents)
  · rw [kindTag_graph _ hplaced, kindTag_graph _ hpartner, isSome_eq_of_rel hparents, hobject]
  · rw [hlayout]
  · rw [hlayout]
  · rw [wireId_graph _ hplaced hsame.examined, wireId_graph _ hpartner hsame.otherExamined, hobject,
      hspace]
  · rw [object_graph _ hplaced, object_graph _ hpartner]
    exact map_qualifiedName_eq hresponse
  · rw [object_graph _ hplaced, object_graph _ hpartner]
    exact map_qualifiedName_eq (hsame.rel_request htwin)
  · rw [hstart]
    exact map_ofField_eq hfields 0

/-! ## Tables in contracts -/

theorem exists_twin_member {table table' : DispatchTable}
    (htable : tableOf? found.tables ⟨number⟩ = some table)
    (htable' : tableOf? seen.tables ⟨partner⟩ = some table') {tag : UInt32} {id : ObjectId}
    (hid : table.members.find? tag = some id) :
    ∃ relative, table'.members.find? tag = some relative ∧ TwinIds batch other id relative := by
  rcases (hsame.numbers.find?_table_iff hsame.examined htable).mp hid with ⟨htag, rfl⟩ | hmember
  · exact ⟨⟨partner⟩, (hsame.otherNumbers.find?_table_iff hsame.otherExamined htable').mpr
      (.inl ⟨htag, rfl⟩), htwin⟩
  · rcases hmember with ⟨placed, above, hplaced, habove, htag, hroot, hpath⟩
    rcases hsame.exists_twin hplaced with ⟨relative, hrelative⟩
    rcases hrelative.objects with ⟨_, below, -, hbelow, -, -⟩
    rcases htwin.objects with ⟨_, root, -, hpartner, -, -⟩
    refine ⟨⟨relative⟩, ?_, hrelative⟩
    apply (hsame.otherNumbers.find?_table_iff hsame.otherExamined htable').mpr
    rw [← hsame.transGen_inherits_iff (hsame.numbers.member_mem habove),
      hrelative.member_eq hplaced hbelow, htwin.member_eq habove hpartner] at hpath
    have hobject : above.object = root.object :=
      congrArg Member.object (htwin.member_eq habove hpartner)
    rw [hrelative.member_eq hplaced hbelow] at htag
    exact .inr ⟨below, root, hbelow, hpartner, htag, hobject ▸ hroot, hpath⟩

theorem exists_member_of_twin {table table' : DispatchTable}
    (htable : tableOf? found.tables ⟨number⟩ = some table)
    (htable' : tableOf? seen.tables ⟨partner⟩ = some table') {tag : UInt32} {id : ObjectId}
    (hid : table'.members.find? tag = some id) :
    ∃ member, table.members.find? tag = some member := by
  rcases (hsame.otherNumbers.find?_table_iff hsame.otherExamined htable').mp hid with
    ⟨htag, -⟩ | ⟨below, root, hbelow, hroot, htag, hnone, hpath⟩
  · exact ⟨⟨number⟩, (hsame.numbers.find?_table_iff hsame.examined htable).mpr (.inl ⟨htag, rfl⟩)⟩
  · rcases htwin.objects with ⟨placed, _, hplaced, -, -, -⟩
    have hmember := htwin.member_eq hplaced hroot
    rw [← hmember, hsame.transGen_inherits_iff (hsame.numbers.member_mem hplaced)] at hpath
    rcases TransGen.head'_iff.mp hpath with ⟨_, hinherits, -⟩
    rcases hsame.numbers.exists_number hinherits.child_mem with ⟨child, relative, hchild, hrelative⟩
    have hobject : placed.object = root.object := congrArg Member.object hmember
    rw [← hrelative] at hpath htag
    exact ⟨⟨child⟩, (hsame.numbers.find?_table_iff hsame.examined htable).mpr
      (.inr ⟨relative, placed, hchild, hplaced, htag, hobject ▸ hnone, hpath⟩)⟩

/-- The tables of twins have the same entry in the contracts. -/
theorem ofTable_eq :
    (tableOf? found.tables ⟨number⟩).map (Contract.ofTable (batch.graph found)) =
      (tableOf? seen.tables ⟨partner⟩).map (Contract.ofTable (other.graph seen)) := by
  have hsome := hsame.isSome_tableOf?_eq htwin
  cases htable : tableOf? found.tables ⟨number⟩ with
  | none =>
      rw [htable] at hsome
      rw [Option.isSome_eq_false_iff.mp hsome.symm |> Option.isNone_iff_eq_none.mp]
      rfl
  | some table =>
      rw [htable] at hsome
      rcases Option.isSome_iff_exists.mp hsome.symm with ⟨table', htable'⟩
      rw [htable', Option.map_some, Option.map_some, Option.some.injEq]
      have hfind (tag : UInt32) :
          (table.members.find? tag).map (Contract.qualifiedName (batch.graph found)) =
            (table'.members.find? tag).map (Contract.qualifiedName (other.graph seen)) := by
        apply map_qualifiedName_eq
        apply rel_of_some
        · exact fun id hid => hsame.exists_twin_member htwin htable htable' hid
        · exact fun id hid => hsame.exists_member_of_twin htwin htable htable' hid
      have hentries := congrArg
        (List.map fun entry : UInt32 × String => Contract.DispatchEntry.mk entry.1 entry.2)
        (TagMap.map_entries_eq hfind)
      rw [List.map_map, List.map_map] at hentries
      rw [Contract.ofTable, Contract.ofTable, Contract.Dispatch.mk.injEq, (tableOf?_root htable).2,
        (tableOf?_root htable').2]
      exact ⟨htwin.qualifiedName_eq, hentries⟩

end Included

namespace Included

variable {outlines larger : List Outline} {batch other : Batch} {found seen : Findings}
  (hsame : Included outlines larger batch other found seen)

include hsame

theorem wireId_eq {number partner : Nat} (htwin : Twin batch other number partner) :
    ((batch.graph found).object ⟨number⟩).wireId =
      ((other.graph seen).object ⟨partner⟩).wireId := by
  have hobject := congrArg Contract.Object.wireId (hsame.ofObject_eq htwin)
  exact hobject

theorem factory_eq {ids twins : List ObjectId}
    (hall : List.Forall₂ (TwinIds batch other) ids twins) :
    ((batch.graph found).withWireIds ids).map
        (fun entry => Contract.FactoryEntry.mk entry.1
          (Contract.qualifiedName (batch.graph found) entry.2)) =
      ((other.graph seen).withWireIds twins).map
        fun entry => Contract.FactoryEntry.mk entry.1
          (Contract.qualifiedName (other.graph seen) entry.2) := by
  induction hall with
  | nil => rfl
  | @cons id twin _ _ hid _ ih =>
      rw [Graph.withWireIds, Graph.withWireIds] at ih ⊢
      rw [List.filterMap_cons, List.filterMap_cons]
      have hwire :
          ((batch.graph found).object id).wireId = ((other.graph seen).object twin).wireId :=
        hsame.wireId_eq hid
      rw [hwire]
      cases ((other.graph seen).object twin).wireId with
      | none => exact ih
      | some wire =>
          dsimp only [Option.map_some]
          rw [List.map_cons, List.map_cons, ih]
          exact congrArg (fun name => Contract.FactoryEntry.mk wire name :: _) hid.qualifiedName_eq

/-! ## Contracts of namespaces -/

section Homes

variable {home partner : PlacedOutline} (hhome : home ∈ batch.outlines)
  (hpartner : partner ∈ other.outlines) (houtline : home.outline = partner.outline)

include hhome hpartner houtline

theorem forall₂_idsWithRoles (roles : List Role) :
    List.Forall₂ (TwinIds batch other) (idsWithRoles home roles) (idsWithRoles partner roles) := by
  rw [idsWithRoles, idsWithRoles, ← houtline]
  apply List.rel_filterMap (R := fun entry twin => entry = twin ∧
    home.outline.objects[entry.2]? = some entry.1)
  · rintro ⟨object, place⟩ _ ⟨rfl, hobject⟩
    dsimp only
    split
    · exact .some (hsame.twin_of_place hhome hpartner houtline hobject)
    · exact .none
  · rw [List.forall₂_same]
    rintro ⟨object, place⟩ hentry
    exact ⟨rfl, List.mem_zipIdx_iff_getElem?.mp hentry⟩

theorem forall₂_payloads :
    List.Forall₂ (TwinIds batch other) (namespaceOf home).payloads
      (namespaceOf partner).payloads := by
  have hroles := hsame.forall₂_idsWithRoles hhome hpartner houtline
  exact List.rel_append (List.rel_append (hroles _) (hroles _)) (hroles _)

/-- What the contracts tell of each object of a document, they tell of its twin. -/
theorem map_objectIds_eq {α : Type} {f g : ObjectId → α}
    (hids : ∀ id twin, TwinIds batch other id twin → f id = g twin) :
    home.objectIds.map f = partner.objectIds.map g := by
  rw [PlacedOutline.objectIds, PlacedOutline.objectIds, List.map_map, List.map_map, ← houtline]
  apply List.map_congr_left
  intro place hplace
  apply hids
  exact hsame.twin_of_place hhome hpartner houtline
    (List.getElem?_eq_getElem (List.mem_range.mp hplace))

/-- A document has the same contract in both graphs. -/
theorem ofNamespace_eq :
    Contract.ofNamespace (batch.graph found) (namespaceOf home) =
      Contract.ofNamespace (other.graph seen) (namespaceOf partner) := by
  have hids {α : Type} {f g : ObjectId → α}
      (heach : ∀ id twin, TwinIds batch other id twin → f id = g twin) :
      home.objectIds.map f = partner.objectIds.map g :=
    hsame.map_objectIds_eq hhome hpartner houtline heach
  rw [hsame.numbers.ofNamespace_graph hsame.examined hhome,
    hsame.otherNumbers.ofNamespace_graph hsame.otherExamined hpartner, Contract.Manifest.mk.injEq]
  refine ⟨congrArg Outline.space houtline, ?_, ?_, ?_, ?_⟩
  · rw [houtline]
  · exact hids fun _ _ htwin => hsame.ofObject_eq htwin
  · have htables := congrArg (List.filterMap id)
      (hids fun (root twin : ObjectId) htwin => hsame.ofTable_eq htwin)
    rw [List.filterMap_map, List.filterMap_map] at htables
    rw [List.map_filterMap, List.map_filterMap]
    exact htables
  · exact hsame.factory_eq (hsame.forall₂_payloads hhome hpartner houtline)

end Homes

/-- Every namespace of the smaller batch has the same contract in both graphs. -/
theorem exists_ofGraph? {outline : Outline} (houtline : outline ∈ outlines) :
    ∃ manifest, Contract.ofGraph? (batch.graph found) outline.space = some manifest ∧
      Contract.ofGraph? (other.graph seen) outline.space = some manifest := by
  rcases hsame.numbers.exists_home houtline with ⟨home, hhome, rfl⟩
  rcases hsame.exists_partner hhome with ⟨partner, hpartner, houtline⟩
  refine ⟨Contract.ofNamespace (batch.graph found) (namespaceOf home), ?_, ?_⟩
  · rw [Contract.ofGraph?, hsame.numbers.namespace?_graph hhome, Option.map_some]
  · rw [Contract.ofGraph?, houtline, hsame.otherNumbers.namespace?_graph hpartner, Option.map_some,
      hsame.ofNamespace_eq hhome hpartner houtline]

end Included

/-- Every namespace has the same contract in both graphs. -/
theorem Reordered.ofGraph?_eq {outlines shuffled : List Outline} {batch other : Batch}
    {found seen : Findings} (hsame : Reordered outlines shuffled batch other found seen)
    (space : String) :
    Contract.ofGraph? (batch.graph found) space = Contract.ofGraph? (other.graph seen) space := by
  by_cases hspace : ∃ outline ∈ outlines, outline.space = space
  · rcases hspace with ⟨outline, houtline, rfl⟩
    rcases hsame.included.exists_ofGraph? houtline with ⟨manifest, hmanifest, hmanifest'⟩
    rw [hmanifest, hmanifest']
  · have hnone : ∀ outline ∈ outlines, outline.space ≠ space :=
      fun outline houtline hsame => hspace ⟨outline, houtline, hsame⟩
    have hnone' : ∀ outline ∈ shuffled, outline.space ≠ space :=
      fun outline houtline => hnone outline ((hsame.mem_iff outline).mpr houtline)
    rw [Contract.ofGraph?, Contract.ofGraph?, hsame.numbers.namespace?_graph_eq_none hnone,
      hsame.otherNumbers.namespace?_graph_eq_none hnone']
    rfl

end Batch

namespace Graph

theorem exists_compile_of_perm {documents shuffled : List Document}
    (hperm : documents.Perm shuffled) {graph : Graph} (hcompile : compile documents = .ok graph) :
    ∃ other, compile shuffled = .ok other := by
  rcases Outcome.bind_eq_ok hcompile with ⟨outlines, hread, hresolve⟩
  rcases Outcome.exists_perm_of_mapM hperm hread with ⟨moved, hmoved, hmoves⟩
  have hconsistent := (exists_resolve_iff (proper_of_mapM hread)).mp ⟨graph, hresolve⟩
  rcases (exists_resolve_iff (proper_of_mapM hmoved)).mpr (hconsistent.of_perm hmoves) with
    ⟨other, hother⟩
  exact ⟨other, by rw [compile, hmoved]; exact hother⟩

/-- Whether documents are accepted does not depend on their order, and neither does the contract of
any namespace. -/
theorem compile_perm {documents shuffled : List Document} (hperm : documents.Perm shuffled) :
    ((∃ graph, compile documents = .ok graph) ↔ ∃ graph, compile shuffled = .ok graph) ∧
      ∀ graph other, compile documents = .ok graph → compile shuffled = .ok other →
        ∀ space, Contract.ofGraph? graph space = Contract.ofGraph? other space := by
  constructor
  · constructor
    · rintro ⟨graph, hcompile⟩
      exact exists_compile_of_perm hperm hcompile
    · rintro ⟨graph, hcompile⟩
      exact exists_compile_of_perm hperm.symm hcompile
  · intro graph other hcompile hcompile' space
    rcases Outcome.bind_eq_ok hcompile with ⟨outlines, hread, hresolve⟩
    rcases Outcome.bind_eq_ok hcompile' with ⟨moved, hmoved, hresolve'⟩
    rcases exists_batch_of_resolve (proper_of_mapM hread) hresolve with
      ⟨batch, found, hnumbers, hfound, rfl⟩
    rcases exists_batch_of_resolve (proper_of_mapM hmoved) hresolve' with
      ⟨partner, seen, hnumbers', hseen, rfl⟩
    rcases Outcome.exists_perm_of_mapM hperm hread with ⟨_, hmoved', hmoves⟩
    rw [hmoved, Except.ok.injEq] at hmoved'
    subst hmoved'
    have hsame : Batch.Reordered outlines moved batch partner found seen :=
      ⟨hnumbers, hnumbers', hfound, hseen, fun _ => hmoves.mem_iff⟩
    exact hsame.ofGraph?_eq space

end Graph

namespace Sample

/-- Two documents that refer to each other. -/
def ships : Document :=
  ⟨"ship", .object [("vessel", .object [
    ("name", .string "string"), ("?berth", .string "@dock:berth")])]⟩

def docks : Document :=
  ⟨"dock", .object [
    ("berth", .object [("depth", .string "uint16")]),
    ("tug@ship:vessel", .object [("power", .string "float")]),
    ("arrive", .array [.object [("vessel", .string "@ship:vessel")]])]⟩

theorem harbour_swapped :
    [ships, docks].Perm [docks, ships] ∧
      ∀ space, Contract.ofGraph? (schemaOf 1 [ships, docks]).graph space =
        Contract.ofGraph? (schemaOf 1 [docks, ships]).graph space := by
  have hperm : [ships, docks].Perm [docks, ships] := .swap ..
  exact ⟨hperm, (Graph.compile_perm hperm).2 _ _ (compile_schemaOf 1 (by decide +kernel))
    (compile_schemaOf 1 (by decide +kernel))⟩

end Sample

end WireSchema
