import WireSchema.Proofs.Identification
import WireSchema.Proofs.Numbering
import WireSchema.Proofs.Sharing
import WireSchema.Proofs.Tables

/-!
# What the passes find out

An accepted batch has one parent, lineage, list of fields and wire id for each of its objects, in
their order.  The fields of an object are those that the members of its lineage declare, with the
optional ones numbered, and every one of them is resolved from its declaration.
-/

namespace WireSchema
namespace Batch

variable {batch : Batch}

/-! ## Fields -/

/-- The fields that an object of the batch declares, resolved. -/
def ownAt (batch : Batch) (number : Nat) : List Field :=
  (batch.objects[number]?.bind fun placed => (batch.ownFields placed number).toOption).getD []

/-- All fields of the members of a lineage. -/
def allFields (batch : Batch) (lineage : List Nat) : List Field := lineage.flatMap batch.ownAt

theorem ownIn_eq {own : List (List Field)}
    (hown : batch.objects.zipIdx.mapM (fun (placed, index) => batch.ownFields placed index) =
      .ok own) : ownIn own = batch.ownAt := by
  funext number
  cases hplaced : batch.objects[number]? with
  | none =>
      have hlength := (Outcome.forall₂_of_mapM hown).length_eq
      rw [List.length_zipIdx] at hlength
      have hnone : own[number]? = none := by
        rw [List.getElem?_eq_none_iff] at hplaced ⊢
        omega
      simp [ownIn, ownAt, hplaced, hnone]
  | some placed =>
      have hentry : batch.objects.zipIdx[number]? = some (placed, number) := by
        simp [List.getElem?_zipIdx, hplaced]
      rcases Outcome.exists_getElem?_of_mapM hown hentry with ⟨fields, hfields, hrun⟩
      dsimp only at hrun
      simp [ownIn, ownAt, hplaced, hfields, hrun, Except.toOption]

theorem ownFields_eq_ownAt {own : List (List Field)}
    (hown : batch.objects.zipIdx.mapM (fun (placed, index) => batch.ownFields placed index) =
      .ok own) {number : Nat} {placed : PlacedObject}
    (hplaced : batch.objects[number]? = some placed) :
    batch.ownFields placed number = .ok (batch.ownAt number) := by
  have hentry : batch.objects.zipIdx[number]? = some (placed, number) := by
    simp [List.getElem?_zipIdx, hplaced]
  rcases Outcome.exists_getElem?_of_mapM hown hentry with ⟨fields, -, hrun⟩
  dsimp only at hrun
  simp [ownAt, hplaced, hrun, Except.toOption]

theorem map_name_of_ownFields {placed : PlacedObject} {number : Nat} {fields : List Field}
    (hrun : batch.ownFields placed number = .ok fields) :
    fields.map (·.name) = placed.object.fields.map (·.name) := by
  have hall := (Outcome.forall₂_of_mapM hrun).flip
  apply Outcome.map_eq_of_forall₂ hall
  intro field declared hresolve
  rcases Outcome.map_eq_ok hresolve with ⟨type, -, rfl⟩
  rfl

/-! ## All passes -/

/-- The objects with their numbers and their lineages. -/
def entries (batch : Batch) (lineages : List (List Nat)) : List Entry :=
  batch.objects.zip ((List.range lineages.length).zip lineages)

theorem getElem?_entries {lineages : List (List Nat)} {number : Nat} {entry : Entry} :
    (batch.entries lineages)[number]? = some entry ↔
      batch.objects[number]? = some entry.1 ∧ entry.2.1 = number ∧
        lineages[number]? = some entry.2.2 := by
  rw [entries, List.getElem?_zip_eq_some, List.getElem?_zip_eq_some]
  constructor
  · rintro ⟨hplaced, hnumber, hlineage⟩
    rcases List.getElem?_eq_some_iff.mp hnumber with ⟨hrange, hnumber⟩
    rw [List.getElem_range] at hnumber
    exact ⟨hplaced, hnumber.symm, hlineage⟩
  · rintro ⟨hplaced, hnumber, hlineage⟩
    refine ⟨hplaced, ?_, hlineage⟩
    rw [hnumber]
    exact List.getElem?_range (List.getElem?_eq_some_iff.mp hlineage).1

theorem mem_entries_iff {lineages : List (List Nat)} {placed : PlacedObject} {index : Nat}
    {lineage : List Nat} :
    (placed, index, lineage) ∈ batch.entries lineages ↔
      batch.objects[index]? = some placed ∧ lineages[index]? = some lineage := by
  simp only [List.mem_iff_getElem?, getElem?_entries]
  constructor
  · rintro ⟨place, hplaced, rfl, hlineage⟩
    exact ⟨hplaced, hlineage⟩
  · rintro ⟨hplaced, hlineage⟩
    exact ⟨index, hplaced, rfl, hlineage⟩

/-- What the findings tell about a batch. -/
structure Examined (batch : Batch) (found : Findings) : Prop where
  parents_eq : batch.objects.mapM batch.parentOf = .ok found.parents
  lineages_eq : (List.range batch.objects.length).mapM (batch.lineageOf found.parents) =
    .ok found.lineages
  own_eq : ∀ number placed, batch.objects[number]? = some placed →
    batch.ownFields placed number = .ok (batch.ownAt number)
  length_fields : found.fields.length = found.lineages.length
  fields_eq : ∀ (number : Nat) (lineage : List Nat), found.lineages[number]? = some lineage →
    NamesDistinct (batch.allFields lineage) ∧
      found.fields[number]? =
        some (numberFlags 0 (batch.allFields lineage), (batch.allFields lineage.dropLast).length)
  identified : Identified .empty batch.objects found.wireIds
  tabulated : Tabulated (batch.entries found.lineages) found.tables

/-- The passes succeed together exactly if they do one after another. -/
theorem exists_examine_iff :
    (∃ found, batch.examine = .ok found) ↔
      ∃ parents, batch.objects.mapM batch.parentOf = .ok parents ∧
        ∃ lineages,
          (List.range batch.objects.length).mapM (batch.lineageOf parents) = .ok lineages ∧
            ∃ own, batch.objects.zipIdx.mapM
                (fun (placed, index) => batch.ownFields placed index) = .ok own ∧
              (∃ fields, lineages.mapM (batch.flatten own) = .ok fields) ∧
                (∃ wireIds, assignIds .empty batch.objects = .ok wireIds) ∧
                  ∃ tables, batch.buildTables [] (batch.entries lineages) = .ok tables := by
  rw [examine_eq]
  constructor
  · rintro ⟨found, hexamine⟩
    rcases Outcome.bind_eq_ok hexamine with ⟨parents, hparents, hexamine⟩
    rcases Outcome.bind_eq_ok hexamine with ⟨lineages, hlineages, hexamine⟩
    rcases Outcome.bind_eq_ok hexamine with ⟨own, hown, hexamine⟩
    rcases Outcome.bind_eq_ok hexamine with ⟨fields, hfields, hexamine⟩
    rcases Outcome.bind_eq_ok hexamine with ⟨wireIds, hwireIds, hexamine⟩
    rcases Outcome.bind_eq_ok hexamine with ⟨tables, htables, -⟩
    exact ⟨parents, hparents, lineages, hlineages, own, hown, ⟨fields, hfields⟩,
      ⟨wireIds, hwireIds⟩, tables, htables⟩
  · rintro ⟨parents, hparents, lineages, hlineages, own, hown, ⟨fields, hfields⟩,
      ⟨wireIds, hwireIds⟩, tables, htables⟩
    refine ⟨⟨parents, lineages, fields, wireIds, tables⟩, ?_⟩
    rw [entries] at htables
    simp only [hparents, hlineages, hown, hfields, hwireIds, htables, bind, Except.bind]
    rfl

theorem examined_of_examine {found : Findings} (hexamine : batch.examine = .ok found) :
    batch.Examined found := by
  rw [examine_eq] at hexamine
  obtain ⟨parents, hparents, hexamine⟩ := Outcome.bind_eq_ok hexamine
  obtain ⟨lineages, hlineages, hexamine⟩ := Outcome.bind_eq_ok hexamine
  obtain ⟨own, hown, hexamine⟩ := Outcome.bind_eq_ok hexamine
  obtain ⟨fields, hfields, hexamine⟩ := Outcome.bind_eq_ok hexamine
  obtain ⟨wireIds, hwireIds, hexamine⟩ := Outcome.bind_eq_ok hexamine
  obtain ⟨tables, htables, hexamine⟩ := Outcome.bind_eq_ok hexamine
  cases hexamine
  constructor
  · exact hparents
  · exact hlineages
  · exact fun number placed hplaced => ownFields_eq_ownAt hown hplaced
  · exact (Outcome.forall₂_of_mapM hfields).length_eq.symm
  · intro number lineage hlineage
    rcases Outcome.exists_getElem?_of_mapM hfields hlineage with ⟨⟨all, ownStart⟩, hall, hrun⟩
    rcases flatten_eq_ok_iff.mp hrun with ⟨hdistinct, rfl, rfl⟩
    rw [ownIn_eq hown] at hdistinct hall
    exact ⟨hdistinct, hall⟩
  · exact identified_of_assignIds hwireIds
  · exact tabulated_of_buildTables tabulated_nil htables

namespace Examined

variable {found : Findings} (hfound : batch.Examined found)

include hfound

theorem length_parents : found.parents.length = batch.objects.length :=
  (Outcome.forall₂_of_mapM hfound.parents_eq).length_eq.symm

theorem exists_parent (number : Nat) (placed : PlacedObject)
    (hplaced : batch.objects[number]? = some placed) :
    ∃ parent, found.parents[number]? = some parent ∧ batch.parentOf placed = .ok parent :=
  Outcome.exists_getElem?_of_mapM hfound.parents_eq hplaced

theorem exists_lineage (number : Nat) (placed : PlacedObject)
    (hplaced : batch.objects[number]? = some placed) :
    ∃ lineage, found.lineages[number]? = some lineage ∧ lineage.Nodup ∧
      Lineage found.parents number lineage :=
  exists_getElem?_lineages hfound.lineages_eq hplaced

/-- The declared fields of an object and what they are resolved to, one by one. -/
theorem forall₂_ownAt {number : Nat} {placed : PlacedObject}
    (hplaced : batch.objects[number]? = some placed) :
    List.Forall₂ (fun declared field => batch.resolveField placed ⟨number⟩ declared = .ok field)
      placed.object.fields (batch.ownAt number) :=
  Outcome.forall₂_of_mapM (hfound.own_eq number placed hplaced)

theorem exists_of_mem_ownAt {number : Nat} {field : Field} (hfield : field ∈ batch.ownAt number) :
    ∃ placed declared, batch.objects[number]? = some placed ∧ declared ∈ placed.object.fields ∧
      batch.resolveField placed ⟨number⟩ declared = .ok field := by
  cases hplaced : batch.objects[number]? with
  | none => simp [ownAt, hplaced] at hfield
  | some placed =>
      obtain ⟨declared, hdeclared, hrun⟩ :=
        Outcome.exists_mem_of_mapM (hfound.own_eq number placed hplaced) hfield
      exact ⟨placed, declared, rfl, hdeclared, hrun⟩

/-- A field of an object has the type that a field declared in the batch resolves to. -/
theorem resolved {entry : List Field × Nat} (hentry : entry ∈ found.fields) {field : Field}
    (hfield : field ∈ entry.1) :
    ∃ (number : Nat) (placed : PlacedObject) (declared : Declaration.Field),
      batch.objects[number]? = some placed ∧ declared ∈ placed.object.fields ∧
        batch.resolveShape placed declared.shape = .ok field.type := by
  rcases List.mem_iff_getElem?.mp hentry with ⟨place, hplace⟩
  have hlt : place < found.lineages.length := by
    rw [← hfound.length_fields]
    exact (List.getElem?_eq_some_iff.mp hplace).1
  have hall := (hfound.fields_eq place _ (List.getElem?_eq_getElem hlt)).2
  rw [hplace, Option.some.injEq] at hall
  rw [hall] at hfield
  obtain ⟨original, horiginal, bit, rfl⟩ := exists_of_mem_numberFlags hfield
  obtain ⟨number, -, hown⟩ := List.mem_flatMap.mp horiginal
  obtain ⟨placed, declared, hplaced, hdeclared, hrun⟩ := hfound.exists_of_mem_ownAt hown
  obtain ⟨type, htype, rfl⟩ := Outcome.map_eq_ok hrun
  exact ⟨number, placed, declared, hplaced, hdeclared, htype⟩

end Examined

end Batch
end WireSchema
