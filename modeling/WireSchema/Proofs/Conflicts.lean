import WireSchema.Proofs.Flattened
import WireSchema.Proofs.Forest

/-!
# Conflicts of inherited fields

The fields of a lineage are put together unless an object declares a field that an ancestor of it
declares too.  Such a conflict is reported with the object, the field and the ancestor, and it is
found wherever there is one.
-/

namespace WireSchema

open Relation (TransGen)

/-- What holds of a batch when the fields of its objects are put together. -/
structure Resolvable (outlines : List Outline) : Prop extends Linked outlines where
  references : ∀ member ∈ membersOf outlines, ∀ field ∈ member.object.fields, ∀ link,
    field.shape.link? = some link → DeclaresEnum outlines link ∨ DeclaresObject outlines link
  acyclic : ∀ member, ¬ TransGen (Inherits outlines) member member

/-- A member declares a field with a name that one of its ancestors gives to a field, too. -/
structure Redeclares (outlines : List Outline) (member ancestor : Member) (name : String) :
    Prop where
  inherits : TransGen (Inherits outlines) member ancestor
  declared : name ∈ member.object.fields.map (·.name)
  inherited : name ∈ ancestor.object.fields.map (·.name)

/-- How it is reported that a member declares a field again. -/
def conflict (member ancestor : Member) (name : String) : SchemaError :=
  .inheritedFieldConflict member.space member.object.tag name ancestor.label

namespace Batch

variable {batch : Batch} {own : List (List Field)} {fault : SchemaError}

theorem exists_held_of_extendFields {index : Nat} {inherited fields : List Field}
    (hown : NamesDistinct fields)
    (hrun : batch.extendFields index inherited fields = .error fault) :
    ∃ field ∈ fields, ∃ held ∈ inherited, held.name = field.name ∧
      ∀ placed, batch.objects[index]? = some placed →
        fault = .inheritedFieldConflict placed.space placed.object.tag field.name
          (batch.label held.declaredIn.index) := by
  induction fields generalizing inherited with
  | nil => cases hrun
  | cons field rest ih =>
      rw [extendFields] at hrun
      rw [NamesDistinct, List.map_cons, List.nodup_cons] at hown
      split at hrun
      next held hheld =>
        have hname : held.name = field.name := by simpa using List.find?_some hheld
        refine ⟨field, List.mem_cons_self, held, List.mem_of_find?_eq_some hheld, hname, ?_⟩
        intro placed hplaced
        rw [hplaced] at hrun
        exact (Except.error.inj hrun).symm
      next =>
        rcases ih hown.2 hrun with ⟨other, hother, held, hheld, hname, hfault⟩
        refine ⟨other, List.mem_cons_of_mem _ hother, held, ?_, hname, hfault⟩
        -- The object's own fields have different names: the one that is held is an inherited one.
        rcases List.mem_append.mp hheld with hheld | hheld
        · exact hheld
        · rw [List.mem_singleton.mp hheld] at hname
          exact absurd (hname ▸ List.mem_map_of_mem hother) hown.1

theorem lineageFields_of_flatten {lineage : List Nat}
    (hrun : batch.flatten own lineage = .error fault) :
    batch.lineageFields own [] lineage = .error fault := by
  have hsplit : lineage.dropLast ++ lineage.drop (lineage.length - 1) = lineage := by
    rw [List.dropLast_eq_take, List.take_append_drop]
  rw [← hsplit, lineageFields_append, Outcome.bind_eq_error_iff]
  unfold flatten at hrun
  rcases Outcome.bind_eq_error_iff.mp hrun with hfirst | ⟨inherited, hfirst, hrun⟩
  · exact .inl hfirst
  · rcases Outcome.bind_eq_error_iff.mp hrun with hlast | ⟨fields, -, hrun⟩
    · exact .inr ⟨inherited, hfirst, hlast⟩
    · cases hrun

/-- The fields of a lineage fail to be put together at a member that clashes with one before it. -/
theorem exists_pair_of_lineageFields {passed rest : List Nat}
    (hpassed : NamesDistinct (passed.flatMap (ownIn own)))
    (hown : ∀ index, NamesDistinct (ownIn own index))
    (hrun : batch.lineageFields own (passed.flatMap (ownIn own)) rest = .error fault) :
    ∃ ancestor member, [ancestor, member].Sublist (passed ++ rest) ∧
      ∃ field ∈ ownIn own member, ∃ held ∈ ownIn own ancestor, held.name = field.name ∧
        ∀ placed, batch.objects[member]? = some placed →
          fault = .inheritedFieldConflict placed.space placed.object.tag field.name
            (batch.label held.declaredIn.index) := by
  induction rest generalizing passed with
  | nil => cases hrun
  | cons index rest ih =>
      rw [lineageFields] at hrun
      rcases Outcome.bind_eq_error_iff.mp hrun with hextend | ⟨extended, hextend, hrun⟩
      · rcases exists_held_of_extendFields (hown index) hextend with
          ⟨field, hfield, held, hheld, hclash⟩
        rcases List.mem_flatMap.mp hheld with ⟨ancestor, hancestor, hheld⟩
        refine ⟨ancestor, index, ?_, field, hfield, held, hheld, hclash⟩
        exact (List.singleton_sublist.mpr hancestor).append
          (List.singleton_sublist.mpr List.mem_cons_self)
      · rcases (extendFields_eq_ok_iff hpassed).mp hextend with ⟨rfl, hdistinct⟩
        have hsplit : passed.flatMap (ownIn own) ++ own[index]?.getD [] =
            (passed ++ [index]).flatMap (ownIn own) := by
          rw [List.flatMap_append, List.flatMap_singleton]
          rfl
        rw [hsplit] at hrun hdistinct
        have hlater := ih hdistinct hrun
        rw [List.append_assoc] at hlater
        exact hlater

theorem declaredIn_of_ownFields {placed : PlacedObject} {number : Nat} {fields : List Field}
    (hrun : batch.ownFields placed number = .ok fields) {field : Field} (hfield : field ∈ fields) :
    field.declaredIn = ⟨number⟩ := by
  rcases Outcome.exists_mem_of_mapM hrun hfield with ⟨declared, -, hresolve⟩
  rcases Outcome.map_eq_ok hresolve with ⟨type, -, rfl⟩
  rfl

namespace Numbers

variable {outlines : List Outline} (hnumbers : batch.Numbers outlines)

include hnumbers

/-- Every fault of the pass over the fields is a conflict between a member and an ancestor. -/
theorem exists_redeclares_of_examine (hstage : fault.stage = .fields)
    (hrun : batch.examine = .error fault) :
    Resolvable outlines ∧ ∃ member ancestor name,
      Redeclares outlines member ancestor name ∧ fault = conflict member ancestor name := by
  rcases (examine_eq_error_fields_iff hstage).mp hrun with
    ⟨parents, hparents, lineages, hlineages, own, hown, hrun⟩
  have hlength := (Outcome.forall₂_of_mapM hparents).length_eq.symm
  constructor
  · exact
      { spaces := hnumbers.spaces
        parents := hnumbers.exists_parents_iff.mp ⟨parents, hparents⟩
        references := hnumbers.exists_own_iff.mp ⟨own, hown⟩
        acyclic := (hnumbers.acyclic_iff hparents).mp
          ((exists_lineages_iff hlength).mp ⟨lineages, hlineages⟩) }
  · have hnames {number : Nat} {placed : PlacedObject}
        (hplaced : batch.objects[number]? = some placed) :
        (batch.ownAt number).map (·.name) = placed.object.fields.map (·.name) :=
      map_name_of_ownFields (ownFields_eq_ownAt hown hplaced)
    have hdistinct (number : Nat) : NamesDistinct (ownIn own number) := by
      rw [ownIn_eq hown]
      cases hplaced : batch.objects[number]? with
      | none => simp [NamesDistinct, ownAt, hplaced]
      | some placed =>
          rw [NamesDistinct, hnames hplaced]
          exact (hnumbers.sound.of_getElem? hplaced).fields_nodup
    rcases Outcome.exists_of_mapM_eq_error hrun with ⟨lineage, hmem, hlineage⟩
    rcases List.mem_iff_getElem?.mp hmem with ⟨number, hnumber⟩
    have hempty : NamesDistinct ([].flatMap (ownIn own)) := List.nodup_nil
    rcases exists_pair_of_lineageFields hempty hdistinct (lineageFields_of_flatten hlineage) with
      ⟨above, below, hpair, field, hfield, held, hheld, hname, hfault⟩
    have hpath := List.pairwise_iff_forall_sublist.mp
      (lineage_of_getElem? hlineages hnumber).pairwise_transGen hpair
    rcases hnumbers.exists_transGen hparents hpath with
      ⟨placed, ancestor, hplaced, hancestor, hinherits⟩
    rw [ownIn_eq hown] at hfield hheld
    refine ⟨placed.member, ancestor.member, field.name, ⟨hinherits, ?_, ?_⟩, ?_⟩
    · exact hnames hplaced ▸ List.mem_map_of_mem hfield
    · rw [← hname]
      exact hnames hancestor ▸ List.mem_map_of_mem hheld
    · have hdeclared := declaredIn_of_ownFields (ownFields_eq_ownAt hown hancestor) hheld
      rw [hfault placed hplaced, hdeclared, label, hancestor]
      rfl

theorem exists_conflict_iff (hresolvable : Resolvable outlines) :
    (∃ space owner field ancestor,
        batch.examine = .error (.inheritedFieldConflict space owner field ancestor)) ↔
      ∃ member ancestor name, Redeclares outlines member ancestor name := by
  constructor
  · rintro ⟨space, owner, field, above, hrun⟩
    rcases (hnumbers.exists_redeclares_of_examine rfl hrun).2 with
      ⟨member, ancestor, name, hredeclares, -⟩
    exact ⟨member, ancestor, name, hredeclares⟩
  · rintro ⟨member, ancestor, name, hredeclares⟩
    rcases hnumbers.exists_parents_iff.mpr hresolvable.parents with ⟨parents, hparents⟩
    have hlength := (Outcome.forall₂_of_mapM hparents).length_eq.symm
    rcases (exists_lineages_iff hlength).mpr
      ((hnumbers.acyclic_iff hparents).mpr hresolvable.acyclic) with ⟨lineages, hlineages⟩
    rcases hnumbers.exists_own_iff.mpr hresolvable.references with ⟨own, hown⟩
    cases hrun : lineages.mapM (batch.flatten own) with
    | ok fields =>
        rcases List.mem_map.mp hredeclares.declared with ⟨field, hfield, hname⟩
        rcases List.mem_map.mp hredeclares.inherited with ⟨held, hheld, hsame⟩
        have hapart := (hnumbers.exists_fields_iff hparents hlineages hown).mp ⟨fields, hrun⟩
        exact absurd (hname.trans hsame.symm)
          (hapart member ancestor hredeclares.inherits field hfield held hheld)
    | error fault =>
        have hstage := stage_of_mapM (fun _ _ => stage_of_flatten) hrun
        rcases SchemaError.stage_eq_fields_iff.mp hstage with ⟨space, owner, field, above, rfl⟩
        exact ⟨space, owner, field, above, (examine_eq_error_fields_iff rfl).mpr
          ⟨parents, hparents, lineages, hlineages, own, hown, hrun⟩⟩

end Numbers
end Batch

/-- The fields of compiled objects are those of their parents and then their own, in the order of
the documents, and compiling fails for the names of fields exactly where one would be repeated. -/
theorem Graph.compile_flattens (documents : List Document) :
    (∀ graph, compile documents = .ok graph → graph.FlattensFields ∧
      List.Forall₂ ObjectType.DeclaredBy (bodiesOf documents) graph.objects.toList) ∧
    (∀ outlines, documents.mapM Outline.ofDocument = .ok outlines → Resolvable outlines →
      ((∃ space owner field ancestor,
          compile documents = .error (.inheritedFieldConflict space owner field ancestor)) ↔
        ∃ member ancestor name, Redeclares outlines member ancestor name)) ∧
    ∀ space owner field ancestor,
      compile documents = .error (.inheritedFieldConflict space owner field ancestor) →
        ∃ outlines, documents.mapM Outline.ofDocument = .ok outlines ∧ Resolvable outlines ∧
          ∃ member above, Redeclares outlines member above field ∧ space = member.space ∧
            owner = member.object.tag ∧ ancestor = above.label := by
  refine ⟨?_, ?_, ?_⟩
  · intro graph hcompile
    rcases exists_reading_of_compile hcompile with
      ⟨outlines, batch, found, hread, hnumbers, hfound, rfl⟩
    exact ⟨Batch.flattensFields_graph hfound, hnumbers.forall₂_declaredBy hread hfound⟩
  · intro outlines hread hresolvable
    rcases Batch.exists_ofOutlines_iff.mpr hresolvable.spaces with ⟨batch, hbatch⟩
    have hnumbers := Batch.numbers_ofOutlines hbatch (proper_of_mapM hread)
    rw [← hnumbers.exists_conflict_iff hresolvable]
    simp only [compile_eq_error_iff_examine hread hbatch]
  · intro space owner field ancestor hrun
    rcases (compile_eq_error_iff (by simp [SchemaError.stage]) (by simp [SchemaError.stage])).mp
      hrun with ⟨outlines, hread, batch, hbatch, hrun⟩
    have hnumbers := Batch.numbers_ofOutlines hbatch (proper_of_mapM hread)
    rcases hnumbers.exists_redeclares_of_examine rfl hrun with
      ⟨hresolvable, member, above, name, hredeclares, hfault⟩
    rw [conflict, SchemaError.inheritedFieldConflict.injEq] at hfault
    rcases hfault with ⟨hspace, howner, rfl, hlabel⟩
    exact ⟨outlines, hread, hresolvable, member, above, hredeclares, hspace, howner, hlabel⟩

namespace Sample

/-- An object with a field of its grandparent, which another document declares. -/
def hedge : List Document :=
  [⟨"park", .object [("shrub@garden:bush", .object [("?height", .string "float")])]⟩,
    ⟨"garden", .object [
      ("bush@plant", .object [("leaves", .string "uint16")]),
      ("plant", .object [("height", .string "uint16")])]⟩]

theorem redeclares_hedge :
    (schemaOf 1 [ships, docks]).graph.FlattensFields ∧
      ∃ outlines, hedge.mapM Outline.ofDocument = .ok outlines ∧ Resolvable outlines ∧
        (∃ member ancestor name, Redeclares outlines member ancestor name) ∧
          ∃ member above, Redeclares outlines member above "height" ∧ "park" = member.space ∧
            "shrub" = member.object.tag ∧ "garden:plant" = above.label := by
  have hcompile : Graph.compile [ships, docks] = _ := compile_schemaOf 1 (by decide +kernel)
  have hrun : Graph.compile hedge =
      .error (.inheritedFieldConflict "park" "shrub" "height" "garden:plant") :=
    Outcome.eq_error_of_fault? (by decide +kernel)
  constructor
  · exact ((Graph.compile_flattens [ships, docks]).1 _ hcompile).1
  · rcases Graph.compile_flattens hedge with ⟨-, hconflicts, hreports⟩
    rcases hreports _ _ _ _ hrun with ⟨outlines, hread, hresolvable, hmember⟩
    exact ⟨outlines, hread, hresolvable,
      (hconflicts outlines hread hresolvable).mp ⟨_, _, _, _, hrun⟩, hmember⟩

end Sample

end WireSchema
