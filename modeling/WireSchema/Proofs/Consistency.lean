import WireSchema.Proofs.Compiled
import WireSchema.Proofs.Members

/-!
# Consistent batches

Resolution accepts a batch exactly if the batch is consistent.  Consistency is a condition on the
declarations alone: it mentions neither numbers nor the order of documents, and each of its parts
is what one pass looks for.
-/

namespace WireSchema

open Relation (ReflTransGen TransGen)

/-- The link in a shape, at any depth of arrays. -/
def Declaration.Shape.link? : Declaration.Shape → Option Link
  | .link target => some target
  | .array element => element.link?
  | _ => none

namespace Member

/-- The wire id of a payload. -/
def wireId? (member : Member) : Option UInt32 :=
  member.object.wireName.map (WireIds.idOf member.space)

/-- What stands for a member on the wire, unless it is the root of its family. -/
def kindTag (member : Member) : UInt32 := Naming.wireHash member.object.name

end Member

/-- A link names a top-level object of a batch. -/
def DeclaresObject (outlines : List Outline) (link : Link) : Prop :=
  ∃ member ∈ membersOf outlines, member.object.role = .object ∧ member.link = link

/-- A link names an enum of a batch. -/
def DeclaresEnum (outlines : List Outline) (link : Link) : Prop :=
  ∃ outline ∈ outlines, outline.space = link.space ∧ ∃ type ∈ outline.enums, type.tag = link.tag

/-- What makes a batch of documents resolvable. -/
structure Consistent (outlines : List Outline) : Prop where
  spaces : SpacesDistinct outlines
  parents : ∀ member ∈ membersOf outlines, ∀ link, member.object.parent = some link →
    DeclaresObject outlines link
  references : ∀ member ∈ membersOf outlines, ∀ field ∈ member.object.fields, ∀ link,
    field.shape.link? = some link → DeclaresEnum outlines link ∨ DeclaresObject outlines link
  acyclic : ∀ member, ¬ TransGen (Inherits outlines) member member
  fieldNames : ∀ member ancestor, TransGen (Inherits outlines) member ancestor →
    ∀ field ∈ member.object.fields, ∀ inherited ∈ ancestor.object.fields,
      field.name ≠ inherited.name
  wireIds : ((membersOf outlines).filterMap Member.wireId?).Nodup
  kindTags : ∀ root first second, root.object.parent = none →
    TransGen (Inherits outlines) first root → TransGen (Inherits outlines) second root →
      first.kindTag = second.kindTag → first = second

/-! ## The order of the documents -/

section Order

variable {outlines shuffled : List Outline}

theorem inherits_congr (hmem : ∀ outline, outline ∈ outlines ↔ outline ∈ shuffled) :
    Inherits outlines = Inherits shuffled := by
  have hmembers (member : Member) : member ∈ membersOf outlines ↔ member ∈ membersOf shuffled := by
    simp only [mem_membersOf, hmem]
  funext child parent
  apply propext
  constructor
  · exact fun h => ⟨(hmembers _).mp h.child_mem, (hmembers _).mp h.parent_mem, h.role_eq, h.link_eq⟩
  · exact fun h =>
      ⟨(hmembers _).mpr h.child_mem, (hmembers _).mpr h.parent_mem, h.role_eq, h.link_eq⟩

/-- Consistency does not depend on the order of the documents. -/
theorem Consistent.of_perm (hconsistent : Consistent outlines) (hperm : outlines.Perm shuffled) :
    Consistent shuffled := by
  have hmembers : (membersOf outlines).Perm (membersOf shuffled) := hperm.flatMap_right _
  have hinherits : Inherits outlines = Inherits shuffled :=
    inherits_congr fun _ => hperm.mem_iff
  have hobject (link : Link) : DeclaresObject outlines link → DeclaresObject shuffled link := by
    rintro ⟨member, hmember, hlink⟩
    exact ⟨member, hmembers.mem_iff.mp hmember, hlink⟩
  have henum (link : Link) : DeclaresEnum outlines link → DeclaresEnum shuffled link := by
    rintro ⟨outline, houtline, hlink⟩
    exact ⟨outline, hperm.mem_iff.mp houtline, hlink⟩
  constructor
  · exact (hperm.map _).nodup_iff.mp hconsistent.spaces
  · intro member hmember link hlink
    exact hobject link (hconsistent.parents member (hmembers.mem_iff.mpr hmember) link hlink)
  · intro member hmember field hfield link hlink
    exact (hconsistent.references member (hmembers.mem_iff.mpr hmember) field hfield link hlink).imp
      (henum link) (hobject link)
  · rw [← hinherits]
    exact hconsistent.acyclic
  · rw [← hinherits]
    exact hconsistent.fieldNames
  · exact (hmembers.filterMap _).nodup_iff.mp hconsistent.wireIds
  · rw [← hinherits]
    exact hconsistent.kindTags

end Order

/-! ## Ancestors by their numbers -/

namespace Lineage

variable {parents : List (Option Nat)} {number : Nat} {lineage : List Nat}

theorem pairwise_transGen (hlineage : Lineage parents number lineage) :
    lineage.Pairwise fun ancestor member => TransGen (Up parents) member ancestor := by
  induction hlineage with
  | root hparent => exact List.pairwise_singleton _ _
  | child hparent habove ih =>
      rw [List.pairwise_append]
      refine ⟨ih, List.pairwise_singleton _ _, ?_⟩
      intro ancestor hancestor member hmember
      rw [List.mem_singleton.mp hmember]
      exact TransGen.head' hparent (habove.mem_iff.mp hancestor)

/-- A lineage of more than one object begins with the ancestor that has no parent. -/
theorem exists_below_iff (hlineage : Lineage parents number lineage) {root : Nat} :
    (∃ next more, lineage = root :: next :: more) ↔
      parents[root]?.join = none ∧ TransGen (Up parents) number root := by
  constructor
  · rintro ⟨next, more, rfl⟩
    rcases hlineage.exists_head with ⟨head, hhead, hparent⟩
    cases hhead
    exact ⟨hparent, hlineage.mem_dropLast_iff.mp (by simp)⟩
  · rintro ⟨hparent, hpath⟩
    have hmem := hlineage.mem_dropLast_iff.mpr hpath
    have hhead := hlineage.head?_eq (.root hparent) (List.dropLast_subset _ hmem)
    rcases lineage with - | ⟨first, - | ⟨next, more⟩⟩
    · cases hhead
    · cases hmem
    · cases hhead
      exact ⟨next, more, rfl⟩

end Lineage

theorem nodup_filterMap_iff {α β : Type} {f : α → Option β} {items : List α} :
    (items.filterMap f).Nodup ↔ ∀ (first second : Nat) item other result,
      items[first]? = some item → items[second]? = some other → f item = some result →
        f other = some result → first = second := by
  rw [List.Nodup, List.pairwise_filterMap, List.pairwise_iff_getElem]
  constructor
  · intro hall first second item other result hitem hother hresult hsame
    rcases List.getElem?_eq_some_iff.mp hitem with ⟨hfirst, rfl⟩
    rcases List.getElem?_eq_some_iff.mp hother with ⟨hsecond, rfl⟩
    rcases Nat.lt_trichotomy first second with hless | rfl | hless
    · exact absurd rfl (hall first second hfirst hsecond hless result hresult result hsame)
    · rfl
    · exact absurd rfl (hall second first hsecond hfirst hless result hsame result hresult)
  · rintro hall first second hfirst hsecond hless result hresult _ hsame rfl
    have heq := hall first second _ _ result (List.getElem?_eq_getElem hfirst)
      (List.getElem?_eq_getElem hsecond) hresult hsame
    omega

namespace Batch

theorem join_eq_none_iff {batch : Batch} {parents : List (Option Nat)} {number : Nat}
    {placed : PlacedObject} (hparents : batch.objects.mapM batch.parentOf = .ok parents)
    (hplaced : batch.objects[number]? = some placed) :
    parents[number]?.join = none ↔ placed.object.parent = none := by
  rcases Outcome.exists_getElem?_of_mapM hparents hplaced with ⟨parent, hparent, hrun⟩
  have hnone : batch.parentOf placed = .ok none ↔ placed.object.parent = none :=
    parentOf_eq_none_iff
  rw [hrun, Except.ok.injEq] at hnone
  rw [hparent, Option.join_some, hnone]

namespace Numbers

variable {batch : Batch} {outlines : List Outline} (hnumbers : batch.Numbers outlines)

include hnumbers

section Parents

variable {parents : List (Option Nat)}
  (hparents : batch.objects.mapM batch.parentOf = .ok parents)

include hparents

theorem up_iff {number parent : Nat} :
    Up parents number parent ↔ ∃ placed ancestor, batch.objects[number]? = some placed ∧
      batch.objects[parent]? = some ancestor ∧
        Inherits outlines placed.member ancestor.member := by
  constructor
  · intro hup
    have hnumber : number < parents.length := Lineage.lt_of_join hup
    rcases Outcome.getElem?_of_mapM hparents (List.getElem?_eq_getElem hnumber) with
      ⟨placed, hplaced, hrun⟩
    rw [Up, List.getElem?_eq_getElem hnumber, Option.join_some] at hup
    rw [hup] at hrun
    rcases (hnumbers.parentOf_eq_some_iff hplaced).mp hrun with ⟨ancestor, hancestor, hinherits⟩
    exact ⟨placed, ancestor, hplaced, hancestor, hinherits⟩
  · rintro ⟨placed, ancestor, hplaced, hancestor, hinherits⟩
    have hrun := (hnumbers.parentOf_eq_some_iff hplaced).mpr ⟨ancestor, hancestor, hinherits⟩
    rcases Outcome.exists_getElem?_of_mapM hparents hplaced with ⟨found, hfound, hother⟩
    rw [hrun, Except.ok.injEq] at hother
    rw [Up, hfound, ← hother, Option.join_some]

theorem exists_transGen {number ancestor : Nat} (hpath : TransGen (Up parents) number ancestor) :
    ∃ placed above, batch.objects[number]? = some placed ∧
      batch.objects[ancestor]? = some above ∧
        TransGen (Inherits outlines) placed.member above.member := by
  induction hpath with
  | single hup =>
      rcases (hnumbers.up_iff hparents).mp hup with ⟨placed, above, hplaced, habove, hinherits⟩
      exact ⟨placed, above, hplaced, habove, .single hinherits⟩
  | tail _ hup ih =>
      rcases ih with ⟨placed, middle, hplaced, hmiddle, hpath⟩
      rcases (hnumbers.up_iff hparents).mp hup with ⟨other, above, hother, habove, hinherits⟩
      rw [hmiddle, Option.some.injEq] at hother
      subst hother
      exact ⟨placed, above, hplaced, habove, hpath.tail hinherits⟩

theorem transGen_iff {number ancestor : Nat} {placed above : PlacedObject}
    (hplaced : batch.objects[number]? = some placed)
    (habove : batch.objects[ancestor]? = some above) :
    TransGen (Up parents) number ancestor ↔
      TransGen (Inherits outlines) placed.member above.member := by
  constructor
  · intro hpath
    rcases hnumbers.exists_transGen hparents hpath with ⟨first, second, hfirst, hsecond, hpath⟩
    rw [hplaced, Option.some.injEq] at hfirst
    rw [habove, Option.some.injEq] at hsecond
    exact hfirst ▸ hsecond ▸ hpath
  · intro hpath
    have hnumbered : ∀ member, TransGen (Inherits outlines) placed.member member →
        ∃ (place : Nat) (other : PlacedObject), batch.objects[place]? = some other ∧
          other.member = member ∧ TransGen (Up parents) number place := by
      intro member hmember
      induction hmember with
      | single hinherits =>
          rcases hnumbers.exists_number hinherits.parent_mem with ⟨place, other, hother, rfl⟩
          exact ⟨place, other, hother, rfl,
            .single ((hnumbers.up_iff hparents).mpr ⟨placed, other, hplaced, hother, hinherits⟩)⟩
      | tail _ hinherits ih =>
          rcases ih with ⟨middle, between, hbetween, rfl, hpath⟩
          rcases hnumbers.exists_number hinherits.parent_mem with ⟨place, other, hother, rfl⟩
          exact ⟨place, other, hother, rfl, hpath.tail
            ((hnumbers.up_iff hparents).mpr ⟨between, other, hbetween, hother, hinherits⟩)⟩
    rcases hnumbered above.member hpath with ⟨place, other, hother, hsame, hpath⟩
    rw [hnumbers.eq_of_member hother habove hsame] at hpath
    exact hpath

/-- No number is reached again exactly if no member is. -/
theorem acyclic_iff :
    (∀ number, ¬ TransGen (Up parents) number number) ↔
      ∀ member, ¬ TransGen (Inherits outlines) member member := by
  constructor
  · intro hacyclic member hpath
    rcases TransGen.tail'_iff.mp hpath with ⟨last, -, hinherits⟩
    rcases hnumbers.exists_number hinherits.parent_mem with ⟨number, placed, hplaced, rfl⟩
    exact hacyclic number ((hnumbers.transGen_iff hparents hplaced hplaced).mpr hpath)
  · intro hacyclic number hpath
    rcases hnumbers.exists_transGen hparents hpath with ⟨placed, above, hplaced, habove, hpath⟩
    rw [hplaced, Option.some.injEq] at habove
    subst habove
    exact hacyclic placed.member hpath

end Parents

/-! ## The passes one by one -/

theorem exists_parents_iff :
    (∃ parents, batch.objects.mapM batch.parentOf = .ok parents) ↔
      ∀ member ∈ membersOf outlines, ∀ link, member.object.parent = some link →
        DeclaresObject outlines link := by
  rw [Outcome.exists_mapM_iff]
  constructor
  · intro hall member hmember link hlink
    rcases hnumbers.exists_number hmember with ⟨number, placed, hplaced, rfl⟩
    rcases hall placed (List.mem_of_getElem? hplaced) with ⟨parent, hrun⟩
    cases parent with
    | none =>
        have hnone : placed.member.object.parent = none := parentOf_eq_none_iff.mp hrun
        rw [hnone] at hlink
        cases hlink
    | some parent =>
        rcases (hnumbers.parentOf_eq_some_iff hplaced).mp hrun with ⟨ancestor, -, hinherits⟩
        refine ⟨ancestor.member, hinherits.parent_mem, hinherits.role_eq, ?_⟩
        rw [hinherits.link_eq, Option.some.injEq] at hlink
        exact hlink
  · intro hall placed hmem
    rcases List.mem_iff_getElem?.mp hmem with ⟨number, hplaced⟩
    cases hlink : placed.object.parent with
    | none => exact ⟨none, parentOf_eq_none_iff.mpr hlink⟩
    | some link =>
        rcases hall placed.member (hnumbers.member_mem hplaced) link hlink with
          ⟨parent, hparent, hrole, hsame⟩
        rcases hnumbers.exists_number hparent with ⟨place, ancestor, hancestor, rfl⟩
        refine ⟨some place, (hnumbers.parentOf_eq_some_iff hplaced).mpr ⟨ancestor, hancestor, ?_⟩⟩
        exact ⟨hnumbers.member_mem hplaced, hparent, hrole, by rw [hsame]; exact hlink⟩

theorem exists_enumIndex?_iff {link : Link} {target : PlacedOutline}
    (htarget : target ∈ batch.outlines) (hspace : target.outline.space = link.space) :
    (∃ place, target.outline.enumIndex? link.tag = some place) ↔ DeclaresEnum outlines link := by
  have hmem := hnumbers.outline_mem htarget
  have hproper := hnumbers.proper _ hmem
  constructor
  · rintro ⟨place, hplace⟩
    rcases hproper.enumIndex?_eq_some_iff.mp hplace with ⟨type, htype, htag⟩
    exact ⟨target.outline, hmem, hspace, type, List.mem_of_getElem? htype, htag⟩
  · rintro ⟨outline, houtline, hother, type, htype, htag⟩
    rw [hnumbers.spaces.eq_of_space houtline hmem (hother.trans hspace.symm)] at htype
    rcases List.mem_iff_getElem?.mp htype with ⟨place, hplace⟩
    exact ⟨place, hproper.enumIndex?_eq_some_iff.mpr ⟨type, hplace, htag⟩⟩

theorem exists_objectIndex?_iff {link : Link} {target : PlacedOutline}
    (htarget : target ∈ batch.outlines) (hspace : target.outline.space = link.space) :
    (∃ place, target.outline.objectIndex? link.tag = some place) ↔
      DeclaresObject outlines link := by
  constructor
  · rintro ⟨place, hplace⟩
    rcases (hnumbers.exists_place_iff htarget hspace).mp ⟨place, hplace, rfl⟩ with
      ⟨placed, hplaced, hrole, hlink⟩
    exact ⟨placed.member, hnumbers.member_mem hplaced, hrole, hlink⟩
  · rintro ⟨member, hmember, hrole, hlink⟩
    rcases hnumbers.exists_number hmember with ⟨number, placed, hplaced, rfl⟩
    rcases (hnumbers.exists_place_iff htarget hspace).mpr ⟨placed, hplaced, hrole, hlink⟩ with
      ⟨place, hplace, -⟩
    exact ⟨place, hplace⟩

theorem exists_home_of_declared {link : Link}
    (hdeclared : DeclaresEnum outlines link ∨ DeclaresObject outlines link) :
    ∃ target ∈ batch.outlines, target.outline.space = link.space := by
  rcases hdeclared with ⟨outline, houtline, hspace, -⟩ | ⟨member, hmember, -, hlink⟩
  · rcases hnumbers.exists_home houtline with ⟨home, hhome, rfl⟩
    exact ⟨home, hhome, hspace⟩
  · rcases hnumbers.exists_number hmember with ⟨number, placed, hplaced, rfl⟩
    exact ⟨placed.home, (hnumbers.sound.exists_place number placed hplaced).1,
      congrArg Link.space hlink⟩

/-- A shape is resolved exactly if the link in it names a declaration. -/
theorem exists_resolveShape_iff {placed : PlacedObject} {shape : Declaration.Shape} :
    (∃ type, batch.resolveShape placed shape = .ok type) ↔
      ∀ link, shape.link? = some link →
        DeclaresEnum outlines link ∨ DeclaresObject outlines link := by
  induction shape with
  | primitive kind => simp [resolveShape, Declaration.Shape.link?]
  | text => simp [resolveShape, Declaration.Shape.link?]
  | binary length => simp [resolveShape, Declaration.Shape.link?]
  | embedded index => simp [resolveShape, Declaration.Shape.link?]
  | array element ih =>
      rw [resolveShape, Outcome.exists_map_iff, ih]
      rfl
  | link target =>
      rw [resolveShape]
      constructor
      · rintro ⟨type, hrun⟩ link hlink
        cases hlink
        rcases Outcome.bind_eq_ok hrun with ⟨home, hhome, hrun⟩
        rcases hnumbers.targetOutline_eq_ok_iff.mp hhome with ⟨hmem, hspace⟩
        split at hrun
        next place hplace =>
          exact .inl ((hnumbers.exists_enumIndex?_iff hmem hspace).mp ⟨place, hplace⟩)
        next place _ hplace =>
          exact .inr ((hnumbers.exists_objectIndex?_iff hmem hspace).mp ⟨place, hplace⟩)
        next => cases hrun
      · intro hall
        have hdeclared := hall target rfl
        rcases hnumbers.exists_home_of_declared hdeclared with ⟨home, hmem, hspace⟩
        have hhome : batch.targetOutline placed target = .ok home :=
          hnumbers.targetOutline_eq_ok_iff.mpr ⟨hmem, hspace⟩
        rw [hhome]
        cases henum : home.outline.enumIndex? target.tag with
        | some place =>
            exact ⟨.enum ⟨home.firstEnum + place⟩, by simp [henum, bind, Except.bind]; rfl⟩
        | none =>
            have hobject : DeclaresObject outlines target := by
              rcases hdeclared with hdeclared | hdeclared
              · rcases (hnumbers.exists_enumIndex?_iff hmem hspace).mpr hdeclared with
                  ⟨place, hplace⟩
                rw [henum] at hplace
                cases hplace
              · exact hdeclared
            rcases (hnumbers.exists_objectIndex?_iff hmem hspace).mpr hobject with ⟨place, hplace⟩
            exact ⟨.object ⟨home.firstObject + place⟩, by
              simp [henum, hplace, bind, Except.bind]; rfl⟩

theorem exists_own_iff :
    (∃ own, batch.objects.zipIdx.mapM (fun (placed, index) => batch.ownFields placed index) =
        .ok own) ↔
      ∀ member ∈ membersOf outlines, ∀ field ∈ member.object.fields, ∀ link,
        field.shape.link? = some link →
          DeclaresEnum outlines link ∨ DeclaresObject outlines link := by
  have hfields (placed : PlacedObject) (index : Nat) :
      (∃ fields, batch.ownFields placed index = .ok fields) ↔
        ∀ field ∈ placed.object.fields, ∀ link, field.shape.link? = some link →
          DeclaresEnum outlines link ∨ DeclaresObject outlines link := by
    rw [ownFields, Outcome.exists_mapM_iff]
    simp only [resolveField, Outcome.exists_map_iff, hnumbers.exists_resolveShape_iff]
  rw [Outcome.exists_mapM_iff]
  constructor
  · intro hall member hmember
    rcases hnumbers.exists_number hmember with ⟨number, placed, hplaced, rfl⟩
    have hentry : (placed, number) ∈ batch.objects.zipIdx :=
      List.mem_zipIdx_iff_getElem?.mpr hplaced
    exact (hfields placed number).mp (hall _ hentry)
  · rintro hall ⟨placed, number⟩ hentry
    have hplaced := List.mem_zipIdx_iff_getElem?.mp hentry
    exact (hfields placed number).mpr (hall placed.member (hnumbers.member_mem hplaced))

theorem requestedIds_eq :
    requestedIds batch.objects = (membersOf outlines).filterMap Member.wireId? := by
  rw [← hnumbers.map_member, List.filterMap_map]
  rfl

/-- The ids are assigned exactly if no two payloads have the same. -/
theorem exists_wireIds_iff :
    (∃ ids, assignIds .empty batch.objects = .ok ids) ↔
      ((membersOf outlines).filterMap Member.wireId?).Nodup := by
  rw [exists_assignIds_iff, hnumbers.requestedIds_eq]
  constructor
  · exact fun hboth => hboth.2
  · exact fun hnodup => ⟨fun _ _ => rfl, hnodup⟩

section Lineages

variable {parents : List (Option Nat)} {lineages : List (List Nat)}
  {own : List (List Field)} (hparents : batch.objects.mapM batch.parentOf = .ok parents)
  (hlineages : (List.range batch.objects.length).mapM (batch.lineageOf parents) = .ok lineages)

include hparents hlineages

/-- The fields of all objects are put together exactly if no object declares a field again. -/
theorem exists_fields_iff
    (hown : batch.objects.zipIdx.mapM (fun (placed, index) => batch.ownFields placed index) =
      .ok own) :
    (∃ fields, lineages.mapM (batch.flatten own) = .ok fields) ↔
      ∀ member ancestor, TransGen (Inherits outlines) member ancestor →
        ∀ field ∈ member.object.fields, ∀ inherited ∈ ancestor.object.fields,
          field.name ≠ inherited.name := by
  have hnames {number : Nat} {placed : PlacedObject}
      (hplaced : batch.objects[number]? = some placed) :
      (batch.ownAt number).map (·.name) = placed.object.fields.map (·.name) :=
    map_name_of_ownFields (ownFields_eq_ownAt hown hplaced)
  have hdisjoint {number ancestor : Nat} {placed above : PlacedObject}
      (hplaced : batch.objects[number]? = some placed)
      (habove : batch.objects[ancestor]? = some above) :
      ((batch.ownAt ancestor).map (·.name)).Disjoint ((batch.ownAt number).map (·.name)) ↔
        ∀ field ∈ placed.object.fields, ∀ inherited ∈ above.object.fields,
          field.name ≠ inherited.name := by
    rw [hnames hplaced, hnames habove, List.disjoint_comm, List.disjoint_iff_ne]
    simp only [List.forall_mem_map]
  rw [Outcome.exists_mapM_iff]
  simp only [exists_flatten_iff, ownIn_eq hown, namesDistinct_flatMap_iff]
  constructor
  · intro hall member ancestor hpath
    rcases TransGen.head'_iff.mp hpath with ⟨_, hfirst, -⟩
    rcases TransGen.tail'_iff.mp hpath with ⟨_, -, hlast⟩
    rcases hnumbers.exists_number hfirst.child_mem with ⟨number, placed, hplaced, rfl⟩
    rcases hnumbers.exists_number hlast.parent_mem with ⟨place, above, habove, rfl⟩
    rcases exists_getElem?_lineages hlineages hplaced with ⟨lineage, hlineage, -, hchain⟩
    have hpath := (hnumbers.transGen_iff hparents hplaced habove).mpr hpath
    have hmem := hchain.mem_dropLast_iff.mpr hpath
    have hpairs := (hall lineage (List.mem_of_getElem? hlineage)).2
    rw [← hchain.dropLast_append, List.pairwise_append] at hpairs
    exact (hdisjoint hplaced habove).mp (hpairs.2.2 place hmem number (List.mem_singleton_self _))
  · intro hall lineage hmem
    rcases List.mem_iff_getElem?.mp hmem with ⟨number, hlineage⟩
    have hchain := lineage_of_getElem? hlineages hlineage
    constructor
    · intro member _
      cases hplaced : batch.objects[member]? with
      | none => simp [NamesDistinct, ownAt, hplaced]
      | some placed =>
          rw [NamesDistinct, hnames hplaced]
          exact (hnumbers.sound.of_getElem? hplaced).fields_nodup
    · refine hchain.pairwise_transGen.imp ?_
      intro ancestor member hpath
      rcases hnumbers.exists_transGen hparents hpath with ⟨placed, above, hplaced, habove, hpath⟩
      exact (hdisjoint hplaced habove).mpr (hall placed.member above.member hpath)

theorem claim?_eq_some_iff {number : Nat} {entry : Entry} {root : ObjectId} {tag : UInt32}
    (hentry : (batch.entries lineages)[number]? = some entry) :
    claim? entry = some (root, tag) ↔ entry.1.member.kindTag = tag ∧
      ∃ above, batch.objects[root.index]? = some above ∧ above.object.parent = none ∧
        TransGen (Inherits outlines) entry.1.member above.member := by
  rcases getElem?_entries.mp hentry with ⟨hplaced, rfl, hlineage⟩
  have hchain := lineage_of_getElem? hlineages hlineage
  rw [Batch.claim?_eq_some_iff, hchain.exists_below_iff]
  apply and_congr_right
  intro _
  constructor
  · rintro ⟨hnone, hpath⟩
    rcases hnumbers.exists_transGen hparents hpath with ⟨placed, above, hother, habove, hinherits⟩
    rw [hplaced, Option.some.injEq] at hother
    subst hother
    exact ⟨above, habove, (join_eq_none_iff hparents habove).mp hnone, hinherits⟩
  · rintro ⟨above, habove, hnone, hinherits⟩
    exact ⟨(join_eq_none_iff hparents habove).mpr hnone,
      (hnumbers.transGen_iff hparents hplaced habove).mpr hinherits⟩

/-- The tables are built exactly if no two members of a family have the same kind tag. -/
theorem exists_tables_iff :
    (∃ tables, batch.buildTables [] (batch.entries lineages) = .ok tables) ↔
      ∀ root first second, root.object.parent = none →
        TransGen (Inherits outlines) first root → TransGen (Inherits outlines) second root →
          first.kindTag = second.kindTag → first = second := by
  rw [exists_buildTables_iff tabulated_nil List.nodup_nil, List.nil_append, nodup_filterMap_iff]
  constructor
  · intro hall root first second hroot hfirst hsecond htag
    rcases TransGen.head'_iff.mp hfirst with ⟨_, hstart, -⟩
    rcases TransGen.head'_iff.mp hsecond with ⟨_, hother, -⟩
    rcases TransGen.tail'_iff.mp hfirst with ⟨_, -, hlast⟩
    rcases hnumbers.exists_number hstart.child_mem with ⟨number, placed, hplaced, rfl⟩
    rcases hnumbers.exists_number hother.child_mem with ⟨place, relative, hrelative, rfl⟩
    rcases hnumbers.exists_number hlast.parent_mem with ⟨top, above, habove, rfl⟩
    rcases exists_getElem?_lineages hlineages hplaced with ⟨lineage, hlineage, -, -⟩
    rcases exists_getElem?_lineages hlineages hrelative with ⟨beside, hbeside, -, -⟩
    have hentry : (batch.entries lineages)[number]? = some (placed, number, lineage) :=
      getElem?_entries.mpr ⟨hplaced, rfl, hlineage⟩
    have hentry' : (batch.entries lineages)[place]? = some (relative, place, beside) :=
      getElem?_entries.mpr ⟨hrelative, rfl, hbeside⟩
    have hsame := hall number place _ _ (⟨top⟩, placed.member.kindTag) hentry hentry'
      ((hnumbers.claim?_eq_some_iff hparents hlineages hentry).mpr
        ⟨rfl, above, habove, hroot, hfirst⟩)
      ((hnumbers.claim?_eq_some_iff hparents hlineages hentry').mpr
        ⟨htag.symm, above, habove, hroot, hsecond⟩)
    subst hsame
    rw [hplaced, Option.some.injEq] at hrelative
    rw [hrelative]
  · rintro hall number place entry relative ⟨root, tag⟩ hentry hentry' hclaim hclaim'
    rcases (hnumbers.claim?_eq_some_iff hparents hlineages hentry).mp hclaim with
      ⟨htag, above, habove, hroot, hpath⟩
    rcases (hnumbers.claim?_eq_some_iff hparents hlineages hentry').mp hclaim' with
      ⟨htag', other, hother, -, hpath'⟩
    rw [habove, Option.some.injEq] at hother
    subst hother
    exact hnumbers.eq_of_member (getElem?_entries.mp hentry).1 (getElem?_entries.mp hentry').1
      (hall _ _ _ hroot hpath hpath' (htag.trans htag'.symm))

end Lineages

/-- The passes find nothing to refuse exactly if the batch is consistent. -/
theorem exists_examine_iff :
    (∃ found, batch.examine = .ok found) ↔ Consistent outlines := by
  rw [Batch.exists_examine_iff]
  constructor
  · rintro ⟨parents, hparents, lineages, hlineages, own, hown, hfields, hwireIds, htables⟩
    have hlength := (Outcome.forall₂_of_mapM hparents).length_eq.symm
    constructor
    · exact hnumbers.spaces
    · exact hnumbers.exists_parents_iff.mp ⟨parents, hparents⟩
    · exact hnumbers.exists_own_iff.mp ⟨own, hown⟩
    · apply (hnumbers.acyclic_iff hparents).mp
      exact (exists_lineages_iff hlength).mp ⟨lineages, hlineages⟩
    · exact (hnumbers.exists_fields_iff hparents hlineages hown).mp hfields
    · exact hnumbers.exists_wireIds_iff.mp hwireIds
    · exact (hnumbers.exists_tables_iff hparents hlineages).mp htables
  · intro hconsistent
    rcases hnumbers.exists_parents_iff.mpr hconsistent.parents with ⟨parents, hparents⟩
    have hlength := (Outcome.forall₂_of_mapM hparents).length_eq.symm
    rcases (exists_lineages_iff hlength).mpr
      ((hnumbers.acyclic_iff hparents).mpr hconsistent.acyclic) with ⟨lineages, hlineages⟩
    rcases hnumbers.exists_own_iff.mpr hconsistent.references with ⟨own, hown⟩
    exact ⟨parents, hparents, lineages, hlineages, own, hown,
      (hnumbers.exists_fields_iff hparents hlineages hown).mpr hconsistent.fieldNames,
      hnumbers.exists_wireIds_iff.mpr hconsistent.wireIds,
      (hnumbers.exists_tables_iff hparents hlineages).mpr hconsistent.kindTags⟩

end Numbers
end Batch

/-- Documents that passed the checks within them are resolved exactly if they are consistent. -/
theorem Graph.exists_resolve_iff {outlines : List Outline}
    (hproper : ∀ outline ∈ outlines, outline.Proper) :
    (∃ graph, Graph.resolve outlines = .ok graph) ↔ Consistent outlines := by
  constructor
  · rintro ⟨graph, hresolve⟩
    rcases Outcome.bind_eq_ok hresolve with ⟨batch, hbatch, hresolve⟩
    rcases Outcome.bind_eq_ok hresolve with ⟨found, hfound, -⟩
    exact (Batch.numbers_ofOutlines hbatch hproper).exists_examine_iff.mp ⟨found, hfound⟩
  · intro hconsistent
    rcases Batch.exists_ofOutlines_iff.mpr hconsistent.spaces with ⟨batch, hbatch⟩
    have hnumbers := Batch.numbers_ofOutlines hbatch hproper
    rcases hnumbers.exists_examine_iff.mpr hconsistent with ⟨found, hfound⟩
    refine ⟨batch.graph found, ?_⟩
    rw [Graph.resolve, hbatch]
    change (do
      let found ← batch.examine
      return batch.graph found) = _
    rw [hfound]
    rfl

end WireSchema
