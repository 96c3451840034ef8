import WireSchema.Proofs.Flattened

/-!
# Objects held by others

An embedded object is the type of one field, and a response belongs to one request.  Both are
declared in the document of their holder.  Since links lead to top-level objects only, nothing else
in the graph has an embedded object for its type.
-/

namespace WireSchema

/-- An own field of an object has an object for its type, through arrays of any depth. -/
def Graph.RefersAt (graph : Graph) (owner : ObjectId) (place : Nat) (id : ObjectId) : Prop :=
  ∃ field, (graph.ownFields owner)[place]? = some field ∧ field.type.target? = some id

/-! ## Holders in a document -/

theorem place_eq_of_nodup_flatMap {α β : Type} {f : α → List β} {items : List α}
    (hnodup : (items.flatMap f).Nodup) {first second : Nat} {item other : α} {held : β}
    (hfirst : items[first]? = some item) (hsecond : items[second]? = some other)
    (hitem : held ∈ f item) (hother : held ∈ f other) : first = second := by
  have hapart := (List.nodup_flatMap.mp hnodup).2
  rw [List.pairwise_iff_getElem] at hapart
  rcases List.getElem?_eq_some_iff.mp hfirst with ⟨hlt, rfl⟩
  rcases List.getElem?_eq_some_iff.mp hsecond with ⟨hlt', rfl⟩
  rcases Nat.lt_trichotomy first second with hless | rfl | hless
  · exact absurd hother (hapart first second hlt hlt' hless hitem)
  · rfl
  · exact absurd hitem (hapart second first hlt' hlt hless hother)

namespace Declaration

/-- A field of one object embeds another object, given by their places. -/
def EmbedsAt (objects : List Object) (owner place index : Nat) : Prop :=
  ∃ object field, objects[owner]? = some object ∧ object.fields[place]? = some field ∧
    field.shape.embedded? = some index

theorem Shape.mem_holds_iff {shape : Shape} {index : Nat} :
    (Role.embedded, index) ∈ shape.holds ↔ shape.embedded? = some index := by
  rw [Shape.holds, List.mem_map]
  simp

theorem mem_holdsOfFields_iff {fields : List Field} {index : Nat} :
    (Role.embedded, index) ∈ holdsOfFields fields ↔
      ∃ field ∈ fields, field.shape.embedded? = some index := by
  rw [holdsOfFields, List.mem_flatMap]
  simp only [Shape.mem_holds_iff]

theorem Object.embeds_iff {object : Object} {index : Nat} :
    (Role.embedded, index) ∈ object.holds ↔
      ∃ field ∈ object.fields, field.shape.embedded? = some index := by
  rw [Object.holds, List.mem_append, mem_holdsOfFields_iff]
  simp [holdsOfResponse]

theorem Object.answered_iff {object : Object} {index : Nat} :
    (Role.response, index) ∈ object.holds ↔ object.response = some index := by
  rw [Object.holds, List.mem_append]
  simp [holdsOfResponse, holdsOfFields, Shape.holds]

end Declaration

namespace Outline.Assembled

open Declaration (EmbedsAt Object heldAmong mem_heldAmong nodup_heldAmong)

variable {objects : List Declaration.Object} {bodies : List Body}
  (hassembled : Assembled objects [] bodies)

include hassembled

theorem holds_perm : (objects.flatMap Object.holds).Perm (heldAmong objects) := by
  have hheld := hassembled.held
  rwa [List.append_nil] at hheld

theorem nodup_holds : (objects.flatMap Object.holds).Nodup :=
  hassembled.holds_perm.nodup_iff.mpr (nodup_heldAmong objects)

theorem exists_holder_iff {role : Role} {index : Nat} :
    (∃ owner ∈ objects, (role, index) ∈ owner.holds) ↔
      role.isHeld = true ∧ ∃ object, objects[index]? = some object ∧ object.role = role := by
  rw [← List.mem_flatMap, hassembled.holds_perm.mem_iff, mem_heldAmong]

theorem exists_embedsAt {index : Nat} {object : Declaration.Object}
    (hobject : objects[index]? = some object) (hrole : object.role = .embedded) :
    ∃ owner place, EmbedsAt objects owner place index := by
  rcases hassembled.exists_holder_iff.mpr ⟨rfl, object, hobject, hrole⟩ with
    ⟨holder, hholder, hheld⟩
  rcases Object.embeds_iff.mp hheld with ⟨field, hfield, hshape⟩
  rcases List.mem_iff_getElem?.mp hholder with ⟨owner, howner⟩
  rcases List.mem_iff_getElem?.mp hfield with ⟨place, hplace⟩
  exact ⟨owner, place, holder, field, howner, hplace, hshape⟩

theorem embedsAt_unique {owner place other elsewhere index : Nat}
    (hembeds : EmbedsAt objects owner place index)
    (hembeds' : EmbedsAt objects other elsewhere index) : other = owner ∧ elsewhere = place := by
  -- Two holders would hold the object twice, and so would two fields of one holder.
  rcases hembeds with ⟨holder, field, howner, hplace, hshape⟩
  rcases hembeds' with ⟨holder', field', hother, helsewhere, hshape'⟩
  have hheld := Object.embeds_iff.mpr ⟨field, List.mem_of_getElem? hplace, hshape⟩
  have hheld' := Object.embeds_iff.mpr ⟨field', List.mem_of_getElem? helsewhere, hshape'⟩
  have hsame := place_eq_of_nodup_flatMap hassembled.nodup_holds hother howner hheld' hheld
  subst hsame
  rw [howner, Option.some.injEq] at hother
  subst hother
  have hholder := (List.nodup_flatMap.mp hassembled.nodup_holds).1 _ (List.mem_of_getElem? howner)
  rw [Object.holds, Declaration.holdsOfFields, List.nodup_append] at hholder
  exact ⟨rfl, place_eq_of_nodup_flatMap hholder.1 helsewhere hplace
    (Declaration.Shape.mem_holds_iff.mpr hshape') (Declaration.Shape.mem_holds_iff.mpr hshape)⟩

/-- The responses are the objects that a request leads to. -/
theorem exists_asker_iff {index : Nat} {object : Declaration.Object}
    (hobject : objects[index]? = some object) :
    (∃ asker ∈ objects, asker.response = some index) ↔ object.role = .response := by
  have hholder : (∃ owner ∈ objects, (Role.response, index) ∈ owner.holds) ↔ _ :=
    hassembled.exists_holder_iff
  simp only [Object.answered_iff, hobject, Option.some.injEq, exists_eq_left'] at hholder
  rw [hholder]
  simp [Role.isHeld]

end Outline.Assembled

/-! ## Holders in the graph -/

namespace Batch

variable {batch : Batch} {outlines : List Outline} {found : Findings}

theorem forall₂_ownFields (hfound : batch.Examined found) {number : Nat} {placed : PlacedObject}
    (hplaced : batch.objects[number]? = some placed) :
    List.Forall₂ (fun declared field => batch.resolveShape placed declared.shape = .ok field.type)
      placed.object.fields ((batch.graph found).ownFields ⟨number⟩) := by
  rcases exists_ownFields hfound ⟨number⟩ with ⟨bit, hown, -⟩
  rw [hown]
  apply forall₂_numberFlags
  · exact fun _ _ _ hrun => hrun
  · apply (hfound.forall₂_ownAt hplaced).imp
    intro declared field hresolve
    rcases Outcome.map_eq_ok hresolve with ⟨type, hrun, rfl⟩
    exact hrun

theorem ownFields_of_none {id : ObjectId} (hplaced : batch.objects[id.index]? = none) :
    (batch.graph found).ownFields id = [] := by
  have hdefault : (batch.graph found).object id = default := object_graph_of_none id.index hplaced
  rw [Graph.ownFields, hdefault]
  rfl

namespace Numbers

variable (hnumbers : batch.Numbers outlines)

include hnumbers

theorem place_eq_of_objectAt {home partner : PlacedOutline} (hhome : home ∈ batch.outlines)
    (hpartner : partner ∈ batch.outlines) {place other : Nat} {object inner : Declaration.Object}
    (hobject : home.outline.objects[place]? = some object)
    (hinner : partner.outline.objects[other]? = some inner)
    (hsame : home.objectAt place = partner.objectAt other) : home = partner ∧ place = other := by
  have hplaced := hnumbers.sound.getElem?_of_place home hhome place object hobject
  have hplaced' := hnumbers.sound.getElem?_of_place partner hpartner other inner hinner
  have hindex : home.firstObject + place = partner.firstObject + other :=
    congrArg ObjectId.index hsame
  rw [← hindex, hplaced, Option.some.injEq, PlacedObject.mk.injEq] at hplaced'
  rcases hplaced' with ⟨rfl, -⟩
  exact ⟨rfl, Nat.add_left_cancel hindex⟩

theorem target?_iff_embedded {number : Nat} {placed : PlacedObject}
    (hplaced : batch.objects[number]? = some placed) {shape : Declaration.Shape} {type : FieldType}
    (hrun : batch.resolveShape placed shape = .ok type) {id : ObjectId}
    (hrole : ((batch.graph found).object id).role = .embedded) :
    type.target? = some id ↔
      ∃ index, shape.embedded? = some index ∧ placed.home.objectAt index = id := by
  induction shape generalizing type with
  | primitive kind =>
      cases hrun
      simp [FieldType.target?, Declaration.Shape.embedded?]
  | text =>
      cases hrun
      simp [FieldType.target?, Declaration.Shape.embedded?]
  | binary length =>
      cases hrun
      simp [FieldType.target?, Declaration.Shape.embedded?]
  | array element ih =>
      rcases Outcome.map_eq_ok hrun with ⟨inner, hinner, rfl⟩
      have hsame := ih hinner
      exact hsame
  | embedded index =>
      cases hrun
      simp [FieldType.target?, Declaration.Shape.embedded?, PlacedOutline.objectAt]
  | link link =>
      have hleads : (batch.graph found).LeadsTo link type :=
        hnumbers.resolves_of_resolveShape hplaced (fun _ hindex => by cases hindex) hrun
      constructor
      · intro htarget
        -- A link leads to a top-level object, which is not embedded.
        cases type with
        | object other =>
            cases htarget
            rcases hleads.1 with ⟨object, hobject, htop, -⟩
            rw [Graph.object_of_getElem? hobject, htop] at hrole
            cases hrole
        | enum other => cases htarget
        | _ => cases hleads.1
      · rintro ⟨index, hindex, -⟩
        cases hindex

variable (hfound : batch.Examined found)

include hfound

/-- The fields that refer to an embedded object are those that embed it in its document. -/
theorem refersAt_iff {home : PlacedOutline} (hhome : home ∈ batch.outlines) {index : Nat}
    {object : Declaration.Object} (hobject : home.outline.objects[index]? = some object)
    (hrole : object.role = .embedded) {owner : ObjectId} {place : Nat} :
    (batch.graph found).RefersAt owner place (home.objectAt index) ↔
      ∃ number, home.objectAt number = owner ∧
        Declaration.EmbedsAt home.outline.objects number place index := by
  have hplaced := hnumbers.sound.getElem?_of_place home hhome index object hobject
  have hrole' : ((batch.graph found).object (home.objectAt index)).role = .embedded := by
    rw [PlacedOutline.objectAt, object_graph _ hplaced]
    exact hrole
  constructor
  · rintro ⟨field, hfield, htarget⟩
    cases howner : batch.objects[owner.index]? with
    | none =>
        rw [ownFields_of_none howner] at hfield
        cases hfield
    | some holder =>
        rcases Outcome.exists_getElem?_of_forall₂ (forall₂_ownFields hfound howner).flip hfield with
          ⟨declared, hdeclared, hrun⟩
        rcases (hnumbers.target?_iff_embedded howner hrun hrole').mp htarget with
          ⟨other, hshape, hid⟩
        rcases hnumbers.sound.exists_place owner.index holder howner with
          ⟨hmem, number, hholder, hnumber⟩
        rcases (hnumbers.sound.of_getElem? howner).refers declared
          (List.mem_of_getElem? hdeclared) other hshape with ⟨inner, hinner, -⟩
        rcases hnumbers.place_eq_of_objectAt hmem hhome hinner hobject hid with ⟨hsame, rfl⟩
        rw [hsame] at hholder hnumber
        exact ⟨number, ObjectId.eq_of_index hnumber.symm, holder.object, declared, hholder,
          hdeclared, hshape⟩
  · rintro ⟨number, rfl, holder, declared, hholder, hdeclared, hshape⟩
    have howner := hnumbers.sound.getElem?_of_place home hhome number holder hholder
    rcases Outcome.exists_getElem?_of_forall₂ (forall₂_ownFields hfound howner) hdeclared with
      ⟨field, hfield, hrun⟩
    exact ⟨field, hfield, (hnumbers.target?_iff_embedded howner hrun hrole').mpr
      ⟨index, hshape, rfl⟩⟩

/-- An embedded object is the type of one own field, of an object of its document. -/
theorem exists_owner {home : PlacedOutline} (hhome : home ∈ batch.outlines) {index : Nat}
    {object : Declaration.Object} (hobject : home.outline.objects[index]? = some object)
    (hrole : object.role = .embedded) {bodies : List Body}
    (hassembled : Outline.Assembled home.outline.objects [] bodies) :
    ∃ owner place, (batch.graph found).RefersAt owner place (home.objectAt index) ∧
      ((batch.graph found).object owner).space =
        ((batch.graph found).object (home.objectAt index)).space ∧
      ∀ other elsewhere, (batch.graph found).RefersAt other elsewhere (home.objectAt index) →
        other = owner ∧ elsewhere = place := by
  rcases hassembled.exists_embedsAt hobject hrole with ⟨number, place, hembeds⟩
  refine ⟨home.objectAt number, place, ?_, ?_, ?_⟩
  · exact (hnumbers.refersAt_iff hfound hhome hobject hrole).mpr ⟨number, rfl, hembeds⟩
  · rcases hembeds with ⟨holder, -, hholder, -⟩
    rw [PlacedOutline.objectAt, PlacedOutline.objectAt,
      space_graph _ (hnumbers.sound.getElem?_of_place home hhome number holder hholder),
      space_graph _ (hnumbers.sound.getElem?_of_place home hhome index object hobject)]
    rfl
  · intro other elsewhere hrefers
    rcases (hnumbers.refersAt_iff hfound hhome hobject hrole).mp hrefers with
      ⟨number', rfl, hembeds'⟩
    rcases hassembled.embedsAt_unique hembeds hembeds' with ⟨rfl, rfl⟩
    exact ⟨rfl, rfl⟩

end Numbers

/-! ## Requests and responses -/

theorem response_eq_some_iff {asker answer : ObjectId} :
    ((batch.graph found).object asker).response = some answer ↔
      ∃ placed, batch.objects[asker.index]? = some placed ∧ placed.response? = some answer := by
  rcases asker with ⟨number⟩
  cases hplaced : batch.objects[number]? with
  | none =>
      have hnone : (default : ObjectType).response = none := rfl
      simp [object_graph_of_none number hplaced, hnone]
  | some placed => simp [object_graph number hplaced, objectType]

namespace Numbers

variable (hnumbers : batch.Numbers outlines)

include hnumbers

theorem request_eq_some_iff {asker answer : ObjectId} :
    ((batch.graph found).object answer).request = some asker ↔
      ((batch.graph found).object asker).response = some answer := by
  rcases answer with ⟨number⟩
  rw [response_eq_some_iff]
  cases hplaced : batch.objects[number]? with
  | none =>
      rw [object_graph_of_none number hplaced]
      constructor
      · intro hasked
        cases hasked
      · rintro ⟨placed, hasker, hanswered⟩
        rcases hnumbers.exists_answer hasker hanswered with ⟨-, answer, hanswer, -⟩
        rw [hplaced] at hanswer
        cases hanswer
  | some placed =>
      rw [object_graph number hplaced]
      exact hnumbers.requestOf?_eq_some_iff

variable (hassembled : ∀ outline ∈ outlines, ∃ bodies, Outline.Assembled outline.objects [] bodies)

include hassembled

theorem isSome_response_iff (id : ObjectId) :
    ((batch.graph found).object id).response.isSome = true ↔
      ((batch.graph found).object id).role = .request := by
  rcases id with ⟨number⟩
  cases hplaced : batch.objects[number]? with
  | none =>
      rw [object_graph_of_none number hplaced]
      exact iff_of_false nofun nofun
  | some placed =>
      rcases hnumbers.sound.exists_place number placed hplaced with ⟨hhome, place, hobject, -⟩
      rcases hassembled _ (hnumbers.outline_mem hhome) with ⟨bodies, hbodies⟩
      rw [object_graph number hplaced]
      have hasks := hbodies.asks_iff _ (List.mem_of_getElem? hobject)
      simpa [objectType, PlacedObject.response?] using hasks

/-- The responses are what some request leads to, and they are found in its document. -/
theorem exists_asker_iff {number : Nat} {placed : PlacedObject}
    (hplaced : batch.objects[number]? = some placed) :
    (∃ asker, ((batch.graph found).object asker).response = some ⟨number⟩) ↔
      placed.object.role = .response := by
  rcases hnumbers.sound.exists_place number placed hplaced with ⟨hhome, place, hobject, rfl⟩
  rcases hassembled _ (hnumbers.outline_mem hhome) with ⟨bodies, hbodies⟩
  rw [← hbodies.exists_asker_iff hobject]
  simp only [response_eq_some_iff]
  constructor
  · rintro ⟨⟨request⟩, holder, hholder, hanswered⟩
    rcases hnumbers.exists_answer hholder hanswered with ⟨-, answer, hanswer, -⟩
    rw [hplaced, Option.some.injEq] at hanswer
    rcases Option.map_eq_some_iff.mp hanswered with ⟨index, hindex, hsame⟩
    rw [hanswer] at hsame ⊢
    have hplace : index = place := Nat.add_left_cancel (congrArg ObjectId.index hsame)
    rcases hnumbers.sound.exists_place request holder hholder with ⟨-, _, hasker, -⟩
    exact ⟨holder.object, List.mem_of_getElem? hasker, hplace ▸ hindex⟩
  · rintro ⟨asker, hasker, hresponse⟩
    rcases List.mem_iff_getElem?.mp hasker with ⟨request, hrequest⟩
    have hholder := hnumbers.sound.getElem?_of_place _ hhome request asker hrequest
    refine ⟨placed.home.objectAt request, _, hholder, ?_⟩
    rw [PlacedObject.response?, hresponse]
    rfl

theorem isSome_request_iff (id : ObjectId) :
    ((batch.graph found).object id).request.isSome = true ↔
      ((batch.graph found).object id).role = .response := by
  rcases id with ⟨number⟩
  rw [Option.isSome_iff_exists]
  simp only [hnumbers.request_eq_some_iff]
  cases hplaced : batch.objects[number]? with
  | none =>
      rw [object_graph_of_none number hplaced]
      constructor
      · rintro ⟨asker, hasked⟩
        rcases response_eq_some_iff.mp hasked with ⟨placed, hasker, hanswered⟩
        rcases hnumbers.exists_answer hasker hanswered with ⟨-, answer, hanswer, -⟩
        rw [hplaced] at hanswer
        cases hanswer
      · intro hrole
        cases hrole
  | some placed =>
      rw [hnumbers.exists_asker_iff hassembled hplaced, object_graph number hplaced]
      rfl

omit hassembled in
theorem space_eq_of_response {asker answer : ObjectId}
    (hanswered : ((batch.graph found).object asker).response = some answer) :
    ((batch.graph found).object answer).space = ((batch.graph found).object asker).space := by
  rcases response_eq_some_iff.mp hanswered with ⟨placed, hasker, hresponse⟩
  rcases hnumbers.exists_answer hasker hresponse with ⟨-, object, hanswer, -⟩
  exact (space_graph answer.index hanswer).trans (space_graph asker.index hasker).symm

end Numbers
end Batch

end WireSchema
