import WireSchema.Proofs.Coherent
import WireSchema.Proofs.Declarations
import WireSchema.Schema.Resolve

/-!
# Numbers of objects

The objects of a batch are numbered through: the number of an object is that of the first object of
its document and its place there.  Links and embedded objects become such numbers, and none of them
leads to a payload.
-/

namespace WireSchema
namespace Batch

theorem mem_placeOutlines {outlines : List Outline} {firstObject firstEnum : Nat}
    {home : PlacedOutline} (hhome : home ∈ placeOutlines firstObject firstEnum outlines) :
    home.outline ∈ outlines := by
  induction outlines generalizing firstObject firstEnum with
  | nil => cases hhome
  | cons outline rest ih =>
      rw [placeOutlines] at hhome
      rcases List.mem_cons.mp hhome with rfl | hrest
      · exact List.mem_cons_self
      · exact List.mem_cons_of_mem _ (ih hrest)

/-- The items of some outlines are numbered through: the first number of an outline is the number
of items before it. -/
inductive Consecutive {α : Type} (first : PlacedOutline → Nat) (items : PlacedOutline → List α) :
    Nat → List PlacedOutline → Prop where
  | nil {start : Nat} : Consecutive first items start []
  | cons {home : PlacedOutline} {rest : List PlacedOutline}
      (hrest : Consecutive first items (first home + (items home).length) rest) :
      Consecutive first items (first home) (home :: rest)

/-- The objects that an outline declares. -/
def objectsIn (home : PlacedOutline) : List PlacedObject :=
  home.outline.objects.map fun object => ⟨home, object⟩

theorem consecutive_objectsIn (outlines : List Outline) (firstObject firstEnum : Nat) :
    Consecutive (·.firstObject) objectsIn firstObject
      (placeOutlines firstObject firstEnum outlines) := by
  induction outlines generalizing firstObject firstEnum with
  | nil => exact .nil
  | cons outline rest ih =>
      refine @Consecutive.cons _ (·.firstObject) _ ⟨outline, firstObject, firstEnum⟩ _ ?_
      rw [objectsIn, List.length_map]
      exact ih _ _

theorem consecutive_enumTypes (outlines : List Outline) (firstObject firstEnum : Nat) :
    Consecutive (·.firstEnum) enumTypes firstEnum
      (placeOutlines firstObject firstEnum outlines) := by
  induction outlines generalizing firstObject firstEnum with
  | nil => exact .nil
  | cons outline rest ih =>
      refine @Consecutive.cons _ (·.firstEnum) _ ⟨outline, firstObject, firstEnum⟩ _ ?_
      rw [enumTypes, List.length_map]
      exact ih _ _

namespace Consecutive

variable {α : Type} {first : PlacedOutline → Nat} {items : PlacedOutline → List α} {start : Nat}
  {homes : List PlacedOutline} (hhomes : Consecutive first items start homes)

include hhomes

/-- The item in a place of its outline has the number that the outline leads to. -/
theorem getElem?_flatMap {home : PlacedOutline} (hhome : home ∈ homes) {place : Nat} {item : α}
    (hitem : (items home)[place]? = some item) :
    ∃ before, first home = start + before ∧
      (homes.flatMap items)[before + place]? = some item := by
  induction hhomes with
  | nil => cases hhome
  | @cons head rest hrest ih =>
      rw [List.flatMap_cons]
      rcases List.mem_cons.mp hhome with rfl | hlater
      · refine ⟨0, rfl, ?_⟩
        have hplace := (List.getElem?_eq_some_iff.mp hitem).1
        rw [Nat.zero_add, List.getElem?_append_left hplace]
        exact hitem
      · rcases ih hlater with ⟨before, hfirst, hfound⟩
        refine ⟨(items head).length + before, by rw [hfirst, Nat.add_assoc], ?_⟩
        rw [List.getElem?_append_right (by omega), Nat.add_assoc, Nat.add_sub_cancel_left]
        exact hfound

theorem exists_place {number : Nat} {item : α}
    (hitem : (homes.flatMap items)[number]? = some item) :
    ∃ home ∈ homes, ∃ place, (items home)[place]? = some item ∧
      start + number = first home + place := by
  induction hhomes generalizing number with
  | nil => cases hitem
  | @cons head rest hrest ih =>
      rw [List.flatMap_cons] at hitem
      by_cases hnumber : number < (items head).length
      · rw [List.getElem?_append_left hnumber] at hitem
        exact ⟨head, List.mem_cons_self, number, hitem, rfl⟩
      · rw [List.getElem?_append_right (by omega)] at hitem
        rcases ih hitem with ⟨home, hhome, place, hplace, hsum⟩
        exact ⟨home, List.mem_cons_of_mem _ hhome, place, hplace, by omega⟩

end Consecutive

/-- What holds of a batch before anything in it is resolved. -/
structure Sound (batch : Batch) : Prop where
  getElem?_of_place : ∀ home ∈ batch.outlines, ∀ place object,
    home.outline.objects[place]? = some object →
      batch.objects[home.firstObject + place]? = some ⟨home, object⟩
  exists_place : ∀ number (placed : PlacedObject), batch.objects[number]? = some placed →
    placed.home ∈ batch.outlines ∧
      ∃ place, placed.home.outline.objects[place]? = some placed.object ∧
        number = placed.home.firstObject + place
  object_sound : ∀ home ∈ batch.outlines, Outline.Sound home.outline.objects

theorem sound_ofOutlines {outlines : List Outline} {batch : Batch}
    (hbatch : ofOutlines outlines = .ok batch)
    (houtlines : ∀ outline ∈ outlines, Outline.Sound outline.objects) : batch.Sound := by
  unfold ofOutlines at hbatch
  split at hbatch
  · cases hbatch
  · cases hbatch
    have hnumbered := consecutive_objectsIn outlines 0 0
    constructor
    · intro home hhome place object hobject
      have hitem : (objectsIn home)[place]? = some ⟨home, object⟩ := by
        rw [objectsIn, List.getElem?_map, hobject, Option.map_some]
      rcases hnumbered.getElem?_flatMap hhome hitem with ⟨before, hfirst, hfound⟩
      rw [hfirst, Nat.zero_add]
      exact hfound
    · intro number placed hplaced
      rcases hnumbered.exists_place hplaced with ⟨home, hhome, place, hitem, hsum⟩
      rw [objectsIn, List.getElem?_map] at hitem
      rcases Option.map_eq_some_iff.mp hitem with ⟨object, hobject, rfl⟩
      rw [Nat.zero_add] at hsum
      exact ⟨hhome, place, hobject, hsum⟩
    · exact fun home hhome => houtlines _ (mem_placeOutlines hhome)

variable {batch : Batch}

theorem Sound.of_getElem? (hbatch : batch.Sound) {number : Nat} {placed : PlacedObject}
    (hplaced : batch.objects[number]? = some placed) :
    placed.object.Sound placed.home.outline.objects := by
  obtain ⟨hhome, place, hobject, -⟩ := hbatch.exists_place number placed hplaced
  exact hbatch.object_sound _ hhome _ (List.mem_of_getElem? hobject)

/-! ## Links -/

theorem mem_of_targetOutline {placed : PlacedObject} {link : Link} {target : PlacedOutline}
    (htarget : batch.targetOutline placed link = .ok target) : target ∈ batch.outlines := by
  unfold targetOutline at htarget
  split at htarget
  next found hfound =>
    cases htarget
    exact List.mem_of_find?_eq_some hfound
  next => cases htarget

theorem exists_of_objectIndex? (hbatch : batch.Sound) {home : PlacedOutline} {tag : String}
    {index : Nat} (hhome : home ∈ batch.outlines)
    (hindex : home.outline.objectIndex? tag = some index) :
    ∃ object, batch.objects[home.firstObject + index]? = some ⟨home, object⟩ ∧
      object.role = .object := by
  obtain ⟨hrange, hfound, -⟩ := List.findIdx?_eq_some_iff_getElem.mp hindex
  refine ⟨home.outline.objects[index],
    hbatch.getElem?_of_place home hhome index _ (List.getElem?_eq_getElem hrange), ?_⟩
  rw [Bool.and_eq_true] at hfound
  exact eq_of_beq hfound.1

/-- A parent is a top-level object, and so is what has one. -/
theorem role_of_parentOf (hbatch : batch.Sound) {number parent : Nat} {placed : PlacedObject}
    (hplaced : batch.objects[number]? = some placed)
    (hparent : batch.parentOf placed = .ok (some parent)) :
    placed.object.role = .object ∧
      ∃ ancestor, batch.objects[parent]? = some ancestor ∧ ancestor.object.role = .object := by
  unfold parentOf at hparent
  split at hparent
  next => cases hparent
  next link hlink =>
    obtain ⟨target, htarget, hparent⟩ := Outcome.bind_eq_ok hparent
    split at hparent
    next index hindex =>
      cases hparent
      obtain ⟨object, hobject, hrole⟩ :=
        exists_of_objectIndex? hbatch (mem_of_targetOutline htarget) hindex
      refine ⟨(hbatch.of_getElem? hplaced).role_of_parent ?_, ⟨target, object⟩, hobject, hrole⟩
      rw [hlink]
      rfl
    next => cases hparent

/-! ## Types of fields -/

/-- Whatever object a field leads to is not a payload. -/
theorem isPayload_of_resolveShape (hbatch : batch.Sound) {number : Nat} {placed : PlacedObject}
    (hplaced : batch.objects[number]? = some placed) {shape : Declaration.Shape}
    (hshape : shape.Refers placed.home.outline.objects) {type : FieldType}
    (htype : batch.resolveShape placed shape = .ok type) {id : ObjectId}
    (hid : type.target? = some id) :
    ∃ target, batch.objects[id.index]? = some target ∧ target.object.role.isPayload = false := by
  induction shape generalizing type with
  | primitive kind =>
      cases htype
      cases hid
  | text =>
      cases htype
      cases hid
  | binary length =>
      cases htype
      cases hid
  | array element ih =>
      rw [resolveShape] at htype
      obtain ⟨inner, hinner, rfl⟩ := Outcome.map_eq_ok htype
      exact ih hshape hinner hid
  | embedded index =>
      cases htype
      cases hid
      obtain ⟨object, hobject, hrole⟩ := hshape index rfl
      obtain ⟨hhome, -⟩ := hbatch.exists_place number placed hplaced
      refine ⟨_, hbatch.getElem?_of_place _ hhome index object hobject, ?_⟩
      rw [hrole]
      rfl
  | link link =>
      rw [resolveShape] at htype
      obtain ⟨target, htarget, htype⟩ := Outcome.bind_eq_ok htype
      split at htype
      · cases htype
        cases hid
      next index hnone hindex =>
        cases htype
        cases hid
        obtain ⟨object, hobject, hrole⟩ :=
          exists_of_objectIndex? hbatch (mem_of_targetOutline htarget) hindex
        refine ⟨_, hobject, ?_⟩
        rw [hrole]
        rfl
      · cases htype

end Batch
end WireSchema
