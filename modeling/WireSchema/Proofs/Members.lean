import Mathlib.Data.List.Nodup
import Mathlib.Logic.Relation
import WireSchema.Proofs.Numbering
import WireSchema.Proofs.Outlines

/-!
# Members of a batch

What the documents of a batch declare is described here without numbers.  A member is a declared
object with its namespace; it inherits from the top-level member that its link names.  A batch
numbers its members, each of them once, and the passes over the numbers follow the relations
between the members.
-/

namespace WireSchema

/-- An object with the namespace that declares it. -/
structure Member where
  space : String
  object : Declaration.Object
  deriving DecidableEq

namespace Member

/-- The link that leads to a member, if it is a top-level object. -/
def link (member : Member) : Link := ⟨member.space, member.object.tag⟩

/-- What tells a member from all others. -/
def key (member : Member) : String × String := (member.space, member.object.name)

end Member

/-- All members of a batch, in the order of the documents. -/
def membersOf (outlines : List Outline) : List Member :=
  outlines.flatMap fun outline => outline.objects.map (Member.mk outline.space)

theorem mem_membersOf {outlines : List Outline} {member : Member} :
    member ∈ membersOf outlines ↔
      ∃ outline ∈ outlines, outline.space = member.space ∧ member.object ∈ outline.objects := by
  rw [membersOf, List.mem_flatMap]
  constructor
  · rintro ⟨outline, houtline, hmember⟩
    rcases List.mem_map.mp hmember with ⟨object, hobject, rfl⟩
    exact ⟨outline, houtline, rfl, hobject⟩
  · rintro ⟨outline, houtline, hspace, hobject⟩
    refine ⟨outline, houtline, List.mem_map.mpr ⟨member.object, hobject, ?_⟩⟩
    rw [hspace]

/-- One member names another one as its parent. -/
structure Inherits (outlines : List Outline) (child parent : Member) : Prop where
  child_mem : child ∈ membersOf outlines
  parent_mem : parent ∈ membersOf outlines
  role_eq : parent.object.role = .object
  link_eq : child.object.parent = some parent.link

section Larger

variable {outlines larger : List Outline} (hmem : ∀ outline ∈ outlines, outline ∈ larger)

include hmem

theorem mem_membersOf_of_subset {member : Member} (hmember : member ∈ membersOf outlines) :
    member ∈ membersOf larger := by
  rcases mem_membersOf.mp hmember with ⟨outline, houtline, hspace, hobject⟩
  exact mem_membersOf.mpr ⟨outline, hmem outline houtline, hspace, hobject⟩

/-- What inherits among some documents does so among more of them. -/
theorem inherits_le : Inherits outlines ≤ Inherits larger := by
  intro child parent hinherits
  exact ⟨mem_membersOf_of_subset hmem hinherits.child_mem,
    mem_membersOf_of_subset hmem hinherits.parent_mem, hinherits.role_eq, hinherits.link_eq⟩

theorem transGen_inherits_le :
    Relation.TransGen (Inherits outlines) ≤ Relation.TransGen (Inherits larger) :=
  Relation.TransGen.mono (inherits_le hmem)

end Larger

/-- No two documents have the same namespace. -/
def SpacesDistinct (outlines : List Outline) : Prop := (outlines.map (·.space)).Nodup

theorem spacesDistinct_cons {outline : Outline} {rest : List Outline} :
    SpacesDistinct (outline :: rest) ↔
      (∀ other ∈ rest, other.space ≠ outline.space) ∧ SpacesDistinct rest := by
  simp [SpacesDistinct]

theorem SpacesDistinct.eq_of_space {outlines : List Outline} (hspaces : SpacesDistinct outlines)
    {first second : Outline} (hfirst : first ∈ outlines) (hsecond : second ∈ outlines)
    (hspace : first.space = second.space) : first = second :=
  List.inj_on_of_nodup_map hspaces hfirst hsecond hspace

theorem nodup_keys {outlines : List Outline} (hspaces : SpacesDistinct outlines)
    (hproper : ∀ outline ∈ outlines, outline.Proper) :
    ((membersOf outlines).map Member.key).Nodup := by
  rw [membersOf, List.map_flatMap, List.nodup_flatMap]
  constructor
  · intro outline houtline
    have hnames := (hproper outline houtline).split_names.2.1
    rw [List.map_map]
    have hmap : (outline.objects.map (·.name)).map (Prod.mk outline.space) =
        outline.objects.map (Member.key ∘ Member.mk outline.space) := by
      rw [List.map_map]
      rfl
    rw [← hmap]
    exact hnames.map (fun _ _ hsame => (Prod.mk.inj hsame).2)
  · have hdistinct := List.pairwise_map.mp hspaces
    refine hdistinct.imp ?_
    intro first second hne key hfirst hsecond
    simp only [List.map_map, List.mem_map, Function.comp, Member.key] at hfirst hsecond
    rcases hfirst with ⟨object, -, rfl⟩
    rcases hsecond with ⟨other, -, hother⟩
    exact hne (Prod.mk.inj hother).1.symm

/-! ## Numbers -/

namespace PlacedObject

def member (placed : PlacedObject) : Member := ⟨placed.space, placed.object⟩

end PlacedObject

namespace Batch

theorem map_outline_placeOutlines (outlines : List Outline) (firstObject firstEnum : Nat) :
    (placeOutlines firstObject firstEnum outlines).map (·.outline) = outlines := by
  induction outlines generalizing firstObject firstEnum with
  | nil => rfl
  | cons outline rest ih => rw [placeOutlines, List.map_cons, ih]

theorem map_member_flatMap (homes : List PlacedOutline) :
    (homes.flatMap objectsIn).map PlacedObject.member = membersOf (homes.map (·.outline)) := by
  rw [membersOf, List.map_flatMap, List.flatMap_map]
  simp only [objectsIn, List.map_map]
  rfl

/-- A batch of documents that passed the checks within them, with distinct namespaces. -/
structure Numbers (batch : Batch) (outlines : List Outline) : Prop where
  outlines_eq : batch.outlines = placeOutlines 0 0 outlines
  objects_eq : batch.objects = batch.outlines.flatMap objectsIn
  spaces : SpacesDistinct outlines
  proper : ∀ outline ∈ outlines, outline.Proper
  sound : batch.Sound

theorem repeatedSpace?_eq_none_iff {seen : List String} {outlines : List Outline} :
    repeatedSpace? seen outlines = none ↔
      SpacesDistinct outlines ∧ ∀ outline ∈ outlines, outline.space ∉ seen := by
  induction outlines generalizing seen with
  | nil => simp [repeatedSpace?, SpacesDistinct]
  | cons outline rest ih =>
      rw [repeatedSpace?]
      split
      next hseen =>
        have hmem : outline.space ∈ seen := by simpa using hseen
        constructor
        · intro hnone
          cases hnone
        · rintro ⟨-, hfresh⟩
          exact absurd hmem (hfresh outline List.mem_cons_self)
      next hfresh =>
        have hfresh' : outline.space ∉ seen := by simpa using hfresh
        rw [ih, List.forall_mem_cons, spacesDistinct_cons]
        simp only [List.mem_cons, not_or]
        constructor
        · rintro ⟨hdistinct, hrest⟩
          exact ⟨⟨fun other hother => (hrest other hother).1, hdistinct⟩, hfresh',
            fun other hother => (hrest other hother).2⟩
        · rintro ⟨⟨hhead, hdistinct⟩, -, hrest⟩
          exact ⟨hdistinct, fun other hother => ⟨hhead other hother, hrest other hother⟩⟩

/-- A batch is formed exactly if the namespaces are distinct. -/
theorem exists_ofOutlines_iff {outlines : List Outline} :
    (∃ batch, ofOutlines outlines = .ok batch) ↔ SpacesDistinct outlines := by
  have hiff : repeatedSpace? [] outlines = none ↔
      SpacesDistinct outlines ∧ ∀ outline ∈ outlines, outline.space ∉ [] :=
    repeatedSpace?_eq_none_iff
  simp only [List.not_mem_nil, not_false_eq_true, implies_true, and_true] at hiff
  rw [← hiff]
  unfold ofOutlines
  split
  next space hrepeated =>
    constructor
    · rintro ⟨batch, hbatch⟩
      cases hbatch
    · intro hnone
      rw [hrepeated] at hnone
      cases hnone
  next hnone => exact ⟨fun _ => hnone, fun _ => ⟨_, rfl⟩⟩

theorem numbers_ofOutlines {outlines : List Outline} {batch : Batch}
    (hbatch : ofOutlines outlines = .ok batch) (hproper : ∀ outline ∈ outlines, outline.Proper) :
    batch.Numbers outlines := by
  have hsound := sound_ofOutlines hbatch fun outline houtline => (hproper outline houtline).sound
  have hspaces := exists_ofOutlines_iff.mp ⟨batch, hbatch⟩
  unfold ofOutlines at hbatch
  split at hbatch
  · cases hbatch
  · cases hbatch
    exact ⟨rfl, rfl, hspaces, hproper, hsound⟩

theorem parentOf_eq_none_iff {batch : Batch} {placed : PlacedObject} :
    batch.parentOf placed = .ok none ↔ placed.object.parent = none := by
  unfold parentOf
  cases hlink : placed.object.parent with
  | none => simp
  | some link =>
      simp only [reduceCtorEq, iff_false]
      intro hok
      rcases Outcome.bind_eq_ok hok with ⟨target, -, hok⟩
      split at hok
      · cases hok
      · cases hok

namespace Numbers

variable {batch : Batch} {outlines : List Outline} (hnumbers : batch.Numbers outlines)

include hnumbers

theorem map_outline : batch.outlines.map (·.outline) = outlines := by
  rw [hnumbers.outlines_eq, map_outline_placeOutlines]

theorem map_member : batch.objects.map PlacedObject.member = membersOf outlines := by
  rw [hnumbers.objects_eq, map_member_flatMap, hnumbers.map_outline]

theorem outline_mem {home : PlacedOutline} (hhome : home ∈ batch.outlines) :
    home.outline ∈ outlines := by
  rw [← hnumbers.map_outline]
  exact List.mem_map_of_mem hhome

theorem member_mem {number : Nat} {placed : PlacedObject}
    (hplaced : batch.objects[number]? = some placed) : placed.member ∈ membersOf outlines := by
  rw [← hnumbers.map_member]
  exact List.mem_map_of_mem (List.mem_of_getElem? hplaced)

theorem exists_number {member : Member} (hmember : member ∈ membersOf outlines) :
    ∃ (number : Nat) (placed : PlacedObject),
      batch.objects[number]? = some placed ∧ placed.member = member := by
  rw [← hnumbers.map_member] at hmember
  rcases List.mem_map.mp hmember with ⟨placed, hplaced, rfl⟩
  rcases List.mem_iff_getElem?.mp hplaced with ⟨number, hnumber⟩
  exact ⟨number, placed, hnumber, rfl⟩

theorem eq_of_key {first second : Nat} {placed other : PlacedObject}
    (hfirst : batch.objects[first]? = some placed)
    (hsecond : batch.objects[second]? = some other)
    (hkey : placed.member.key = other.member.key) : first = second := by
  have hnodup := nodup_keys hnumbers.spaces hnumbers.proper
  rw [← hnumbers.map_member, List.map_map] at hnodup
  exact Outline.place_eq_of_nodup_map hnodup hfirst hsecond hkey

/-- No member has two numbers. -/
theorem eq_of_member {first second : Nat} {placed other : PlacedObject}
    (hfirst : batch.objects[first]? = some placed)
    (hsecond : batch.objects[second]? = some other) (hmember : placed.member = other.member) :
    first = second :=
  hnumbers.eq_of_key hfirst hsecond (congrArg Member.key hmember)

/-! ## Links -/

theorem home_eq_of_space {first second : PlacedOutline} (hfirst : first ∈ batch.outlines)
    (hsecond : second ∈ batch.outlines) (hspace : first.outline.space = second.outline.space) :
    first = second := by
  have hnodup := hnumbers.spaces
  rw [SpacesDistinct, ← hnumbers.map_outline, List.map_map] at hnodup
  exact List.inj_on_of_nodup_map hnodup hfirst hsecond hspace

theorem targetOutline_eq_ok_iff {placed : PlacedObject} {link : Link} {target : PlacedOutline} :
    batch.targetOutline placed link = .ok target ↔
      target ∈ batch.outlines ∧ target.outline.space = link.space := by
  unfold targetOutline
  cases hfind : batch.outlines.find? (·.outline.space == link.space) with
  | none =>
      constructor
      · intro hok
        cases hok
      · rintro ⟨hmem, hspace⟩
        have hfalse := List.find?_eq_none.mp hfind target hmem
        simp [hspace] at hfalse
  | some found =>
      have hspace : found.outline.space = link.space := by
        simpa using List.find?_some hfind
      have hmem := List.mem_of_find?_eq_some hfind
      constructor
      · intro hok
        cases hok
        exact ⟨hmem, hspace⟩
      · rintro ⟨htarget, hsame⟩
        rw [hnumbers.home_eq_of_space hmem htarget (hspace.trans hsame.symm)]

theorem exists_home {outline : Outline} (houtline : outline ∈ outlines) :
    ∃ home ∈ batch.outlines, home.outline = outline := by
  rw [← hnumbers.map_outline] at houtline
  exact List.mem_map.mp houtline

/-- The top-level object that a link names, by its number. -/
theorem exists_place_iff {link : Link} {target : PlacedOutline} {number : Nat}
    (htarget : target ∈ batch.outlines) (hspace : target.outline.space = link.space) :
    (∃ place, target.outline.objectIndex? link.tag = some place ∧
        target.firstObject + place = number) ↔
      ∃ placed, batch.objects[number]? = some placed ∧ placed.object.role = .object ∧
        placed.member.link = link := by
  have hproper := hnumbers.proper _ (hnumbers.outline_mem htarget)
  constructor
  · rintro ⟨place, hplace, rfl⟩
    rcases hproper.objectIndex?_eq_some_iff.mp hplace with ⟨object, hobject, hrole, htag⟩
    refine ⟨⟨target, object⟩, hnumbers.sound.getElem?_of_place target htarget place object hobject,
      hrole, ?_⟩
    simp only [Member.link, PlacedObject.member, PlacedObject.space, hspace, htag]
  · rintro ⟨placed, hplaced, hrole, hlink⟩
    rcases hnumbers.sound.exists_place number placed hplaced with ⟨hhome, place, hobject, rfl⟩
    have hhomeSpace : placed.home.outline.space = link.space := congrArg Link.space hlink
    have hsame := hnumbers.home_eq_of_space hhome htarget (hhomeSpace.trans hspace.symm)
    rw [hsame] at hobject
    refine ⟨place, hproper.objectIndex?_eq_some_iff.mpr ⟨placed.object, hobject, hrole, ?_⟩, ?_⟩
    · exact congrArg Link.tag hlink
    · rw [hsame]

/-! ## Parents -/

theorem parentOf_eq_some_iff {number parent : Nat} {placed : PlacedObject}
    (hplaced : batch.objects[number]? = some placed) :
    batch.parentOf placed = .ok (some parent) ↔
      ∃ ancestor, batch.objects[parent]? = some ancestor ∧
        Inherits outlines placed.member ancestor.member := by
  unfold parentOf
  cases hlink : placed.object.parent with
  | none =>
      constructor
      · intro hok
        cases hok
      · rintro ⟨ancestor, -, hinherits⟩
        have hsome := hinherits.link_eq
        rw [show placed.member.object.parent = none from hlink] at hsome
        cases hsome
  | some link =>
      constructor
      · intro hok
        rcases Outcome.bind_eq_ok hok with ⟨target, htarget, hok⟩
        rcases hnumbers.targetOutline_eq_ok_iff.mp htarget with ⟨hmem, hspace⟩
        split at hok
        next place hplace =>
          cases hok
          rcases (hnumbers.exists_place_iff hmem hspace).mp ⟨place, hplace, rfl⟩ with
            ⟨ancestor, hancestor, hrole, hsame⟩
          refine ⟨ancestor, hancestor, hnumbers.member_mem hplaced, hnumbers.member_mem hancestor,
            hrole, ?_⟩
          rw [hsame]
          exact hlink
        next => cases hok
      · rintro ⟨ancestor, hancestor, hinherits⟩
        have hsame : ancestor.member.link = link := by
          have hsome := hinherits.link_eq
          rw [show placed.member.object.parent = some link from hlink, Option.some.injEq] at hsome
          exact hsome.symm
        have hhome := (hnumbers.sound.exists_place parent ancestor hancestor).1
        have hspace : ancestor.home.outline.space = link.space := congrArg Link.space hsame
        rcases (hnumbers.exists_place_iff hhome hspace).mpr
            ⟨ancestor, hancestor, hinherits.role_eq, hsame⟩ with ⟨place, hplace, hnumber⟩
        have htarget : batch.targetOutline placed link = .ok ancestor.home :=
          hnumbers.targetOutline_eq_ok_iff.mpr ⟨hhome, hspace⟩
        simp only [htarget, bind, Except.bind, hplace, hnumber]
        rfl

end Numbers

end Batch
end WireSchema
