import WireSchema.Proofs.Consistency
import WireSchema.Proofs.Listing

/-!
# Renumbering

When the documents of a batch are put in another order, or among others, its objects get other
numbers.  Two numbers are twins if they stand for the same object of the same document.  Whatever
the passes find out about an object, they find out about its twin, with twins in place of the
numbers, as long as no family of the batch has members among the other documents.
-/

namespace WireSchema

open Relation (TransGen)

namespace Batch

/-! ## Families of members -/

namespace Numbers

variable {batch : Batch} {outlines : List Outline} {found : Findings}
  (hnumbers : batch.Numbers outlines) (hfound : batch.Examined found)

include hnumbers hfound

theorem claims_iff (root id : ObjectId) (tag : UInt32) :
    (∃ entry ∈ batch.entries found.lineages, claim? entry = some (root, tag) ∧
        entry.2.1 = id.index) ↔
      ∃ placed above, batch.objects[id.index]? = some placed ∧
        batch.objects[root.index]? = some above ∧ placed.member.kindTag = tag ∧
          above.object.parent = none ∧ TransGen (Inherits outlines) placed.member above.member := by
  constructor
  · rintro ⟨entry, hentry, hclaim, hindex⟩
    rcases List.mem_iff_getElem?.mp hentry with ⟨number, hnumber⟩
    rcases (hnumbers.claim?_eq_some_iff hfound.parents_eq hfound.lineages_eq hnumber).mp hclaim with
      ⟨htag, above, habove, hroot, hpath⟩
    rcases getElem?_entries.mp hnumber with ⟨hplaced, hsame, -⟩
    rw [← hsame, hindex] at hplaced
    exact ⟨entry.1, above, hplaced, habove, htag, hroot, hpath⟩
  · rintro ⟨placed, above, hplaced, habove, htag, hroot, hpath⟩
    rcases hfound.exists_lineage id.index placed hplaced with ⟨lineage, hlineage, -, -⟩
    have hentry : (batch.entries found.lineages)[id.index]? = some (placed, id.index, lineage) :=
      getElem?_entries.mpr ⟨hplaced, rfl, hlineage⟩
    exact ⟨_, List.mem_of_getElem? hentry,
      (hnumbers.claim?_eq_some_iff hfound.parents_eq hfound.lineages_eq hentry).mpr
        ⟨htag, above, habove, hroot, hpath⟩, rfl⟩

/-- An object owns a table if it has descendants but no parent. -/
theorem isSome_tableOf?_iff {number : Nat} {placed : PlacedObject}
    (hplaced : batch.objects[number]? = some placed) :
    (tableOf? found.tables ⟨number⟩).isSome = true ↔
      placed.object.parent = none ∧
        ∃ member, TransGen (Inherits outlines) member placed.member := by
  rw [hfound.tabulated.isSome_tableOf?]
  constructor
  · rintro ⟨entry, hentry, tag, hclaim⟩
    rcases (hnumbers.claims_iff hfound _ ⟨entry.2.1⟩ tag).mp ⟨entry, hentry, hclaim, rfl⟩ with
      ⟨member, above, -, habove, -, hroot, hpath⟩
    rw [hplaced, Option.some.injEq] at habove
    subst habove
    exact ⟨hroot, member.member, hpath⟩
  · rintro ⟨hroot, member, hpath⟩
    rcases TransGen.head'_iff.mp hpath with ⟨_, hinherits, -⟩
    rcases hnumbers.exists_number hinherits.child_mem with ⟨child, below, hbelow, rfl⟩
    rcases (hnumbers.claims_iff hfound _ ⟨child⟩ _).mpr
        ⟨below, placed, hbelow, hplaced, rfl, hroot, hpath⟩ with ⟨entry, hentry, hclaim, -⟩
    exact ⟨entry, hentry, _, hclaim⟩

theorem find?_table_iff {root : ObjectId} {table : DispatchTable}
    (htable : tableOf? found.tables root = some table) {tag : UInt32} {id : ObjectId} :
    table.members.find? tag = some id ↔
      (tag = DispatchTable.rootTag ∧ id = root) ∨
        ∃ placed above, batch.objects[id.index]? = some placed ∧
          batch.objects[root.index]? = some above ∧ placed.member.kindTag = tag ∧
            above.object.parent = none ∧
              TransGen (Inherits outlines) placed.member above.member := by
  rw [hfound.tabulated.find?_iff htable, hnumbers.claims_iff hfound]

end Numbers

/-! ## Twins -/

/-- Two numbers stand for the same object of the same document. -/
def Twin (batch other : Batch) (number partner : Nat) : Prop :=
  ∃ placed twin, batch.objects[number]? = some placed ∧ other.objects[partner]? = some twin ∧
    placed.home.outline = twin.home.outline ∧ placed.object = twin.object

/-- Two batches have the same documents. -/
structure Reordered (outlines shuffled : List Outline) (batch other : Batch)
    (found seen : Findings) : Prop where
  numbers : batch.Numbers outlines
  otherNumbers : other.Numbers shuffled
  examined : batch.Examined found
  otherExamined : other.Examined seen
  mem_iff : ∀ outline, outline ∈ outlines ↔ outline ∈ shuffled

/-- The documents of a batch are among those of another one, where nothing else inherits from
them. -/
structure Included (outlines larger : List Outline) (batch other : Batch)
    (found seen : Findings) : Prop where
  numbers : batch.Numbers outlines
  otherNumbers : other.Numbers larger
  examined : batch.Examined found
  otherExamined : other.Examined seen
  mem : ∀ outline ∈ outlines, outline ∈ larger
  inherits : ∀ child parent, parent ∈ membersOf outlines → Inherits larger child parent →
    Inherits outlines child parent

theorem Reordered.included {outlines shuffled : List Outline} {batch other : Batch}
    {found seen : Findings} (hsame : Reordered outlines shuffled batch other found seen) :
    Included outlines shuffled batch other found seen where
  numbers := hsame.numbers
  otherNumbers := hsame.otherNumbers
  examined := hsame.examined
  otherExamined := hsame.otherExamined
  mem outline := (hsame.mem_iff outline).mp
  inherits child parent _ hinherits := by
    rw [inherits_congr hsame.mem_iff]
    exact hinherits

namespace Twin

variable {outlines shuffled : List Outline} {batch other : Batch} {found seen : Findings}
  {number partner : Nat}

theorem objects (htwin : Twin batch other number partner) :
    ∃ placed twin, batch.objects[number]? = some placed ∧ other.objects[partner]? = some twin ∧
      placed.home.outline = twin.home.outline ∧ placed.object = twin.object :=
  htwin

theorem symm (htwin : Twin batch other number partner) : Twin other batch partner number := by
  rcases htwin with ⟨placed, twin, hplaced, htwin, houtline, hobject⟩
  exact ⟨twin, placed, htwin, hplaced, houtline.symm, hobject.symm⟩

theorem member_eq {placed twin : PlacedObject} (htwin : Twin batch other number partner)
    (hplaced : batch.objects[number]? = some placed)
    (hother : other.objects[partner]? = some twin) :
    placed.member = twin.member := by
  rcases htwin with ⟨first, second, hfirst, hsecond, houtline, hobject⟩
  rw [hplaced, Option.some.injEq] at hfirst
  rw [hother, Option.some.injEq] at hsecond
  subst hfirst hsecond
  rw [PlacedObject.member, PlacedObject.member, PlacedObject.space, PlacedObject.space, houtline,
    hobject]

/-- No number is the twin of two numbers. -/
theorem eq_of_twin {first second : Nat} (hfirst : Twin batch other first partner)
    (hnumbers : batch.Numbers outlines) (hsecond : Twin batch other second partner) :
    first = second := by
  rcases hfirst with ⟨placed, twin, hplaced, htwin, houtline, hobject⟩
  rcases hsecond with ⟨placed', twin', hplaced', htwin', houtline', hobject'⟩
  rw [htwin, Option.some.injEq] at htwin'
  subst htwin'
  apply hnumbers.eq_of_member hplaced hplaced'
  rw [PlacedObject.member, PlacedObject.member, PlacedObject.space, PlacedObject.space, houtline,
    houtline', hobject, hobject']

/-- Twins have the same qualified name. -/
theorem qualifiedName_eq (htwin : Twin batch other number partner) :
    Contract.qualifiedName (batch.graph found) ⟨number⟩ =
      Contract.qualifiedName (other.graph seen) ⟨partner⟩ := by
  rcases htwin with ⟨placed, twin, hplaced, htwin, houtline, hobject⟩
  rw [qualifiedName_graph _ hplaced, qualifiedName_graph _ htwin, PlacedObject.space,
    PlacedObject.space, houtline, hobject]

end Twin

/-- Two ids are those of twins. -/
def TwinIds (batch other : Batch) (first second : ObjectId) : Prop :=
  Twin batch other first.index second.index

/-- Two values are related if the first leads to the second, and the second is there only if the
first is. -/
theorem rel_of_some {α β : Type} {relation : α → β → Prop} {first : Option α} {second : Option β}
    (hforward : ∀ value, first = some value → ∃ result, second = some result ∧
      relation value result)
    (hbackward : ∀ result, second = some result → ∃ value, first = some value) :
    Option.Rel relation first second := by
  cases first with
  | none =>
      cases second with
      | none => exact .none
      | some result =>
          rcases hbackward result rfl with ⟨value, hvalue⟩
          cases hvalue
  | some value =>
      rcases hforward value rfl with ⟨result, rfl, hresult⟩
      exact .some hresult

theorem isSome_eq_of_rel {α β : Type} {relation : α → β → Prop} {first : Option α}
    {second : Option β} (hrel : Option.Rel relation first second) :
    first.isSome = second.isSome := by
  cases hrel with
  | none => rfl
  | some _ => rfl

theorem rel_map_mk {batch other : Batch} {first second : Option Nat}
    (hrel : Option.Rel (Twin batch other) first second) :
    Option.Rel (TwinIds batch other) (first.map ObjectId.mk) (second.map ObjectId.mk) := by
  cases hrel with
  | none => exact .none
  | some htwin => exact .some htwin

theorem map_qualifiedName_eq {batch other : Batch} {found seen : Findings}
    {first second : Option ObjectId} (hrel : Option.Rel (TwinIds batch other) first second) :
    first.map (Contract.qualifiedName (batch.graph found)) =
      second.map (Contract.qualifiedName (other.graph seen)) := by
  cases hrel with
  | none => rfl
  | some hid => exact congrArg some hid.qualifiedName_eq

/-- Two types look the same in the contracts of two graphs. -/
structure SameType (graph other : Graph) (first second : FieldType) : Prop where
  token_eq : Contract.typeToken graph first = Contract.typeToken other second
  staticSize?_eq : first.staticSize? = second.staticSize?

/-- Two fields look the same in the contracts of two graphs. -/
structure SameField (graph other : Graph) (field twin : Field) : Prop where
  key_eq : field.key = twin.key
  name_eq : field.name = twin.name
  isOptional_eq : field.isOptional = twin.isOptional
  type : SameType graph other field.type twin.type

namespace Included

variable {outlines larger : List Outline} {batch other : Batch} {found seen : Findings}
  (hsame : Included outlines larger batch other found seen)

include hsame

/-! ## Descendants -/

/-- A member has the same descendants in both batches. -/
theorem transGen_inherits_iff {member ancestor : Member}
    (hancestor : ancestor ∈ membersOf outlines) :
    TransGen (Inherits larger) member ancestor ↔ TransGen (Inherits outlines) member ancestor := by
  constructor
  · intro hpath
    induction hpath using TransGen.head_induction_on with
    | single hinherits => exact .single (hsame.inherits _ _ hancestor hinherits)
    | head hinherits _ ih =>
        rcases TransGen.head'_iff.mp ih with ⟨_, hnext, -⟩
        exact .head (hsame.inherits _ _ hnext.child_mem hinherits) ih
  · exact transGen_inherits_le hsame.mem member ancestor

/-! ## Partners -/

theorem exists_partner {home : PlacedOutline} (hhome : home ∈ batch.outlines) :
    ∃ partner ∈ other.outlines, home.outline = partner.outline := by
  have hmem := hsame.mem _ (hsame.numbers.outline_mem hhome)
  rcases hsame.otherNumbers.exists_home hmem with ⟨partner, hpartner, houtline⟩
  exact ⟨partner, hpartner, houtline.symm⟩

/-- The objects in the same place of the same document are twins. -/
theorem twin_of_place {home partner : PlacedOutline} (hhome : home ∈ batch.outlines)
    (hpartner : partner ∈ other.outlines) (houtline : home.outline = partner.outline) {place : Nat}
    {object : Declaration.Object} (hobject : home.outline.objects[place]? = some object) :
    Twin batch other (home.objectAt place).index (partner.objectAt place).index := by
  refine ⟨⟨home, object⟩, ⟨partner, object⟩, ?_, ?_, houtline, rfl⟩
  · exact hsame.numbers.sound.getElem?_of_place home hhome place object hobject
  · rw [houtline] at hobject
    exact hsame.otherNumbers.sound.getElem?_of_place partner hpartner place object hobject

theorem exists_twin {number : Nat} {placed : PlacedObject}
    (hplaced : batch.objects[number]? = some placed) :
    ∃ partner, Twin batch other number partner := by
  rcases hsame.numbers.sound.exists_place number placed hplaced with ⟨hhome, place, hobject, rfl⟩
  rcases hsame.exists_partner hhome with ⟨partner, hpartner, houtline⟩
  exact ⟨_, hsame.twin_of_place hhome hpartner houtline hobject⟩

theorem eq_of_twin {number first second : Nat} (hfirst : Twin batch other number first)
    (hsecond : Twin batch other number second) : first = second :=
  hfirst.symm.eq_of_twin hsame.otherNumbers hsecond.symm

/-! ## Parents and lineages -/

theorem exists_twin_up {number partner parent : Nat} (htwin : Twin batch other number partner)
    (hup : Up found.parents number parent) :
    ∃ above, Up seen.parents partner above ∧ Twin batch other parent above := by
  rcases (hsame.numbers.up_iff hsame.examined.parents_eq).mp hup with
    ⟨placed, ancestor, hplaced, hancestor, hinherits⟩
  rcases hsame.exists_twin hancestor with ⟨above, habove⟩
  rcases htwin.objects with ⟨_, twin, -, htwin', -, -⟩
  rcases habove.objects with ⟨_, relative, -, hrelative, -, -⟩
  refine ⟨above, ?_, habove⟩
  apply (hsame.otherNumbers.up_iff hsame.otherExamined.parents_eq).mpr
  refine ⟨twin, relative, htwin', hrelative, ?_⟩
  rw [← htwin.member_eq hplaced htwin', ← habove.member_eq hancestor hrelative]
  exact inherits_le hsame.mem _ _ hinherits

theorem rel_parents {number partner : Nat} (htwin : Twin batch other number partner) :
    Option.Rel (Twin batch other) found.parents[number]?.join seen.parents[partner]?.join := by
  apply rel_of_some
  · exact fun parent hup => hsame.exists_twin_up htwin hup
  · intro above hup
    -- What names a parent in one batch names it in the other one.
    rcases htwin with ⟨placed, twin, hplaced, hpartner, -, hobject⟩
    apply Option.ne_none_iff_exists'.mp
    intro hnone
    have hroot := (join_eq_none_iff hsame.examined.parents_eq hplaced).mp hnone
    rw [hobject, ← join_eq_none_iff hsame.otherExamined.parents_eq hpartner, hup] at hroot
    cases hroot

theorem exists_lineage {number partner : Nat} {lineage : List Nat}
    (hlineage : Lineage found.parents number lineage) (htwin : Twin batch other number partner) :
    ∃ line, Lineage seen.parents partner line ∧ List.Forall₂ (Twin batch other) lineage line := by
  induction hlineage generalizing partner with
  | root hparent =>
      have hrel := hsame.rel_parents htwin
      rw [hparent] at hrel
      cases hup : seen.parents[partner]?.join with
      | some above =>
          rw [hup] at hrel
          cases hrel
      | none => exact ⟨[partner], .root hup, .cons htwin .nil⟩
  | child hparent habove ih =>
      rcases hsame.exists_twin_up htwin hparent with ⟨above, hup, hparentTwin⟩
      rcases ih hparentTwin with ⟨line, hline, hall⟩
      exact ⟨line ++ [partner], .child hup hline, List.rel_append hall (.cons htwin .nil)⟩

/-! ## Responses and requests -/

theorem rel_response {number partner : Nat} {placed twin : PlacedObject}
    (htwin : Twin batch other number partner) (hplaced : batch.objects[number]? = some placed)
    (hpartner : other.objects[partner]? = some twin) :
    Option.Rel (TwinIds batch other) placed.response? twin.response? := by
  rcases htwin with ⟨first, second, hfirst, hsecond, houtline, hobject⟩
  rw [hplaced, Option.some.injEq] at hfirst
  rw [hpartner, Option.some.injEq] at hsecond
  subst hfirst hsecond
  rw [PlacedObject.response?, PlacedObject.response?, ← hobject]
  cases hresponse : placed.object.response with
  | none => exact .none
  | some place =>
      rcases (hsame.numbers.sound.of_getElem? hplaced).answered place hresponse with
        ⟨_, answer, -, hanswer, -⟩
      apply Option.Rel.some
      exact hsame.twin_of_place (hsame.numbers.sound.exists_place _ _ hplaced).1
        (hsame.otherNumbers.sound.exists_place _ _ hpartner).1 houtline hanswer

theorem exists_twin_request {number partner request : Nat}
    (htwin : Twin batch other number partner)
    (hrequest : batch.requestOf? number = some ⟨request⟩) :
    ∃ asked, other.requestOf? partner = some ⟨asked⟩ ∧ Twin batch other request asked := by
  rcases hsame.numbers.requestOf?_eq_some_iff.mp hrequest with ⟨placed, hplaced, hresponse⟩
  rcases hsame.exists_twin hplaced with ⟨asked, hasked⟩
  rcases hasked.objects with ⟨_, twin, -, htwin', -, -⟩
  have hrel := hsame.rel_response hasked hplaced htwin'
  rw [hresponse] at hrel
  cases hother : twin.response? with
  | none =>
      rw [hother] at hrel
      cases hrel
  | some id =>
      rw [hother] at hrel
      cases hrel with
      | some hid =>
          refine ⟨asked, hsame.otherNumbers.requestOf?_eq_some_iff.mpr ⟨twin, htwin', ?_⟩, hasked⟩
          rw [hother, hsame.eq_of_twin htwin hid]

/-- A request and its response are in one document. -/
theorem exists_request_of_twin {number partner : Nat} {id : ObjectId}
    (htwin : Twin batch other number partner) (hrequest : other.requestOf? partner = some id) :
    ∃ request, batch.requestOf? number = some request := by
  rcases hsame.otherNumbers.requestOf?_eq_some_iff.mp hrequest with ⟨asker, hasker, hresponse⟩
  rcases hsame.otherNumbers.exists_answer hasker hresponse with ⟨_, answer, hanswer, -⟩
  rcases hsame.otherNumbers.sound.exists_place _ _ hasker with ⟨hhome', place, hplace, hasked⟩
  rcases htwin.objects with ⟨placed, twin, hplaced, hpartner, houtline, -⟩
  rw [hpartner, Option.some.injEq] at hanswer
  subst hanswer
  rcases hsame.numbers.sound.exists_place _ _ hplaced with ⟨hhome, -⟩
  rw [← houtline] at hplace
  have hasking := hsame.twin_of_place hhome hhome' houtline hplace
  rw [PlacedOutline.objectAt, PlacedOutline.objectAt, ← hasked] at hasking
  rcases hasking.objects with ⟨request, _, hrequested, hother, -⟩
  rw [hasker, Option.some.injEq] at hother
  subst hother
  have hrel := hsame.rel_response hasking hrequested hasker
  rw [hresponse] at hrel
  cases hresponse' : request.response? with
  | none =>
      rw [hresponse'] at hrel
      cases hrel
  | some answered =>
      rw [hresponse'] at hrel
      cases hrel with
      | some hid =>
          have hnumber := hid.eq_of_twin hsame.numbers htwin
          refine ⟨_, hsame.numbers.requestOf?_eq_some_iff.mpr ⟨request, hrequested, ?_⟩⟩
          rw [hresponse', ← hnumber]

theorem rel_request {number partner : Nat} (htwin : Twin batch other number partner) :
    Option.Rel (TwinIds batch other) (batch.requestOf? number) (other.requestOf? partner) := by
  apply rel_of_some
  · intro id hrequest
    rcases hsame.exists_twin_request htwin hrequest with ⟨asked, hasked, hid⟩
    exact ⟨⟨asked⟩, hasked, hid⟩
  · intro id hrequest
    exact hsame.exists_request_of_twin htwin hrequest

/-! ## Fields -/

theorem sameType_of_resolveShape {number partner : Nat} {placed twin : PlacedObject}
    (hplaced : batch.objects[number]? = some placed)
    (hpartner : other.objects[partner]? = some twin)
    (houtline : placed.home.outline = twin.home.outline) {shape : Declaration.Shape}
    (hrefers : shape.Refers placed.home.outline.objects) {first second : FieldType}
    (hfirst : batch.resolveShape placed shape = .ok first)
    (hsecond : other.resolveShape twin shape = .ok second) :
    SameType (batch.graph found) (other.graph seen) first second := by
  induction shape generalizing first second with
  | primitive kind =>
      cases hfirst
      cases hsecond
      exact ⟨rfl, rfl⟩
  | text =>
      cases hfirst
      cases hsecond
      exact ⟨rfl, rfl⟩
  | binary length =>
      cases hfirst
      cases hsecond
      exact ⟨rfl, rfl⟩
  | array element ih =>
      rcases Outcome.map_eq_ok hfirst with ⟨inner, hinner, rfl⟩
      rcases Outcome.map_eq_ok hsecond with ⟨inner', hinner', rfl⟩
      have hsameInner := ih hrefers hinner hinner'
      refine ⟨?_, rfl⟩
      rw [Contract.typeToken, Contract.typeToken, hsameInner.token_eq]
  | embedded index =>
      cases hfirst
      cases hsecond
      rcases hrefers index rfl with ⟨object, hobject, -⟩
      have htwin := hsame.twin_of_place (hsame.numbers.sound.exists_place _ _ hplaced).1
        (hsame.otherNumbers.sound.exists_place _ _ hpartner).1 houtline hobject
      refine ⟨?_, rfl⟩
      exact congrArg (fun name => "@" ++ name) htwin.qualifiedName_eq
  | link target =>
      rcases Outcome.bind_eq_ok hfirst with ⟨home, hhome, hfirst⟩
      rcases Outcome.bind_eq_ok hsecond with ⟨home', hhome', hsecond⟩
      rcases hsame.numbers.targetOutline_eq_ok_iff.mp hhome with ⟨hmem, hspace⟩
      rcases hsame.otherNumbers.targetOutline_eq_ok_iff.mp hhome' with ⟨hmem', hspace'⟩
      have hproper := hsame.numbers.proper _ (hsame.numbers.outline_mem hmem)
      have htarget : home.outline = home'.outline :=
        hsame.otherNumbers.spaces.eq_of_space
          (hsame.mem _ (hsame.numbers.outline_mem hmem))
          (hsame.otherNumbers.outline_mem hmem') (hspace.trans hspace'.symm)
      rw [← htarget] at hsecond
      split at hfirst
      next place hplace =>
        rw [hplace] at hsecond
        cases hfirst
        cases hsecond
        rcases hproper.enumIndex?_eq_some_iff.mp hplace with ⟨type, htype, -⟩
        refine ⟨(hsame.numbers.typeToken_enumAt hmem htype).trans ?_, rfl⟩
        rw [htarget] at htype ⊢
        exact (hsame.otherNumbers.typeToken_enumAt hmem' htype).symm
      next place hnone hplace =>
        rw [hnone, hplace] at hsecond
        cases hfirst
        cases hsecond
        rcases hproper.objectIndex?_eq_some_iff.mp hplace with ⟨object, hobject, -⟩
        have htwin := hsame.twin_of_place hmem hmem' htarget hobject
        refine ⟨?_, rfl⟩
        exact congrArg (fun name => "@" ++ name) htwin.qualifiedName_eq
      next => cases hfirst

theorem forall₂_ownAt {number partner : Nat} (htwin : Twin batch other number partner) :
    List.Forall₂ (SameField (batch.graph found) (other.graph seen)) (batch.ownAt number)
      (other.ownAt partner) := by
  rcases htwin with ⟨placed, twin, hplaced, hpartner, houtline, hobject⟩
  have hrefers := (hsame.numbers.sound.of_getElem? hplaced).refers
  have hown := hsame.otherExamined.forall₂_ownAt hpartner
  rw [← hobject] at hown
  refine Outcome.forall₂_of_common ?_ ((List.forall₂_and_left ..).mpr
    ⟨hrefers, hsame.examined.forall₂_ownAt hplaced⟩) hown
  rintro declared field partner ⟨hrefers, hfirst⟩ hsecond
  rcases Outcome.map_eq_ok hfirst with ⟨type, htype, rfl⟩
  rcases Outcome.map_eq_ok hsecond with ⟨type', htype', rfl⟩
  have htypes := hsame.sameType_of_resolveShape hplaced hpartner houtline hrefers htype htype'
  exact ⟨rfl, rfl, rfl, htypes⟩

theorem forall₂_allFields {lineage line : List Nat}
    (hall : List.Forall₂ (Twin batch other) lineage line) :
    List.Forall₂ (SameField (batch.graph found) (other.graph seen)) (batch.allFields lineage)
      (other.allFields line) :=
  List.rel_flatMap hall fun _ _ htwin => hsame.forall₂_ownAt htwin

end Included

end Batch
end WireSchema
