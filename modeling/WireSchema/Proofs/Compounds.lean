import WireSchema.Proofs.Capitals
import WireSchema.Proofs.Embedding
import WireSchema.Proofs.Ownership

/-!
# Compound names

A tag that is joined of two keys by an underscore has the name of the first, followed by that of the
second, if the second does not start with an ordinal.  The tags that no key of a document spells out
are joined in this way: an embedded object is tagged by its owner and the key of the field, and a
payload by the key of its entry and its role.  So their names are composed of the names of these.
-/

namespace WireSchema

namespace Naming

/-! ## Joined keys -/

theorem startsWithOrdinal_iff_of_capitalised {chars later : List Char}
    (hsame : List.Forall₂ Capitalised chars later) :
    StartsWithOrdinal later ↔ StartsWithOrdinal chars := by
  constructor
  · intro hstarts
    cases hstarts with
    | plain digit rest hdigit =>
        rw [List.forall₂_cons_right_iff] at hsame
        rcases hsame with ⟨c, more, hc, -, rfl⟩
        rw [hc.isAsciiDigit_eq] at hdigit
        exact .plain c more hdigit
    | marked digit rest hdigit =>
        rw [List.forall₂_cons_right_iff] at hsame
        rcases hsame with ⟨mark, others, hmark, hothers, rfl⟩
        rw [List.forall₂_cons_right_iff] at hothers
        rcases hothers with ⟨c, more, hc, -, rfl⟩
        rw [hc.isAsciiDigit_eq] at hdigit
        rw [hmark.eq_mark_iff.mp rfl]
        exact .marked c more hdigit
  · intro hstarts
    cases hstarts with
    | plain digit rest hdigit =>
        rw [List.forall₂_cons_left_iff] at hsame
        rcases hsame with ⟨c, more, hc, -, rfl⟩
        exact .plain c more (hc.isAsciiDigit_eq.trans hdigit)
    | marked digit rest hdigit =>
        rw [List.forall₂_cons_left_iff] at hsame
        rcases hsame with ⟨mark, others, hmark, hothers, rfl⟩
        rw [List.forall₂_cons_left_iff] at hothers
        rcases hothers with ⟨c, more, hc, -, rfl⟩
        rw [hmark.eq_mark_iff.mpr rfl]
        exact .marked c more (hc.isAsciiDigit_eq.trans hdigit)

theorem exists_digit_of_isOrdinal {ordinal : List Char} (hordinal : IsOrdinal ordinal)
    (hsome : ordinal ≠ []) : ∃ c ∈ ordinal, isAsciiDigit c = true := by
  cases hordinal with
  | plain _ hdigits =>
      rcases List.exists_mem_of_ne_nil _ hsome with ⟨c, hc⟩
      exact ⟨c, hc, hdigits c hc⟩
  | marked digits hsome' hdigits =>
      rcases List.exists_mem_of_ne_nil _ hsome' with ⟨c, hc⟩
      exact ⟨c, List.mem_cons_of_mem _ hc, hdigits c hc⟩

/-- What is kept of a key behind an underscore is its name, unless an ordinal is kept too. -/
theorem joinedName_eq_identifier_iff {suffix : String} :
    joinedName suffix = identifier .type suffix ↔ ¬ StartsWithOrdinal suffix.toList := by
  rw [← startsWithOrdinal_iff_of_capitalised (forall₂_capitalise .type suffix.toList)]
  have hname : identifier .type suffix =
      String.ofList ((dropOrdinal (capitalise .type suffix.toList)).filter isNameChar) := rfl
  rw [joinedName, hname, String.ofList_inj]
  constructor
  · intro hsame hstarts
    -- A digit of the ordinal is kept behind an underscore, and dropped in front.
    rcases hstarts.exists_ordinal with ⟨ordinal, hordinal, hsome, hchars⟩
    rcases exists_digit_of_isOrdinal hordinal hsome with ⟨c, hc, hdigit⟩
    have hkept := congrArg (List.filter isNameChar) hchars
    rw [List.filter_append, hsame, List.self_eq_append_left, List.filter_eq_nil_iff] at hkept
    exact hkept c hc (isNameChar_of_digit hdigit)
  · intro hstarts
    rw [dropOrdinal_eq_self_iff.mpr hstarts]

theorem identifier_joined_iff {front back : String} :
    identifier .type (front ++ "_" ++ back) = identifier .type front ++ identifier .type back ↔
      ¬ StartsWithOrdinal back.toList := by
  rw [identifier_joined, String.append_right_inj, joinedName_eq_identifier_iff]

end Naming

open Naming (StartsWithOrdinal identifier singular)

/-! ## Tags of embedded objects and payloads -/

namespace Declaration

def Shape.isArray : Shape → Bool
  | .array _ => true
  | _ => false

/-- What stands behind the tag of the owner in the tag of what a field embeds. -/
def Field.suffix (field : Field) : String :=
  if field.shape.isArray then singular field.key else field.key

/-- Whatever a shape embeds has a tag. -/
def Shape.Tags (objects : List Object) (tag : String) (shape : Shape) : Prop :=
  ∀ place, shape.embedded? = some place → ∃ object, objects[place]? = some object ∧
    object.tag = tag

/-- What the fields of an object embed is tagged for them, and a payload for its role. -/
structure Object.Tagged (objects : List Object) (object : Object) : Prop where
  embeds : ∀ field ∈ object.fields, field.shape.Tags objects (object.tag ++ "_" ++ field.suffix)
  marked : object.role.isPayload = true → ∃ key, object.tag = key ++ "_" ++ object.role.text

theorem Shape.Tags.mono {objects later : List Object} {tag : String} {shape : Shape}
    (htags : shape.Tags objects tag) (hkept : objects <+: later) : shape.Tags later tag := by
  intro place hplace
  rcases htags place hplace with ⟨object, hobject, htag⟩
  rcases List.getElem?_eq_some_iff.mp hobject with ⟨hlt, rfl⟩
  exact ⟨_, List.prefix_iff_getElem?.mp hkept place hlt, htag⟩

theorem Object.Tagged.mono {objects later : List Object} {object : Object}
    (htagged : object.Tagged objects) (hkept : objects <+: later) : object.Tagged later :=
  ⟨fun field hfield => (htagged.embeds field hfield).mono hkept, htagged.marked⟩

end Declaration

namespace Outline

open Declaration (Object)

/-- The objects that were there are the first of the later ones, which are all tagged. -/
structure Extended (objects later : List Object) : Prop where
  kept : objects <+: later
  tagged : ∀ object ∈ later, object.Tagged later

theorem Extended.concat {objects later : List Object} (hextended : Extended objects later)
    {object : Object} (hobject : object.Tagged later) : Extended objects (later ++ [object]) where
  kept := hextended.kept.trans (List.prefix_append later [object])
  tagged := by
    intro other hother
    have hkept := List.prefix_append later [object]
    rcases List.mem_append.mp hother with hother | hother
    · exact (hextended.tagged other hother).mono hkept
    · rw [List.mem_singleton.mp hother]
      exact hobject.mono hkept

theorem Extended.trans {objects middle later : List Object} (hfirst : Extended objects middle)
    (hsecond : Extended middle later) : Extended objects later :=
  ⟨hfirst.kept.trans hsecond.kept, hsecond.tagged⟩

mutual

theorem extended_readShape {space owner key : String} {inArray : Bool} {value : Json}
    {objects later : List Object} {shape : Declaration.Shape}
    (htagged : ∀ object ∈ objects, object.Tagged objects)
    (hrun : readShape space owner key inArray value objects = .ok (shape, later)) :
    Extended objects later ∧
      shape.Tags later (embeddedTag owner key (inArray || shape.isArray)) := by
  match value with
  | .string token =>
      rw [readShape] at hrun
      rcases lift_eq_ok hrun with ⟨hshape, rfl⟩
      refine ⟨⟨List.prefix_rfl, htagged⟩, ?_⟩
      intro place hplace
      rw [embedded?_of_tokenShape hshape] at hplace
      cases hplace
  | .array [item] =>
      rw [readShape] at hrun
      rcases Outcome.bind_eq_ok hrun with ⟨⟨element, middle⟩, helement, hrun⟩
      cases hrun
      rcases extended_readShape htagged helement with ⟨hextended, htags⟩
      rw [Bool.true_or] at htags
      refine ⟨hextended, ?_⟩
      rw [Declaration.Shape.isArray, Bool.or_true]
      exact htags
  | .object members =>
      rw [readShape] at hrun
      rcases check_bind_eq_ok hrun with ⟨name, -, hbody⟩
      rcases Outcome.bind_eq_ok hbody with ⟨⟨fields, middle⟩, hfields, hadded⟩
      cases hadded
      rcases extended_readFields htagged (by simp) hfields with ⟨hextended, htags⟩
      refine ⟨hextended.concat ⟨htags, by simp [Role.isPayload]⟩, ?_⟩
      have hplain : (Declaration.Shape.embedded middle.length).isArray = false := rfl
      intro place hplace
      cases hplace
      refine ⟨_, List.getElem?_concat_length, ?_⟩
      rw [hplain, Bool.or_false]
  | .null => cases hrun
  | .bool _ => cases hrun
  | .number _ => cases hrun
  | .array [] => cases hrun
  | .array (_ :: _ :: _) => cases hrun

theorem extended_readFields {space owner : String} {sofar fields : List Declaration.Field}
    {members : List (String × Json)} {objects later : List Object}
    (htagged : ∀ object ∈ objects, object.Tagged objects)
    (hsofar : ∀ field ∈ sofar, field.shape.Tags objects (owner ++ "_" ++ field.suffix))
    (hrun : readFields space owner sofar members objects = .ok (fields, later)) :
    Extended objects later ∧
      ∀ field ∈ fields, field.shape.Tags later (owner ++ "_" ++ field.suffix) := by
  match members with
  | [] =>
      rw [readFields] at hrun
      cases hrun
      exact ⟨⟨List.prefix_rfl, htagged⟩, hsofar⟩
  | (key, value) :: rest =>
      rw [readFields] at hrun
      rcases check_bind_eq_ok hrun with ⟨name, -, hfields⟩
      dsimp only at hfields
      split at hfields
      · cases hfields
      · rcases Outcome.bind_eq_ok hfields with ⟨⟨shape, middle⟩, hshape, hrest⟩
        rcases extended_readShape htagged hshape with ⟨hextended, htags⟩
        have hmore : ∀ field ∈ sofar ++ [⟨key, name, key.toList.head? == some '?', shape⟩],
            field.shape.Tags middle (owner ++ "_" ++ field.suffix) := by
          intro field hfield
          rcases List.mem_append.mp hfield with hfield | hfield
          · exact (hsofar field hfield).mono hextended.kept
          · rw [List.mem_singleton.mp hfield]
            exact htags
        have hlast := extended_readFields hextended.tagged hmore hrest
        exact ⟨hextended.trans hlast.1, hlast.2⟩

end

/-! ## Documents -/

theorem exists_marked (key : String) (role : Role) {mark : String}
    (hmark : mark = "_" ++ role.text) :
    role.isPayload = true → ∃ front, key ++ mark = front ++ "_" ++ role.text :=
  fun _ => ⟨key, by rw [hmark, String.append_assoc]⟩

theorem tagged_declareObject {space tag name : String} {role : Role} {parent : Option Link}
    {wireName : Option String} {response : Option Nat} {body : List (String × Json)}
    {objects later : List Object} {place : Nat}
    (hmarked : role.isPayload = true → ∃ key, tag = key ++ "_" ++ role.text)
    (htagged : ∀ object ∈ objects, object.Tagged objects)
    (hrun : declareObject space tag name role parent wireName response body objects =
      .ok (place, later)) : ∀ object ∈ later, object.Tagged later := by
  rw [declareObject] at hrun
  rcases Outcome.bind_eq_ok hrun with ⟨⟨fields, middle⟩, hfields, hadded⟩
  cases hadded
  rcases extended_readFields htagged (by simp) hfields with ⟨hextended, htags⟩
  exact (hextended.concat ⟨htags, hmarked⟩).tagged

theorem tagged_declareTopLevel {space key : String} {body : List (String × Json)}
    {objects later : List Object} (htagged : ∀ object ∈ objects, object.Tagged objects)
    (hrun : declareTopLevel space key body objects = .ok ((), later)) :
    ∀ object ∈ later, object.Tagged later := by
  rw [declareTopLevel] at hrun
  generalize splitInheritance key = parts at hrun
  rcases parts with ⟨tag, parent⟩
  rcases check_bind_eq_ok hrun with ⟨name, -, hrun⟩
  rcases Outcome.bind_eq_ok hrun with ⟨⟨place, middle⟩, hobject, hdone⟩
  cases hdone
  exact tagged_declareObject (by simp [Role.isPayload]) htagged hobject

theorem tagged_declareMessage {space key : String} {body : List (String × Json)}
    {objects later : List Object} (htagged : ∀ object ∈ objects, object.Tagged objects)
    (hrun : declareMessage space key body objects = .ok ((), later)) :
    ∀ object ∈ later, object.Tagged later := by
  rw [declareMessage] at hrun
  rcases check_bind_eq_ok hrun with ⟨wireName, -, hrun⟩
  rcases check_bind_eq_ok hrun with ⟨_, -, hrun⟩
  rcases check_bind_eq_ok hrun with ⟨name, -, hrun⟩
  rcases Outcome.bind_eq_ok hrun with ⟨⟨place, middle⟩, hobject, hdone⟩
  cases hdone
  exact tagged_declareObject (exists_marked key .message rfl) htagged hobject

theorem tagged_declareRequest {space key : String} {request response : List (String × Json)}
    {objects later : List Object} (htagged : ∀ object ∈ objects, object.Tagged objects)
    (hrun : declareRequest space key request response objects = .ok ((), later)) :
    ∀ object ∈ later, object.Tagged later := by
  rw [declareRequest] at hrun
  rcases check_bind_eq_ok hrun with ⟨requestWire, -, hrun⟩
  rcases check_bind_eq_ok hrun with ⟨responseWire, -, hrun⟩
  rcases check_bind_eq_ok hrun with ⟨_, -, hrun⟩
  rcases check_bind_eq_ok hrun with ⟨_, -, hrun⟩
  rcases check_bind_eq_ok hrun with ⟨responseName, -, hrun⟩
  rcases Outcome.bind_eq_ok hrun with ⟨⟨index, middle⟩, hanswer, hrun⟩
  rcases check_bind_eq_ok hrun with ⟨requestName, -, hrun⟩
  rcases Outcome.bind_eq_ok hrun with ⟨⟨place, last⟩, hobject, hdone⟩
  cases hdone
  have hmiddle : ∀ object ∈ middle, object.Tagged middle :=
    tagged_declareObject (exists_marked key .response rfl) htagged hanswer
  exact tagged_declareObject (exists_marked key .request rfl) hmiddle hobject

theorem tagged_readEntry {outline read : Outline} {key : String} {value : Json}
    (htagged : ∀ object ∈ outline.objects, object.Tagged outline.objects)
    (hread : readEntry outline key value = .ok read) :
    ∀ object ∈ read.objects, object.Tagged read.objects := by
  rcases readEntry_cases hread with
    ⟨-, ⟨action, objects, hdeclares, hrun, rfl⟩ | ⟨rows, declared, -, -, -, rfl⟩⟩
  · cases hdeclares with
    | object body => exact tagged_declareTopLevel htagged hrun
    | message body => exact tagged_declareMessage htagged hrun
    | request request response => exact tagged_declareRequest htagged hrun
  · exact htagged

theorem tagged_ofDocument {document : Document} {outline : Outline}
    (hread : ofDocument document = .ok outline) :
    ∀ object ∈ outline.objects, object.Tagged outline.objects := by
  rcases ofDocument_eq_ok_iff.mp hread with ⟨entries, -, hentries, -⟩
  refine readEntries_keep (P := fun read => ∀ object ∈ read.objects, object.Tagged read.objects)
    (fun _ _ _ _ => tagged_readEntry) ?_ hentries
  simp

/-- How the names are composed that no key of a document spells out. -/
structure NamesCompose (outline : Outline) : Prop where
  embedded : ∀ owner ∈ outline.objects, ∀ field ∈ owner.fields, ∀ place,
    field.shape.embedded? = some place → ∃ object, outline.objects[place]? = some object ∧
      object.role = .embedded ∧ object.tag = owner.tag ++ "_" ++ field.suffix ∧
      (object.name = owner.name ++ identifier .type field.suffix ↔
        ¬ StartsWithOrdinal field.suffix.toList)
  held : ∀ place object, outline.objects[place]? = some object → object.role = .embedded →
    ∃ owner ∈ outline.objects, ∃ field ∈ owner.fields, field.shape.embedded? = some place
  payload : ∀ object ∈ outline.objects, object.role.isPayload = true →
    ∃ key, object.tag = key ++ "_" ++ object.role.text ∧
      object.name = identifier .type key ++ identifier .type object.role.text ∧
      object.wireName = some object.name

theorem not_startsWithOrdinal_text (role : Role) : ¬ StartsWithOrdinal role.text.toList := by
  cases role <;> decide +kernel

theorem namesCompose_ofDocument {document : Document} {outline : Outline}
    (hread : ofDocument document = .ok outline) : outline.NamesCompose := by
  have hsound := sound_ofDocument hread
  have hassembled := assembled_ofDocument hread
  have htagged := tagged_ofDocument hread
  constructor
  · intro owner howner field hfield place hplace
    rcases (hsound owner howner).refers field hfield place hplace with ⟨object, hobject, hrole⟩
    rcases (htagged owner howner).embeds field hfield place hplace with ⟨other, hother, htag⟩
    cases hobject.symm.trans hother
    refine ⟨object, hobject, hrole, htag, ?_⟩
    rw [(hsound object (List.mem_of_getElem? hobject)).name_eq, (hsound owner howner).name_eq, htag]
    exact Naming.identifier_joined_iff
  · intro place object hobject hrole
    rcases hassembled.exists_embedsAt hobject hrole with
      ⟨number, index, owner, field, howner, hfield, hshape⟩
    exact ⟨owner, List.mem_of_getElem? howner, field, List.mem_of_getElem? hfield, hshape⟩
  · intro object hobject hrole
    rcases (htagged object hobject).marked hrole with ⟨key, htag⟩
    refine ⟨key, htag, ?_, ?_⟩
    · rw [(hsound object hobject).name_eq, htag, Naming.identifier_joined_iff]
      exact not_startsWithOrdinal_text object.role
    · rw [hassembled.wireName_eq object hobject, if_pos hrole]

end Outline

open Naming (FollowsRule)

/-- The identifier of a key, and nothing else, follows the rule.  The name of two joined keys is
that of the first and then that of the second, exactly if the second does not start with an ordinal,
and so are the names of embedded objects and payloads composed in every document that is
accepted. -/
theorem Naming.composes_by_rule :
    (∀ case key name, FollowsRule case key name ↔ name = identifier case key) ∧
    (∀ front back, identifier .type (front ++ "_" ++ back) =
        identifier .type front ++ identifier .type back ↔ ¬ StartsWithOrdinal back.toList) ∧
    ∀ document outline, Outline.ofDocument document = .ok outline → outline.NamesCompose :=
  ⟨fun _ _ _ => followsRule_iff, fun _ _ => identifier_joined_iff,
    fun _ _ => Outline.namesCompose_ofDocument⟩

namespace Sample

/-- A room with doors, each of which has a lock, and a bell. -/
def cottage : Document :=
  ⟨"home", .object
    [("wide_room", .object [("?doors", .array [.object [("3rd_lock", .object [])]])]),
      ("ring_bell", .array [.object []])]⟩

def cottageOutline : Outline :=
  ⟨"home", [],
    [⟨"wide_room_?door_3rd_lock", "WideRoomDoor3RdLock", .embedded, none, [], none, none⟩,
      ⟨"wide_room_?door", "WideRoomDoor", .embedded, none,
        [⟨"3rd_lock", "RdLock", false, .embedded 0⟩], none, none⟩,
      ⟨"wide_room", "WideRoom", .object, none,
        [⟨"?doors", "doors", true, .array (.embedded 1)⟩], none, none⟩,
      ⟨"ring_bell_message", "RingBellMessage", .message, none, [], some "RingBellMessage", none⟩]⟩

/-- The name of the door is composed, and that of the lock is not: it keeps the ordinal. -/
theorem composed_cottage :
    Outline.ofDocument cottage = .ok cottageOutline ∧ cottageOutline.NamesCompose ∧
      FollowsRule .type "wide_room_?door" "WideRoomDoor" ∧
      ¬ StartsWithOrdinal "?door".toList ∧
      identifier .type ("wide_room" ++ "_" ++ "?door") =
        identifier .type "wide_room" ++ identifier .type "?door" ∧
      identifier .type ("wide_room_?door" ++ "_" ++ "3rd_lock") ≠
        identifier .type "wide_room_?door" ++ identifier .type "3rd_lock" := by
  have hread : Outline.ofDocument cottage = .ok cottageOutline := by decide +kernel
  have hplain : ¬ StartsWithOrdinal "?door".toList := by decide +kernel
  have hordinal : StartsWithOrdinal "3rd_lock".toList := by decide +kernel
  obtain ⟨hrule, hjoined, houtlines⟩ := Naming.composes_by_rule
  refine ⟨hread, houtlines cottage cottageOutline hread, ?_, hplain, ?_, ?_⟩
  · rw [hrule]
    decide +kernel
  · rw [hjoined]
    exact hplain
  · rw [ne_eq, hjoined, not_not]
    exact hordinal

end Sample

end WireSchema
