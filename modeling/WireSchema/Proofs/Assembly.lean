import Mathlib.Data.List.Induction
import WireSchema.Proofs.Joining
import WireSchema.Proofs.Outlines

/-!
# How outlines are assembled

A document is a tree of bodies, and its outline has one object for each of them: an embedded object
stands before the object that holds it, and a response before its request.  While the outline grows,
some of its objects are not held yet.  Every action is described by the objects that it takes from
these and by those that it leaves behind, and at the end of a document none is left over.
-/

namespace WireSchema

open Naming (identifier)

/-- The mapping that declares the fields of an object. -/
structure Body where
  tag : String
  members : List (String × Json)

namespace Outline

mutual

/-- The bodies of the objects that are embedded in a field. -/
def embeddedBodies (owner key : String) (inArray : Bool) : Json → List Body
  | .array [item] => embeddedBodies owner key true item
  | .object members =>
    innerBodies (embeddedTag owner key inArray) members ++
      [⟨embeddedTag owner key inArray, members⟩]
  | _ => []

def innerBodies (owner : String) : List (String × Json) → List Body
  | [] => []
  | (key, value) :: rest => embeddedBodies owner key false value ++ innerBodies owner rest

end

/-- The body of an object, behind those of the objects that are embedded in it. -/
def objectBodies (tag : String) (members : List (String × Json)) : List Body :=
  innerBodies tag members ++ [⟨tag, members⟩]

def entryBodies (key : String) : Json → List Body
  | .object body => objectBodies (splitInheritance key).1 body
  | .array [.object body] => objectBodies (key ++ "_message") body
  | .array [.object request, .object response] =>
    objectBodies (key ++ "_response") response ++ objectBodies (key ++ "_request") request
  | _ => []

/-- The keys of enums, which are arrays of strings. -/
def entryEnums (key : String) : Json → List String
  | .array (.string _ :: _) => [key]
  | _ => []

end Outline

def Document.enumKeys (document : Document) : List String :=
  match document.root with
  | .object entries => entries.flatMap fun entry => Outline.entryEnums entry.1 entry.2
  | _ => []

/-- The bodies of a document, in the order of the objects that they declare. -/
def Document.bodies (document : Document) : List Body :=
  match document.root with
  | .object entries => entries.flatMap fun entry => Outline.entryBodies entry.1 entry.2
  | _ => []

namespace Declaration

/-- A field is declared by a member of a body. -/
structure Field.Reads (member : String × Json) (field : Field) : Prop where
  key_eq : field.key = member.1
  name_eq : field.name = identifier .field member.1
  isOptional_eq : field.isOptional = (member.1.toList.head? == some '?')

/-- An object has the tag of a body, and one field for each member of it, in their order. -/
structure Object.Reads (body : Body) (object : Object) : Prop where
  tag_eq : object.tag = body.tag
  fields : List.Forall₂ Field.Reads body.members object.fields

end Declaration

/-! ## Objects that are held by others -/

/-- Embedded objects are held by a field, responses by their request. -/
def Role.isHeld : Role → Bool
  | .embedded | .response => true
  | .object | .message | .request => false

namespace Declaration

/-- The embedded objects that a field holds, by their role and place. -/
def Shape.holds (shape : Shape) : List (Role × Nat) :=
  shape.embedded?.toList.map (Prod.mk .embedded)

def holdsOfFields (fields : List Field) : List (Role × Nat) :=
  fields.flatMap (·.shape.holds)

def holdsOfResponse (response : Option Nat) : List (Role × Nat) :=
  response.toList.map (Prod.mk .response)

def Object.holds (object : Object) : List (Role × Nat) :=
  holdsOfFields object.fields ++ holdsOfResponse object.response

/-- An object in a place, if it is to be held. -/
def heldAt (role : Role) (place : Nat) : List (Role × Nat) :=
  if role.isHeld then [(role, place)] else []

def heldAmong (objects : List Object) : List (Role × Nat) :=
  objects.zipIdx.flatMap fun entry => heldAt entry.1.role entry.2

theorem heldAmong_concat (objects : List Object) (object : Object) :
    heldAmong (objects ++ [object]) = heldAmong objects ++ heldAt object.role objects.length := by
  rw [heldAmong, List.zipIdx_append, List.flatMap_append]
  simp [heldAmong]

theorem mem_heldAmong {objects : List Object} {role : Role} {place : Nat} :
    (role, place) ∈ heldAmong objects ↔
      role.isHeld = true ∧ ∃ object, objects[place]? = some object ∧ object.role = role := by
  rw [heldAmong, List.mem_flatMap]
  constructor
  · rintro ⟨⟨object, number⟩, hentry, hmem⟩
    have hobject := List.mem_zipIdx_iff_getElem?.mp hentry
    dsimp only [heldAt] at hmem
    split at hmem
    next hheld =>
      cases List.mem_singleton.mp hmem
      exact ⟨hheld, object, hobject, rfl⟩
    next => cases hmem
  · rintro ⟨hheld, object, hobject, rfl⟩
    refine ⟨(object, place), List.mem_zipIdx_iff_getElem?.mpr hobject, ?_⟩
    simp [heldAt, hheld]

theorem nodup_heldAmong (objects : List Object) : (heldAmong objects).Nodup := by
  induction objects using List.reverseRecOn with
  | nil => simp [heldAmong]
  | append_singleton objects object ih =>
      rw [heldAmong_concat, List.nodup_append]
      refine ⟨ih, ?_, ?_⟩
      · unfold heldAt
        split <;> simp
      · rintro ⟨role, place⟩ hmem other hother rfl
        rcases mem_heldAmong.mp hmem with ⟨-, found, hfound, -⟩
        have hlt := (List.getElem?_eq_some_iff.mp hfound).1
        have hplace : place = objects.length := by
          unfold heldAt at hother
          split at hother
          · exact congrArg Prod.snd (List.mem_singleton.mp hother)
          · cases hother
        omega

end Declaration

namespace Outline

open Declaration (Object Shape heldAmong heldAmong_concat heldAt holdsOfFields holdsOfResponse)

/-- The objects that some bodies are read into, apart from those in `left` each held once. -/
structure Assembled (objects : List Object) (left : List (Role × Nat)) (bodies : List Body) :
    Prop where
  reads : List.Forall₂ Object.Reads bodies objects
  held : (objects.flatMap Object.holds ++ left).Perm (heldAmong objects)
  wireName_eq : ∀ object ∈ objects,
    object.wireName = if object.role.isPayload then some object.name else none
  asks_iff : ∀ object ∈ objects, object.response.isSome = true ↔ object.role = .request

theorem assembled_nil : Assembled [] [] [] where
  reads := .nil
  held := .refl _
  wireName_eq := by simp
  asks_iff := by simp

theorem Assembled.perm {objects : List Object} {left other : List (Role × Nat)}
    {bodies : List Body} (hassembled : Assembled objects left bodies) (hperm : left.Perm other) :
    Assembled objects other bodies where
  reads := hassembled.reads
  held := (hperm.symm.append_left _).trans hassembled.held
  wireName_eq := hassembled.wireName_eq
  asks_iff := hassembled.asks_iff

/-- An object that is added holds some of those that are left, and may be to be held itself. -/
theorem Assembled.concat {objects : List Object} {left : List (Role × Nat)} {bodies : List Body}
    {object : Object} {body : Body}
    (hassembled : Assembled objects (object.holds ++ left) bodies)
    (hreads : object.Reads body)
    (hwire : object.wireName = if object.role.isPayload then some object.name else none)
    (hasks : object.response.isSome = true ↔ object.role = .request) :
    Assembled (objects ++ [object]) (heldAt object.role objects.length ++ left)
      (bodies ++ [body]) where
  reads := List.rel_append hassembled.reads (.cons hreads .nil)
  held := by
    rw [heldAmong_concat, List.flatMap_append, List.flatMap_singleton]
    have hheld := hassembled.held.append_right (heldAt object.role objects.length)
    refine .trans ?_ hheld
    rw [List.append_assoc, List.append_assoc, List.append_assoc]
    exact ((List.perm_append_comm).append_left _).append_left _
  wireName_eq := by
    intro other hother
    rcases List.mem_append.mp hother with hother | hother
    · exact hassembled.wireName_eq other hother
    · rw [List.mem_singleton.mp hother]
      exact hwire
  asks_iff := by
    intro other hother
    rcases List.mem_append.mp hother with hother | hother
    · exact hassembled.asks_iff other hother
    · rw [List.mem_singleton.mp hother]
      exact hasks

/-! ## Actions and what they take and leave -/

namespace Outlining

variable {α β : Type}

/-- An action reads some bodies.  It takes the objects in `taken` from those that are not held, and
leaves others to be held, by its value, of which `R` holds. -/
def Settles (taken : List (Role × Nat)) (action : Outlining α) (R : α → Prop)
    (leaves : α → List (Role × Nat)) (bodies : List Body) : Prop :=
  ∀ objects left done value later, Assembled objects (taken ++ left) done →
    action objects = .ok (value, later) →
      R value ∧ Assembled later (leaves value ++ left) (done ++ bodies)

variable {taken taken' kept : List (Role × Nat)} {R : α → Prop} {S : β → Prop}
  {leaves : α → List (Role × Nat)} {rests : β → List (Role × Nat)}
  {bodies more : List Body}

theorem settles_pure {value : α} (hvalue : R value) :
    Settles (leaves value) (pure value) R leaves [] := by
  intro objects left done result later hassembled hrun
  cases hrun
  rw [List.append_nil]
  exact ⟨hvalue, hassembled⟩

theorem settles_throw {fault : SchemaError} :
    Settles taken (throw fault : Outlining α) R leaves bodies := by
  intro objects left done result later hassembled hrun
  cases hrun

theorem settles_throw_bind {fault : SchemaError} {next : α → Outlining β} :
    Settles taken (throw fault >>= next) S rests bodies := by
  intro objects left done result later hassembled hrun
  cases hrun

theorem settles_check {check : Except SchemaError α}
    (hcheck : ∀ value, check = .ok value → R value ∧ leaves value = []) :
    Settles [] (liftM check : Outlining α) R leaves [] := by
  intro objects left done result later hassembled hrun
  cases check with
  | error fault => cases hrun
  | ok value =>
      cases hrun
      rcases hcheck _ rfl with ⟨hvalue, hleaves⟩
      rw [List.append_nil, hleaves]
      exact ⟨hvalue, hassembled⟩

theorem settles_check_bind {check : Except SchemaError α} {next : α → Outlining β}
    (hnext : ∀ value, check = .ok value → Settles taken (next value) S rests bodies) :
    Settles taken (liftM check >>= next) S rests bodies := by
  intro objects left done result later hassembled hrun
  cases check with
  | error fault => cases hrun
  | ok value => exact hnext value rfl objects left done result later hassembled hrun

theorem settles_checkName_bind {space : String} {what : Subject} {key name : String}
    {next : String → Outlining β} (hnext : Settles taken (next name) S rests bodies) :
    Settles taken (liftM (checkName space what key name) >>= next) S rests bodies := by
  apply settles_check_bind
  intro value hvalue
  rw [(checkName_eq_ok_iff.mp hvalue).2]
  exact hnext

theorem Settles.bind {action : Outlining α} {next : α → Outlining β}
    (hfirst : Settles taken action R leaves bodies)
    (hsecond : ∀ value, R value → Settles (leaves value) (next value) S rests more) :
    Settles taken (action >>= next) S rests (bodies ++ more) := by
  intro objects left done result later hassembled hrun
  rcases Outcome.bind_eq_ok hrun with ⟨⟨value, middle⟩, hvalue, hnext⟩
  rcases hfirst objects left done value middle hassembled hvalue with ⟨hresult, hmiddle⟩
  have hlater := hsecond value hresult middle left _ result later hmiddle hnext
  rw [List.append_assoc] at hlater
  exact hlater

theorem Settles.returns {action : Outlining α} {f : α → β}
    (haction : Settles taken action R leaves bodies)
    (hvalue : ∀ value, R value → S (f value) ∧ rests (f value) = leaves value) :
    Settles taken (action >>= fun value => pure (f value)) S rests bodies := by
  rw [← List.append_nil bodies]
  refine haction.bind fun value hresult => ?_
  rcases hvalue value hresult with ⟨hresult', hrests⟩
  rw [← hrests]
  exact settles_pure hresult'

/-- Objects that an action does not take are still to be held after it. -/
theorem Settles.frame {action : Outlining α} (haction : Settles taken action R leaves bodies) :
    Settles (taken ++ kept) action R (fun value => leaves value ++ kept) bodies := by
  intro objects left done value later hassembled hrun
  rw [List.append_assoc] at hassembled ⊢
  exact haction objects _ done value later hassembled hrun

theorem Settles.congr {action : Outlining α} {R' : α → Prop}
    (haction : Settles taken action R leaves bodies) (htaken : taken'.Perm taken)
    (hvalue : ∀ value, R value → R' value) : Settles taken' action R' leaves bodies := by
  intro objects left done value later hassembled hrun
  have htaken' := hassembled.perm (htaken.append_right left)
  rcases haction objects left done value later htaken' hrun with ⟨hresult, hlater⟩
  exact ⟨hvalue value hresult, hlater⟩

theorem settles_addObject (tag name : String) (role : Role) (parent : Option Link)
    (wireName : Option String) (response : Option Nat) {members : List (String × Json)}
    {fields : List Declaration.Field}
    (hfields : List.Forall₂ Declaration.Field.Reads members fields)
    (hwire : wireName = if role.isPayload then some name else none)
    (hasks : response.isSome = true ↔ role = .request) :
    Settles (holdsOfFields fields ++ holdsOfResponse response)
      (addObject ⟨tag, name, role, parent, fields, wireName, response⟩) (fun _ => True) (heldAt role)
      [⟨tag, members⟩] := by
  intro objects left done index later hassembled hrun
  cases hrun
  exact ⟨trivial, hassembled.concat ⟨rfl, hfields⟩ hwire hasks⟩

end Outlining

open Outlining

/-! ## Bodies -/

mutual

theorem settles_readShape (space owner key : String) (inArray : Bool) (value : Json) :
    Settles [] (readShape space owner key inArray value) (fun _ => True) Shape.holds
      (embeddedBodies owner key inArray value) := by
  match value with
  | .string token =>
      rw [readShape]
      apply settles_check
      intro shape hshape
      rw [Shape.holds, embedded?_of_tokenShape hshape]
      exact ⟨trivial, rfl⟩
  | .array [item] =>
      rw [readShape, embeddedBodies]
      exact (settles_readShape space owner key true item).returns fun _ _ => ⟨trivial, rfl⟩
  | .object members =>
      rw [readShape, embeddedBodies]
      apply settles_checkName_bind
      refine (settles_readFields space _ [] members).bind ?_
      rintro fields ⟨more, rfl, hmore⟩
      have hobject := settles_addObject (embeddedTag owner key inArray)
        (identifier .type (embeddedTag owner key inArray)) .embedded none none none hmore rfl
        (by simp)
      rw [holdsOfResponse, Option.toList_none, List.map_nil, List.append_nil] at hobject
      exact hobject.returns fun _ _ => ⟨trivial, rfl⟩
  | .null => exact settles_throw
  | .bool _ => exact settles_throw
  | .number _ => exact settles_throw
  | .array [] => exact settles_throw
  | .array (_ :: _ :: _) => exact settles_throw

theorem settles_readFields (space owner : String) (sofar : List Declaration.Field)
    (members : List (String × Json)) :
    Settles (holdsOfFields sofar) (readFields space owner sofar members)
      (fun fields => ∃ more, fields = sofar ++ more ∧
        List.Forall₂ Declaration.Field.Reads members more)
      holdsOfFields (innerBodies owner members) := by
  match members with
  | [] =>
      rw [readFields, innerBodies]
      exact settles_pure ⟨[], (List.append_nil _).symm, .nil⟩
  | (key, value) :: rest =>
      rw [readFields, innerBodies]
      apply settles_checkName_bind
      dsimp only
      split
      · exact settles_throw_bind
      · -- What the fields before hold is kept aside until the owner is added.
        refine (settles_readShape space owner key false value).frame.bind fun shape _ => ?_
        refine (settles_readFields space owner _ rest).congr ?_ ?_
        · rw [holdsOfFields, List.flatMap_append, List.flatMap_singleton]
          exact List.perm_append_comm
        · rintro fields ⟨more, rfl, hmore⟩
          exact ⟨_ :: more, List.append_assoc .., .cons ⟨rfl, rfl, rfl⟩ hmore⟩

end

/-! ## Entries -/

theorem settles_declareObject (space tag name : String) (role : Role) (parent : Option Link)
    (wireName : Option String) (response : Option Nat) (body : List (String × Json))
    (hwire : wireName = if role.isPayload then some name else none)
    (hasks : response.isSome = true ↔ role = .request) :
    Settles (holdsOfResponse response)
      (declareObject space tag name role parent wireName response body) (fun _ => True) (heldAt role)
      (objectBodies tag body) := by
  unfold declareObject
  refine (settles_readFields space tag [] body).frame.bind ?_
  rintro fields ⟨more, rfl, hmore⟩
  exact settles_addObject tag name role parent wireName response hmore hwire hasks

theorem settles_declareTopLevel (space key : String) (body : List (String × Json)) :
    Settles [] (declareTopLevel space key body) (fun _ => True) (fun _ => [])
      (objectBodies (splitInheritance key).1 body) := by
  unfold declareTopLevel
  generalize splitInheritance key = parts
  rcases parts with ⟨tag, parent⟩
  apply settles_checkName_bind
  have hobject := settles_declareObject space tag (identifier .type tag) .object
    (parent.map (linkOf space)) none none body rfl (by simp)
  exact hobject.returns fun _ _ => ⟨trivial, rfl⟩

theorem settles_declareMessage (space key : String) (body : List (String × Json)) :
    Settles [] (declareMessage space key body) (fun _ => True) (fun _ => [])
      (objectBodies (key ++ "_message") body) := by
  have hname : identifier .type (key ++ "_message") = identifier .type key ++ "Message" :=
    Naming.identifier_marked key (by decide) (by decide)
  unfold declareMessage
  apply settles_checkName_bind
  refine settles_check_bind fun _ _ => ?_
  apply settles_checkName_bind
  have hobject := settles_declareObject space (key ++ "_message")
    (identifier .type (key ++ "_message")) .message none (some (identifier .type key ++ "Message"))
    none body (by rw [hname]; rfl) (by simp)
  exact hobject.returns fun _ _ => ⟨trivial, rfl⟩

theorem settles_declareRequest (space key : String) (request response : List (String × Json)) :
    Settles [] (declareRequest space key request response) (fun _ => True) (fun _ => [])
      (objectBodies (key ++ "_response") response ++
        objectBodies (key ++ "_request") request) := by
  have hrequest : identifier .type (key ++ "_request") = identifier .type key ++ "Request" :=
    Naming.identifier_marked key (by decide) (by decide)
  have hresponse : identifier .type (key ++ "_response") = identifier .type key ++ "Response" :=
    Naming.identifier_marked key (by decide) (by decide)
  unfold declareRequest
  apply settles_checkName_bind
  apply settles_checkName_bind
  refine settles_check_bind fun _ _ => ?_
  refine settles_check_bind fun _ _ => ?_
  apply settles_checkName_bind
  have hanswer := settles_declareObject space (key ++ "_response")
    (identifier .type (key ++ "_response")) .response none
    (some (identifier .type key ++ "Response")) none response (by rw [hresponse]; rfl) (by simp)
  -- The response is left over by the first object, and taken by the second.
  refine hanswer.bind fun index _ => ?_
  apply settles_checkName_bind
  have hobject := settles_declareObject space (key ++ "_request")
    (identifier .type (key ++ "_request")) .request none (some (identifier .type key ++ "Request"))
    (some index) request (by rw [hrequest]; rfl) (by simp)
  exact hobject.returns fun _ _ => ⟨trivial, rfl⟩

/-! ## Documents -/

theorem assembled_readEntry {outline read : Outline} {key : String} {value : Json}
    {bodies : List Body} (hassembled : Assembled outline.objects [] bodies)
    (hread : readEntry outline key value = .ok read) :
    Assembled read.objects [] (bodies ++ entryBodies key value) := by
  rcases readEntry_cases hread with
    ⟨-, ⟨action, objects, hdeclares, hrun, rfl⟩ | ⟨rows, declared, -, rfl, -, rfl⟩⟩
  · have hsettles : Settles [] action (fun _ => True) (fun _ => [])
        (entryBodies key value) := by
      cases hdeclares with
      | object body => exact settles_declareTopLevel _ _ _
      | message body => exact settles_declareMessage _ _ _
      | request request response => exact settles_declareRequest _ _ _ _
    exact (hsettles _ [] bodies () objects hassembled hrun).2
  · have hnone : entryBodies key (.array (rows.map .string)) = [] := by
      rcases rows with - | ⟨first, - | ⟨second, - | ⟨third, rest⟩⟩⟩ <;> rfl
    rw [hnone, List.append_nil]
    exact hassembled

theorem assembled_readEntries {outline read : Outline} {entries : List (String × Json)}
    {bodies : List Body} (hassembled : Assembled outline.objects [] bodies)
    (hread : readEntries outline entries = .ok read) :
    Assembled read.objects []
      (bodies ++ entries.flatMap fun entry => entryBodies entry.1 entry.2) := by
  induction entries generalizing outline bodies with
  | nil =>
      cases hread
      rw [List.flatMap_nil, List.append_nil]
      exact hassembled
  | cons entry rest ih =>
      rcases entry with ⟨key, value⟩
      rw [readEntries] at hread
      rcases Outcome.bind_eq_ok hread with ⟨middle, hmiddle, hread⟩
      have hrest := ih (assembled_readEntry hassembled hmiddle) hread
      rw [List.append_assoc] at hrest
      exact hrest

/-- The objects of an outline are those of the bodies of its document, and each of them that is to be
held is held once. -/
theorem assembled_ofDocument {document : Document} {outline : Outline}
    (hread : ofDocument document = .ok outline) : Assembled outline.objects [] document.bodies := by
  rcases ofDocument_eq_ok_iff.mp hread with ⟨entries, hroot, hentries, -⟩
  rw [Document.bodies, hroot]
  exact assembled_readEntries assembled_nil hentries

theorem map_tag_readEntry {outline read : Outline} {key : String} {value : Json}
    (hread : readEntry outline key value = .ok read) :
    read.enums.map (·.tag) = outline.enums.map (·.tag) ++ entryEnums key value := by
  rcases readEntry_cases hread with
    ⟨-, ⟨action, objects, hdeclares, -, rfl⟩ | ⟨rows, declared, hsome, rfl, hdeclared, rfl⟩⟩
  · have hnone : entryEnums key value = [] := by cases hdeclares <;> rfl
    rw [hnone, List.append_nil]
  · rcases List.exists_cons_of_ne_nil hsome with ⟨first, rest, rfl⟩
    rcases readEnum_eq_ok_iff.mp hdeclared with ⟨-, -, values, -, rfl⟩
    rw [List.map_append]
    rfl

theorem map_tag_readEntries {outline read : Outline} {entries : List (String × Json)}
    (hread : readEntries outline entries = .ok read) :
    read.enums.map (·.tag) = outline.enums.map (·.tag) ++
      entries.flatMap fun entry => entryEnums entry.1 entry.2 := by
  induction entries generalizing outline with
  | nil =>
      cases hread
      rw [List.flatMap_nil, List.append_nil]
  | cons entry rest ih =>
      rcases entry with ⟨key, value⟩
      rw [readEntries] at hread
      rcases Outcome.bind_eq_ok hread with ⟨middle, hmiddle, hread⟩
      rw [ih hread, map_tag_readEntry hmiddle, List.append_assoc]
      rfl

theorem map_tag_ofDocument {document : Document} {outline : Outline}
    (hread : ofDocument document = .ok outline) :
    outline.enums.map (·.tag) = document.enumKeys := by
  rcases ofDocument_eq_ok_iff.mp hread with ⟨entries, hroot, hentries, -⟩
  rw [Document.enumKeys, hroot]
  exact map_tag_readEntries hentries

theorem exists_assembled {documents : List Document} {outlines : List Outline}
    (hread : documents.mapM ofDocument = .ok outlines) :
    ∀ outline ∈ outlines, ∃ bodies, Assembled outline.objects [] bodies := by
  intro outline houtline
  rcases Outcome.exists_mem_of_mapM hread houtline with ⟨document, -, hdocument⟩
  exact ⟨document.bodies, assembled_ofDocument hdocument⟩

end Outline
end WireSchema
