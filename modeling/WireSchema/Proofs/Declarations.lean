import WireSchema.Proofs.Grammar
import WireSchema.Proofs.Outcomes

/-!
# Declarations of a document

In the outline of a document the payloads are the objects with a name for their wire id, only
top-level objects have a parent, and whatever a field embeds is an embedded object of the document.
The name of an object is made of its tag, no two of its own fields have the same name, and a request
leads to the response that is declared with it.  Every action that adds objects to an outline keeps
this so.
-/

namespace WireSchema
namespace Declaration

open Grammar (Usable)

/-- The place of the embedded object that a shape refers to, through arrays of any depth. -/
def Shape.embedded? : Shape → Option Nat
  | .embedded index => some index
  | .array element => element.embedded?
  | _ => none

/-- Whatever a shape embeds is among the objects. -/
def Shape.Refers (objects : List Object) (shape : Shape) : Prop :=
  ∀ index, shape.embedded? = some index →
    ∃ object, objects[index]? = some object ∧ object.role = .embedded

/-- What answers a request is among the objects, and tagged for it. -/
def Answers (objects : List Object) (tag : String) (response : Option Nat) : Prop :=
  ∀ index, response = some index →
    ∃ key answer, tag = key ++ "_request" ∧ objects[index]? = some answer ∧
      answer.tag = key ++ "_response"

/-- The name of a field is made of its key. -/
def Field.IsNamed (field : Field) : Prop :=
  Usable field.name ∧ field.name = Naming.identifier .field field.key

/-- What holds of every object of a document. -/
structure Object.Sound (objects : List Object) (object : Object) : Prop where
  isPayload_eq : object.role.isPayload = object.wireName.isSome
  role_of_parent : object.parent.isSome = true → object.role = .object
  refers : ∀ field ∈ object.fields, field.shape.Refers objects
  name_eq : object.name = Naming.identifier .type object.tag
  usable : Usable object.name
  fields_named : ∀ field ∈ object.fields, field.IsNamed
  fields_nodup : (object.fields.map (·.name)).Nodup
  answered : Answers objects object.tag object.response

theorem Shape.Refers.mono {objects later : List Object} {shape : Shape}
    (hrefers : shape.Refers objects) (hkept : objects <+: later) : shape.Refers later := by
  intro index hindex
  obtain ⟨object, hobject, hrole⟩ := hrefers index hindex
  obtain ⟨added, rfl⟩ := hkept
  refine ⟨object, ?_, hrole⟩
  rw [List.getElem?_append_left (List.getElem?_eq_some_iff.mp hobject).1]
  exact hobject

theorem Answers.mono {objects later : List Object} {tag : String} {response : Option Nat}
    (hanswers : Answers objects tag response) (hkept : objects <+: later) :
    Answers later tag response := by
  intro index hindex
  rcases hanswers index hindex with ⟨key, answer, htag, hanswer, hanswerTag⟩
  rcases hkept with ⟨added, rfl⟩
  refine ⟨key, answer, htag, ?_, hanswerTag⟩
  rw [List.getElem?_append_left (List.getElem?_eq_some_iff.mp hanswer).1]
  exact hanswer

theorem answers_none (objects : List Object) (tag : String) : Answers objects tag none := by
  intro index hindex
  cases hindex

theorem Object.Sound.mono {objects later : List Object} {object : Object}
    (hsound : object.Sound objects) (hkept : objects <+: later) : object.Sound later where
  isPayload_eq := hsound.isPayload_eq
  role_of_parent := hsound.role_of_parent
  refers field hfield := (hsound.refers field hfield).mono hkept
  name_eq := hsound.name_eq
  usable := hsound.usable
  fields_named := hsound.fields_named
  fields_nodup := hsound.fields_nodup
  answered := hsound.answered.mono hkept

end Declaration

namespace Outline

open Declaration (Answers Object Shape answers_none)
open Grammar (Unreserved Usable)
open Naming (identifier)

/-- All objects of a document are sound. -/
def Sound (objects : List Object) : Prop := ∀ object ∈ objects, object.Sound objects

/-! ## Actions that add objects -/

namespace Outlining

variable {α β : Type}

/-- From sound objects that satisfy `P`, an action leads to sound objects, of which those are the
first, and `R` holds of its value. -/
def Keeps (P : List Object → Prop) (action : Outlining α) (R : α → List Object → Prop) :
    Prop :=
  ∀ objects value later, Sound objects → P objects → action objects = .ok (value, later) →
    Sound later ∧ objects <+: later ∧ R value later

variable {P F : List Object → Prop} {Q : α → List Object → Prop}
  {R : β → List Object → Prop}

theorem keeps_pure {value : β} (hvalue : ∀ objects, P objects → R value objects) :
    Keeps P (pure value) R := by
  intro objects result later hsound hpre hrun
  cases hrun
  exact ⟨hsound, List.prefix_rfl, hvalue objects hpre⟩

theorem keeps_throw {fault : SchemaError} : Keeps P (throw fault : Outlining β) R := by
  intro objects result later hsound hpre hrun
  cases hrun

theorem keeps_throw_bind {fault : SchemaError} {next : α → Outlining β} :
    Keeps P (throw fault >>= next) R := by
  intro objects result later hsound hpre hrun
  cases hrun

theorem keeps_check {check : Except SchemaError β}
    (hcheck : ∀ value objects, check = .ok value → P objects → R value objects) :
    Keeps P (liftM check : Outlining β) R := by
  intro objects result later hsound hpre hrun
  cases check with
  | error fault => cases hrun
  | ok value =>
      cases hrun
      exact ⟨hsound, List.prefix_rfl, hcheck _ _ rfl hpre⟩

theorem Keeps.bind {action : Outlining α} {next : α → Outlining β} (hfirst : Keeps P action Q)
    (hsecond : ∀ value, Keeps (Q value) (next value) R) :
    Keeps P (action >>= next) R := by
  intro objects result later hsound hpre hrun
  obtain ⟨⟨value, middle⟩, hvalue, hnext⟩ := Outcome.bind_eq_ok hrun
  obtain ⟨hsound', hkept, hmid⟩ := hfirst objects value middle hsound hpre hvalue
  obtain ⟨hsound'', hkept', hpost⟩ := hsecond value middle result later hsound' hmid hnext
  exact ⟨hsound'', hkept.trans hkept', hpost⟩

/-- What stays true when objects are added holds after an action if it held before. -/
theorem Keeps.frame {action : Outlining α} (haction : Keeps P action Q)
    (hmono : ∀ objects later, objects <+: later → F objects → F later) :
    Keeps (fun objects => P objects ∧ F objects) action
      fun value later => Q value later ∧ F later := by
  intro objects value later hsound hpre hrun
  obtain ⟨hsound', hkept, hmid⟩ := haction objects value later hsound hpre.1 hrun
  exact ⟨hsound', hkept, hmid, hmono objects later hkept hpre.2⟩

theorem Keeps.mono {action : Outlining α} {Less : List Object → Prop}
    {More : α → List Object → Prop} (haction : Keeps P action Q)
    (hless : ∀ objects, Less objects → P objects)
    (hmore : ∀ value objects, Q value objects → More value objects) :
    Keeps Less action More := by
  intro objects value later hsound hpre hrun
  obtain ⟨hsound', hkept, hmid⟩ := haction objects value later hsound (hless objects hpre) hrun
  exact ⟨hsound', hkept, hmore value later hmid⟩

/-- What is known beforehand may be used. -/
theorem keeps_of_fact {fact : Prop} {action : Outlining α}
    (haction : fact → Keeps P action Q) :
    Keeps (fun objects => fact ∧ P objects) action Q := by
  intro objects value later hsound hpre hrun
  exact haction hpre.1 objects value later hsound hpre.2 hrun

theorem keeps_addObject (object : Object) :
    Keeps (fun objects => object.Sound objects) (addObject object)
      fun index later => later[index]? = some object := by
  intro objects index later hsound hobject hrun
  cases hrun
  refine ⟨?_, List.prefix_append objects [object], ?_⟩
  · intro other hother
    rcases List.mem_append.mp hother with hother | hother
    · exact (hsound other hother).mono (List.prefix_append objects [object])
    · rw [List.mem_singleton.mp hother]
      exact hobject.mono (List.prefix_append objects [object])
  · exact List.getElem?_concat_length

end Outlining

open Outlining

/-! ## Bodies -/

theorem checkName_eq_ok_iff {space : String} {what : Subject} {key name checked : String} :
    checkName space what key name = .ok checked ↔ Usable name ∧ checked = name := by
  have hreserved : Naming.isReserved name = true ↔ ¬ Unreserved name := by
    simp [Naming.isReserved, Unreserved]
  unfold checkName
  constructor
  · intro hcheck
    split at hcheck
    · cases hcheck
    next hsome =>
      split at hcheck
      · cases hcheck
      next hfree =>
        cases hcheck
        exact ⟨⟨by simpa using hsome, by rwa [hreserved, not_not] at hfree⟩, rfl⟩
  · rintro ⟨⟨hsome, hfree⟩, rfl⟩
    rw [if_neg (by simpa using hsome), if_neg (by rwa [hreserved, not_not])]

/-- The type name of a declaration is made of its tag. -/
theorem keeps_typeName {P : List Object → Prop} (space : String) (what : Subject)
    (key tag : String) :
    Keeps P (liftM (typeName space what key tag) : Outlining String)
      fun name objects => (Usable name ∧ name = Naming.identifier .type tag) ∧ P objects := by
  refine keeps_check fun name objects hname hpre => ?_
  rcases checkName_eq_ok_iff.mp hname with ⟨husable, rfl⟩
  exact ⟨⟨husable, rfl⟩, hpre⟩

theorem embedded?_of_tokenShape {space owner key token : String} {shape : Shape}
    (hshape : tokenShape space owner key token = .ok shape) : shape.embedded? = none := by
  unfold tokenShape at hshape
  extract_lets invalid at hshape
  split at hshape
  · cases hshape
    rfl
  · split at hshape
    · cases hshape
      rfl
    · split at hshape
      · extract_lets length at hshape
        split at hshape
        · cases hshape
          rfl
        · cases hshape
      · split at hshape
        · extract_lets target at hshape
          split at hshape
          · cases hshape
          · cases hshape
            rfl
        · cases hshape

mutual

theorem keeps_readShape (space owner key : String) (inArray : Bool) (value : Json) :
    Keeps (fun _ => True) (readShape space owner key inArray value)
      fun shape later => shape.Refers later := by
  match value with
  | .string token =>
      rw [readShape]
      refine keeps_check fun shape objects hshape _ index hindex => ?_
      rw [embedded?_of_tokenShape hshape] at hindex
      cases hindex
  | .array [item] =>
      rw [readShape]
      exact (keeps_readShape space owner key true item).bind fun element =>
        keeps_pure fun objects hrefers => hrefers
  | .object members =>
      rw [readShape]
      refine (keeps_typeName _ _ _ _).bind fun name => keeps_of_fact fun hname => ?_
      have hfields := keeps_readFields space (embeddedTag owner key inArray) [] members
      refine (hfields.mono (by simp) fun _ _ hboth => hboth).bind fun fields => ?_
      have hobject := keeps_addObject ⟨embeddedTag owner key inArray, name, .embedded, none, fields,
        none, none⟩
      refine (hobject.mono ?_ fun _ _ hfound => hfound).bind fun index => ?_
      · intro objects hboth
        exact ⟨rfl, by simp, hboth.2, hname.2, hname.1, hboth.1.2, hboth.1.1,
          answers_none objects _⟩
      · refine keeps_pure fun objects hfound place hplace => ?_
        cases hplace
        exact ⟨_, hfound, rfl⟩
  | .null => exact keeps_throw
  | .bool _ => exact keeps_throw
  | .number _ => exact keeps_throw
  | .array [] => exact keeps_throw
  | .array (_ :: _ :: _) => exact keeps_throw

theorem keeps_readFields (space owner : String) (sofar : List Declaration.Field)
    (members : List (String × Json)) :
    Keeps
      (fun objects => ((sofar.map (·.name)).Nodup ∧ ∀ field ∈ sofar, field.IsNamed) ∧
        ∀ field ∈ sofar, field.shape.Refers objects)
      (readFields space owner sofar members)
      fun fields later => ((fields.map (·.name)).Nodup ∧ ∀ field ∈ fields, field.IsNamed) ∧
        ∀ field ∈ fields, field.shape.Refers later := by
  match members with
  | [] =>
      rw [readFields]
      exact keeps_pure fun objects hboth => hboth
  | (key, value) :: rest =>
      rw [readFields]
      refine keeps_of_fact fun ⟨hnodup, hnamed⟩ => ?_
      refine (keeps_check
        (R := fun name objects => (Usable name ∧ name = identifier .field key) ∧
          ∀ field ∈ sofar, field.shape.Refers objects)
        fun name objects hname hrefers => ?_).bind fun name => keeps_of_fact fun hname => ?_
      · rcases checkName_eq_ok_iff.mp hname with ⟨husable, rfl⟩
        exact ⟨⟨husable, rfl⟩, hrefers⟩
      dsimp only
      split
      · exact keeps_throw_bind
      next hfresh =>
        have hnew : name ∉ sofar.map (·.name) := by
          simpa using hfresh
        have hshape := (keeps_readShape space owner key false value).frame
          (F := fun objects => ∀ field ∈ sofar, field.shape.Refers objects)
          fun _ _ hkept hrefers field hfield => (hrefers field hfield).mono hkept
        refine (hshape.mono (fun _ hrefers => ⟨trivial, hrefers⟩) fun _ _ hboth => hboth).bind
          fun shape => ?_
        refine (keeps_readFields space owner _ rest).mono ?_ fun _ _ hboth => hboth
        rintro objects ⟨hshape, hold⟩
        refine ⟨⟨?_, ?_⟩, ?_⟩
        · rw [List.map_append]
          exact List.nodup_append.mpr ⟨hnodup, by simp, by simpa using hnew⟩
        · intro field hfield
          rcases List.mem_append.mp hfield with hfield | hfield
          · exact hnamed field hfield
          · rw [List.mem_singleton.mp hfield]
            exact hname
        · intro field hfield
          rcases List.mem_append.mp hfield with hfield | hfield
          · exact hold field hfield
          · rw [List.mem_singleton.mp hfield]
            exact hshape

end

/-! ## Entries -/

theorem keeps_declareObject (space tag name : String) (role : Role) (parent : Option Link)
    (wireName : Option String) (response : Option Nat) (body : List (String × Json))
    (hrole : role.isPayload = wireName.isSome) (hparent : parent.isSome = true → role = .object)
    (hname : Usable name ∧ name = Naming.identifier .type tag) :
    Keeps (fun objects => Answers objects tag response)
      (declareObject space tag name role parent wireName response body)
      fun index later => ∃ object, later[index]? = some object ∧ object.tag = tag := by
  unfold declareObject
  have hfields := (keeps_readFields space tag [] body).frame
    (F := fun objects => Answers objects tag response)
    fun _ _ hkept hanswers => hanswers.mono hkept
  refine (hfields.mono ?_ fun _ _ hboth => hboth).bind fun fields => ?_
  · exact fun objects hanswers => ⟨by simp, hanswers⟩
  have hobject := keeps_addObject ⟨tag, name, role, parent, fields, wireName, response⟩
  refine hobject.mono ?_ fun _ _ hfound => ⟨_, hfound, rfl⟩
  rintro objects ⟨⟨⟨hnodup, hnamed⟩, hrefers⟩, hanswers⟩
  exact ⟨hrole, hparent, hrefers, hname.2, hname.1, hnamed, hnodup, hanswers⟩

theorem keeps_any {α : Type} {P : List Object → Prop} (check : Except SchemaError α) :
    Keeps P (liftM check : Outlining α) fun _ => P :=
  keeps_check fun _ _ _ hpre => hpre

theorem keeps_declareTopLevel (space key : String) (body : List (String × Json)) :
    Keeps (fun _ => True) (declareTopLevel space key body) fun _ _ => True := by
  unfold declareTopLevel
  split
  next tag parent hsplit =>
    refine (keeps_typeName _ _ _ _).bind fun name => keeps_of_fact fun hname => ?_
    have hobject := keeps_declareObject space tag name .object (parent.map (linkOf space)) none none
      body rfl (fun _ => rfl) hname
    refine (hobject.mono (fun objects _ => answers_none objects tag) fun _ _ _ => trivial).bind
      (Q := fun _ _ => True) fun _ => ?_
    exact keeps_pure fun _ _ => trivial

theorem keeps_declareMessage (space key : String) (body : List (String × Json)) :
    Keeps (fun _ => True) (declareMessage space key body) fun _ _ => True := by
  unfold declareMessage
  refine (keeps_any _).bind fun wireName => ?_
  refine (keeps_any _).bind fun _ => ?_
  refine (keeps_typeName _ _ _ _).bind fun name => keeps_of_fact fun hname => ?_
  have hobject := keeps_declareObject space _ name .message none (some wireName) none body rfl
    (by simp) hname
  refine (hobject.mono (fun objects _ => answers_none objects _) fun _ _ _ => trivial).bind
    (Q := fun _ _ => True) fun _ => ?_
  exact keeps_pure fun _ _ => trivial

theorem keeps_declareRequest (space key : String) (request response : List (String × Json)) :
    Keeps (fun _ => True) (declareRequest space key request response) fun _ _ => True := by
  unfold declareRequest
  refine (keeps_any _).bind fun requestWire => ?_
  refine (keeps_any _).bind fun responseWire => ?_
  refine (keeps_any _).bind fun _ => ?_
  refine (keeps_any _).bind fun _ => ?_
  refine (keeps_typeName _ _ _ _).bind fun responseName => keeps_of_fact fun hresponse => ?_
  have hanswer := keeps_declareObject space _ responseName .response none (some responseWire) none
    response rfl (by simp) hresponse
  refine (hanswer.mono (fun objects _ => answers_none objects _) fun _ _ hfound => hfound).bind
    fun index => ?_
  refine (keeps_typeName _ _ _ _).bind fun requestName => keeps_of_fact fun hrequest => ?_
  have hobject := keeps_declareObject space _ requestName .request none (some requestWire)
    (some index) request rfl (by simp) hrequest
  refine (hobject.mono ?_ fun _ _ _ => trivial).bind (Q := fun _ _ => True) fun _ => ?_
  · rintro objects ⟨answer, hfound, htag⟩ place hplace
    cases hplace
    exact ⟨key, answer, rfl, hfound, htag⟩
  · exact keeps_pure fun _ _ => trivial

/-! ## Documents taken apart -/

/-- What an entry that is not an enum does, by the form of its value. -/
inductive Declares (space key : String) : Json → Outlining Unit → Prop
  | object (body : List (String × Json)) :
    Declares space key (.object body) (declareTopLevel space key body)
  | message (body : List (String × Json)) :
    Declares space key (.array [.object body]) (declareMessage space key body)
  | request (request response : List (String × Json)) :
    Declares space key (.array [.object request, .object response])
      (declareRequest space key request response)

theorem strings?_eq_some_iff {items : List Json} {rows : List String} :
    strings? items = some rows ↔ items = rows.map .string := by
  have hstring : ∀ item row, Json.string? item = some row ↔ item = .string row := by
    intro item row
    cases item <;> simp [Json.string?]
  unfold strings?
  induction items generalizing rows with
  | nil => cases rows <;> simp
  | cons item rest ih =>
      simp only [List.mapM_cons, Option.bind_eq_bind, Option.bind_eq_some_iff, Option.pure_def,
        Option.some.injEq, hstring, ih]
      constructor
      · rintro ⟨row, rfl, more, rfl, rfl⟩
        rfl
      · cases rows with
        | nil => nofun
        | cons row more =>
            rintro ⟨⟩
            exact ⟨row, rfl, more, rfl, rfl⟩

section Entries

variable {outline read : Outline} {key : String} {value : Json}

/-- An entry that is read has a name and adds objects or an enum. -/
theorem readEntry_cases (hread : readEntry outline key value = .ok read) :
    identifier .field key ≠ "" ∧
      ((∃ action objects, Declares outline.space key value action ∧
          action outline.objects = .ok ((), objects) ∧ read = { outline with objects }) ∨
        ∃ rows declared, rows ≠ [] ∧ value = .array (rows.map .string) ∧
          readEnum outline.space key rows = .ok declared ∧
          read = { outline with enums := outline.enums ++ [declared] }) := by
  have hdeclare : ∀ action : Outlining Unit, Declares outline.space key value action →
      (action.run outline.objects).map (fun taken => { outline with objects := taken.2 }) =
        .ok read →
      ∃ action objects, Declares outline.space key value action ∧
        action outline.objects = .ok ((), objects) ∧ read = { outline with objects } := by
    intro action haction hrun
    rcases Outcome.map_eq_ok hrun with ⟨⟨_, objects⟩, hobjects, rfl⟩
    exact ⟨action, objects, haction, hobjects, rfl⟩
  unfold readEntry at hread
  dsimp only at hread
  split at hread
  · cases hread
  next hsome =>
    refine ⟨by simpa using hsome, ?_⟩
    split at hread
    next body => exact .inl (hdeclare _ (.object body) hread)
    next body => exact .inl (hdeclare _ (.message body) hread)
    next request response => exact .inl (hdeclare _ (.request request response) hread)
    next first rest _ _ =>
      split at hread
      next rows hrows =>
        rcases Outcome.map_eq_ok hread with ⟨declared, hdeclared, rfl⟩
        rw [strings?_eq_some_iff] at hrows
        have hne : rows ≠ [] := by
          rintro rfl
          cases hrows
        exact .inr ⟨rows, declared, hne, by rw [hrows], hdeclared, rfl⟩
      · cases hread
    · cases hread

theorem readEntry_of_declares (hname : identifier .field key ≠ "") {action : Outlining Unit}
    {objects : List Object} (hdeclares : Declares outline.space key value action)
    (hrun : action outline.objects = .ok ((), objects)) :
    readEntry outline key value = .ok { outline with objects } := by
  unfold readEntry
  dsimp only
  rw [if_neg (by simpa using hname)]
  cases hdeclares <;> (simp only [StateT.run, hrun]; rfl)

theorem readEntry_of_readEnum (hname : identifier .field key ≠ "") {rows : List String}
    (hne : rows ≠ []) {declared : Declaration.Enum}
    (hread : readEnum outline.space key rows = .ok declared) :
    readEntry outline key (.array (rows.map .string)) =
      .ok { outline with enums := outline.enums ++ [declared] } := by
  have hstrings := strings?_eq_some_iff.mpr (Eq.refl (rows.map Json.string))
  unfold readEntry
  dsimp only
  rw [if_neg (by simpa using hname)]
  -- messages and requests are arrays of one and of two items
  rcases rows with - | ⟨first, - | ⟨second, rest⟩⟩
  · exact absurd rfl hne
  all_goals
    simp only [List.map_cons, List.map_nil] at hstrings ⊢
    rw [hstrings]
    simp only [hread]
    rfl

/-- What every entry keeps, all of them keep. -/
theorem readEntries_keep {P : Outline → Prop}
    (hstep : ∀ outline read key value, P outline → readEntry outline key value = .ok read → P read)
    {entries : List (String × Json)} (hfirst : P outline)
    (hread : readEntries outline entries = .ok read) : P read := by
  induction entries generalizing outline with
  | nil =>
      cases hread
      exact hfirst
  | cons entry rest ih =>
      rcases entry with ⟨key, value⟩
      rw [readEntries] at hread
      rcases Outcome.bind_eq_ok hread with ⟨middle, hmiddle, hread⟩
      exact ih (hstep outline middle key value hfirst hmiddle) hread

theorem ofDocument_eq_ok_iff {document : Document} :
    ofDocument document = .ok outline ↔
      ∃ entries, document.root = .object entries ∧
        readEntries ⟨document.space, [], []⟩ entries = .ok outline ∧
        duplicateName? [] outline.typeNames = none := by
  unfold ofDocument
  constructor
  · intro hread
    split at hread
    next entries hroot =>
      rcases Outcome.bind_eq_ok hread with ⟨middle, hmiddle, hread⟩
      split at hread
      · cases hread
      next hnone =>
        cases hread
        exact ⟨entries, hroot, hmiddle, hnone⟩
    · cases hread
  · rintro ⟨entries, hroot, hread, hnone⟩
    rw [hroot]
    dsimp only
    rw [hread]
    dsimp only [bind, Except.bind]
    rw [hnone]
    rfl

theorem space_readEntry (hread : readEntry outline key value = .ok read) :
    read.space = outline.space := by
  rcases readEntry_cases hread with
    ⟨-, ⟨action, objects, -, -, rfl⟩ | ⟨rows, declared, -, -, -, rfl⟩⟩
  · rfl
  · rfl

theorem space_ofDocument {document : Document} (hread : ofDocument document = .ok outline) :
    outline.space = document.space := by
  rcases ofDocument_eq_ok_iff.mp hread with ⟨entries, -, hentries, -⟩
  have hstep : ∀ middle read key value, middle.space = document.space →
      readEntry middle key value = .ok read → read.space = document.space :=
    fun _ _ _ _ hspace hread => (space_readEntry hread).trans hspace
  exact readEntries_keep (P := fun read => read.space = document.space) hstep rfl hentries

/-! ## Sound documents -/

theorem sound_readEntry (hsound : Sound outline.objects)
    (hread : readEntry outline key value = .ok read) : Sound read.objects := by
  rcases readEntry_cases hread with
    ⟨-, ⟨action, objects, hdeclares, hrun, rfl⟩ | ⟨rows, declared, -, -, -, rfl⟩⟩
  · have hkeeps : Keeps (fun _ => True) action (fun _ _ => True) := by
      cases hdeclares with
      | object body => exact keeps_declareTopLevel _ _ _
      | message body => exact keeps_declareMessage _ _ _
      | request request response => exact keeps_declareRequest _ _ _ _
    exact (hkeeps _ _ _ hsound trivial hrun).1
  · exact hsound

end Entries

/-- The objects of every document that is accepted are sound. -/
theorem sound_ofDocument {document : Document} {outline : Outline}
    (hread : ofDocument document = .ok outline) : Sound outline.objects := by
  rcases ofDocument_eq_ok_iff.mp hread with ⟨entries, -, hentries, -⟩
  refine readEntries_keep (fun _ _ _ _ => sound_readEntry) ?_ hentries
  exact fun _ hobject => absurd hobject List.not_mem_nil

end Outline
end WireSchema
