import WireSchema.Proofs.Keys
import WireSchema.Proofs.Outlines

/-!
# Accepted documents and their grammar

A document is accepted if and only if it belongs to the grammar.  An action that adds objects to an
outline succeeds under a condition that does not depend on the objects that are there already, and
the names of what it adds are known beforehand; so the conditions of consecutive actions are joined,
and the names are appended.
-/

namespace WireSchema

namespace Grammar

open Naming (identifier)

/-! ## Forms taken apart -/

section Forms

variable {owner key : String} {inArray : Bool}

@[simp] theorem isType_string_iff {token : String} :
    IsType owner key inArray (.string token) ↔ IsToken token := by
  constructor
  · rintro ⟨⟩
    assumption
  · exact .token

@[simp] theorem isType_array_iff {item : Json} :
    IsType owner key inArray (.array [item]) ↔ IsType owner key true item := by
  constructor
  · rintro ⟨⟩
    assumption
  · exact .array

@[simp] theorem isType_object_iff {members : List (String × Json)} :
    IsType owner key inArray (.object members) ↔
      Usable (identifier .type (Outline.embeddedTag owner key inArray)) ∧
        IsBody (Outline.embeddedTag owner key inArray) members := by
  constructor
  · intro htype
    cases htype with
    | embedded hname hkeys htypes => exact ⟨hname, hkeys, htypes⟩
  · rintro ⟨hname, hkeys, htypes⟩
    exact .embedded hname hkeys htypes

end Forms

/-- Keys that become different usable names, none of which is taken. -/
structure Fresh (taken keys : List String) : Prop where
  distinguished : Distinguished keys
  notTaken : ∀ key ∈ keys, identifier .field key ∉ taken

theorem fresh_nil_left_iff {keys : List String} : Fresh [] keys ↔ Distinguished keys := by
  constructor
  · exact fun hfresh => hfresh.distinguished
  · exact fun hkeys => ⟨hkeys, by simp⟩

theorem fresh_nil (taken : List String) : Fresh taken [] :=
  ⟨⟨by simp, by simp⟩, by simp⟩

theorem fresh_cons_iff {taken rest : List String} {key : String} :
    Fresh taken (key :: rest) ↔
      Usable (identifier .field key) ∧ identifier .field key ∉ taken ∧
        Fresh (taken ++ [identifier .field key]) rest := by
  constructor
  · rintro ⟨⟨husable, hnodup⟩, hnot⟩
    rw [List.map_cons, List.nodup_cons] at hnodup
    rw [List.forall_mem_cons] at husable hnot
    refine ⟨husable.1, hnot.1, ⟨husable.2, hnodup.2⟩, ?_⟩
    intro other hother hmem
    rcases List.mem_append.mp hmem with hmem | hmem
    · exact hnot.2 other hother hmem
    · apply hnodup.1
      rw [← List.mem_singleton.mp hmem]
      exact List.mem_map_of_mem hother
  · rintro ⟨husable, hnot, ⟨husables, hnodup⟩, hnots⟩
    simp only [List.mem_append, List.mem_singleton, not_or] at hnots
    refine ⟨⟨?_, ?_⟩, ?_⟩
    · exact List.forall_mem_cons.mpr ⟨husable, husables⟩
    · rw [List.map_cons, List.nodup_cons]
      refine ⟨?_, hnodup⟩
      intro hmem
      rcases List.mem_map.mp hmem with ⟨other, hother, hsame⟩
      exact (hnots other hother).2 hsame
    · exact List.forall_mem_cons.mpr ⟨hnot, fun other hother => (hnots other hother).1⟩

end Grammar

namespace Outline

open Grammar
open Naming (identifier)

/-! ## Actions under a condition -/

namespace Outlining

variable {α β : Type}

/-- Whatever the objects are, the action succeeds if and only if `P` holds.  Then `R` holds of its
value, and objects with these names are added. -/
structure Adds (action : Outlining α) (P : Prop) (R : α → Prop) (names : List String) : Prop where
  succeeds : P → ∀ objects, ∃ value later, action objects = .ok (value, later)
  gives : ∀ objects value later, action objects = .ok (value, later) →
    P ∧ R value ∧ later.map (·.name) = objects.map (·.name) ++ names

variable {P Q : Prop} {R : α → Prop} {S : β → Prop} {names more : List String}

theorem adds_pure {value : α} (hvalue : R value) : Adds (pure value) True R [] where
  succeeds _ objects := ⟨value, objects, rfl⟩
  gives objects result later hrun := by
    cases hrun
    exact ⟨trivial, hvalue, (List.append_nil _).symm⟩

theorem adds_throw {fault : SchemaError} (hrefused : ¬ P) :
    Adds (throw fault : Outlining α) P R names where
  succeeds hpre := absurd hpre hrefused
  gives objects value later hrun := by cases hrun

theorem adds_throw_bind {fault : SchemaError} {next : α → Outlining β} (hrefused : ¬ P) :
    Adds (throw fault >>= next) P S names where
  succeeds hpre := absurd hpre hrefused
  gives objects value later hrun := by cases hrun

theorem adds_check {check : Except SchemaError α} (hsome : P → ∃ value, check = .ok value)
    (hvalue : ∀ value, check = .ok value → P ∧ R value) :
    Adds (liftM check : Outlining α) P R [] where
  succeeds hpre objects := by
    rcases hsome hpre with ⟨value, rfl⟩
    exact ⟨value, objects, rfl⟩
  gives objects value later hrun := by
    cases check with
    | error fault => cases hrun
    | ok checked =>
        cases hrun
        rcases hvalue value rfl with ⟨hpre, hresult⟩
        exact ⟨hpre, hresult, (List.append_nil _).symm⟩

theorem adds_addObject {object : Declaration.Object} (name : String) (hname : object.name = name) :
    Adds (addObject object) True (fun _ => True) [name] where
  succeeds _ objects := ⟨_, _, rfl⟩
  gives objects index later hrun := by
    cases hrun
    exact ⟨trivial, trivial, by rw [List.map_append, List.map_singleton, hname]⟩

theorem Adds.bind {action : Outlining α} {next : α → Outlining β}
    (hfirst : Adds action P R names) (hsecond : ∀ value, R value → Adds (next value) Q S more) :
    Adds (action >>= next) (P ∧ Q) S (names ++ more) where
  succeeds hboth objects := by
    rcases hfirst.succeeds hboth.1 objects with ⟨value, middle, hvalue⟩
    have hresult := (hfirst.gives objects value middle hvalue).2.1
    rcases (hsecond value hresult).succeeds hboth.2 middle with ⟨result, later, hnext⟩
    refine ⟨result, later, ?_⟩
    change (action objects >>= fun taken => next taken.1 taken.2) = _
    rw [hvalue]
    exact hnext
  gives objects result later hrun := by
    rcases Outcome.bind_eq_ok hrun with ⟨⟨value, middle⟩, hvalue, hnext⟩
    rcases hfirst.gives objects value middle hvalue with ⟨hpre, hresult, hnames⟩
    rcases (hsecond value hresult).gives middle result later hnext with ⟨hpre', hpost, hnames'⟩
    refine ⟨⟨hpre, hpre'⟩, hpost, ?_⟩
    rw [hnames', hnames, List.append_assoc]

theorem Adds.congr {action : Outlining α} (hadds : Adds action P R names) (hiff : Q ↔ P)
    (hnames : more = names) : Adds action Q R more := by
  rw [hiff, hnames]
  exact hadds

end Outlining

open Outlining

/-! ## Names -/

theorem adds_checkName (space : String) (what : Subject) (key name : String) :
    Adds (liftM (checkName space what key name) : Outlining String) (Usable name) (· = name) [] :=
  adds_check (fun husable => ⟨name, checkName_eq_ok_iff.mpr ⟨husable, rfl⟩⟩)
    fun _ hchecked => checkName_eq_ok_iff.mp hchecked

theorem adds_typeName (space : String) (what : Subject) (key tag : String) :
    Adds (liftM (typeName space what key tag) : Outlining String) (Usable (identifier .type tag))
      (· = identifier .type tag) [] :=
  adds_checkName space what key _

/-! ## Bodies -/

theorem isBody_iff {owner : String} {members : List (String × Json)} :
    IsBody owner members ↔
      Fresh [] (members.map (·.1)) ∧ ∀ member ∈ members, IsType owner member.1 false member.2 := by
  rw [fresh_nil_left_iff]
  constructor
  · exact fun hbody => ⟨hbody.names, hbody.types⟩
  · exact fun ⟨hnames, htypes⟩ => ⟨hnames, htypes⟩

mutual

theorem adds_readShape (space owner key : String) (inArray : Bool) (value : Json) :
    Adds (readShape space owner key inArray value) (IsType owner key inArray value) (fun _ => True)
      (embeddedNames owner key inArray value) := by
  match value with
  | .string token =>
      rw [readShape]
      refine (adds_check ?_ ?_).congr isType_string_iff rfl
      · exact exists_tokenShape_iff.mpr
      · exact fun shape hshape => ⟨exists_tokenShape_iff.mp ⟨shape, hshape⟩, trivial⟩
  | .array [item] =>
      rw [readShape, embeddedNames]
      refine ((adds_readShape space owner key true item).bind fun element _ =>
        adds_pure trivial).congr ?_ (List.append_nil _).symm
      rw [isType_array_iff, and_true]
  | .object members =>
      rw [readShape, embeddedNames]
      refine ((adds_typeName _ _ _ _).bind ?_).congr isType_object_iff (List.nil_append _).symm
      rintro name rfl
      have hfields := adds_readFields space (embeddedTag owner key inArray) [] members
      refine Adds.congr (hfields.bind fun fields _ => (adds_addObject _ rfl).bind fun index _ =>
        adds_pure trivial) ?_ rfl
      rw [and_true, and_true, isBody_iff]
      rfl
  | .null => exact adds_throw nofun
  | .bool _ => exact adds_throw nofun
  | .number _ => exact adds_throw nofun
  | .array [] => exact adds_throw nofun
  | .array (_ :: _ :: _) => exact adds_throw nofun

theorem adds_readFields (space owner : String) (sofar : List Declaration.Field)
    (members : List (String × Json)) :
    Adds (readFields space owner sofar members)
      (Fresh (sofar.map (·.name)) (members.map (·.1)) ∧
        ∀ member ∈ members, IsType owner member.1 false member.2)
      (fun _ => True) (bodyNames owner members) := by
  match members with
  | [] =>
      rw [readFields, bodyNames]
      refine (adds_pure trivial).congr ?_ rfl
      simp [fresh_nil]
  | (key, value) :: rest =>
      rw [readFields, bodyNames]
      have hiff : Fresh (sofar.map (·.name)) (((key, value) :: rest).map (·.1)) ∧
          (∀ member ∈ (key, value) :: rest, IsType owner member.1 false member.2) ↔
          Usable (identifier .field key) ∧ identifier .field key ∉ sofar.map (·.name) ∧
            IsType owner key false value ∧
            Fresh (sofar.map (·.name) ++ [identifier .field key]) (rest.map (·.1)) ∧
            ∀ member ∈ rest, IsType owner member.1 false member.2 := by
        rw [List.map_cons, fresh_cons_iff, List.forall_mem_cons]
        constructor
        · rintro ⟨⟨husable, hnot, hrest⟩, htype, htypes⟩
          exact ⟨husable, hnot, htype, hrest, htypes⟩
        · rintro ⟨husable, hnot, htype, hrest, htypes⟩
          exact ⟨⟨husable, hnot, hrest⟩, htype, htypes⟩
      refine ((adds_checkName _ _ _ _).bind ?_).congr hiff (List.nil_append _).symm
      rintro name rfl
      dsimp only
      split
      next htaken =>
        have hmem : identifier .field key ∈ sofar.map (·.name) := by simpa using htaken
        exact adds_throw_bind fun hpre => hpre.1 hmem
      next hfree =>
        have hnot : identifier .field key ∉ sofar.map (·.name) := by simpa using hfree
        refine Adds.congr ((adds_readShape space owner key false value).bind fun shape _ =>
          (adds_readFields space owner _ rest).congr ?_ rfl) (and_iff_right hnot) rfl
        rw [List.map_append]
        rfl

end

/-! ## Objects and payloads -/

theorem adds_declareObject (space tag name : String) (role : Role) (parent : Option Link)
    (wireName : Option String) (response : Option Nat) (body : List (String × Json))
    (hname : name = identifier .type tag) :
    Adds (declareObject space tag name role parent wireName response body) (IsBody tag body)
      (fun _ => True) (objectNames tag body) := by
  unfold declareObject
  refine Adds.congr ((adds_readFields space tag [] body).bind fun fields _ =>
    adds_addObject _ hname) ?_ rfl
  rw [and_true, isBody_iff]
  rfl

theorem adds_declareTopLevel (space key : String) (body : List (String × Json)) :
    Adds (declareTopLevel space key body)
      (Usable (identifier .type (splitInheritance key).1) ∧ IsBody (splitInheritance key).1 body)
      (fun _ => True) (objectNames (splitInheritance key).1 body) := by
  unfold declareTopLevel
  generalize splitInheritance key = parts
  rcases parts with ⟨tag, parent⟩
  refine Adds.congr ((adds_typeName _ _ _ _).bind fun name hname =>
    (adds_declareObject _ _ _ _ _ _ _ _ hname).bind fun _ _ => adds_pure trivial) ?_ ?_
  · rw [and_true]
  · simp

theorem adds_rejectInheritance {space : String} {what : Subject} {key mark : String}
    (hsome : mark ≠ "") (hmark : '@' ∉ mark.toList) :
    Adds (liftM (rejectInheritance space what key (key ++ mark)) : Outlining Unit)
      ('@' ∉ key.toList.tail) (fun _ => True) [] := by
  have hiff : (splitInheritance (key ++ mark)).2 = none ↔ '@' ∉ key.toList.tail :=
    splitInheritance_append_eq_none_iff hsome hmark
  unfold rejectInheritance
  apply adds_check
  · intro hkey
    rw [← hiff] at hkey
    simp [hkey]
  · intro value hvalue
    split at hvalue
    · cases hvalue
    next hnone =>
      refine ⟨hiff.mp ?_, trivial⟩
      simpa using hnone

/-- The names of a payload are never empty: the mark has a letter. -/
theorem isPayload_iff {key mark word : String} {body : List (String × Json)}
    (hmark : mark.toList.any Naming.isAsciiLetter = true) (hword : word ≠ "") :
    IsPayload key mark word body ↔
      Usable (identifier .type key ++ word) ∧ Usable (identifier .type (key ++ mark)) ∧
        IsBody (key ++ mark) body := by
  constructor
  · rintro ⟨hwire, hname, hbody⟩
    refine ⟨⟨by simp [hword], hwire⟩, ⟨?_, hname⟩, hbody⟩
    apply Naming.identifier_ne_empty
    rw [String.toList_append, List.any_append, hmark, Bool.or_true]
  · rintro ⟨hwire, hname, hbody⟩
    exact ⟨hwire.2, hname.2, hbody⟩

theorem adds_declareMessage (space key : String) (body : List (String × Json)) :
    Adds (declareMessage space key body)
      ('@' ∉ key.toList.tail ∧ IsPayload key "_message" "Message" body) (fun _ => True)
      (objectNames (key ++ "_message") body) := by
  unfold declareMessage
  refine Adds.congr ((adds_checkName _ _ _ _).bind fun wireName _ =>
    (adds_rejectInheritance (by decide) (by decide)).bind fun _ _ =>
    (adds_typeName _ _ _ _).bind fun name hname =>
    (adds_declareObject _ _ _ _ _ _ _ _ hname).bind fun _ _ => adds_pure trivial) ?_ ?_
  · rw [isPayload_iff (by decide) (by decide), and_true]
    exact and_left_comm
  · simp

theorem adds_declareRequest (space key : String) (request response : List (String × Json)) :
    Adds (declareRequest space key request response)
      ('@' ∉ key.toList.tail ∧ IsPayload key "_request" "Request" request ∧
        IsPayload key "_response" "Response" response) (fun _ => True)
      (objectNames (key ++ "_response") response ++ objectNames (key ++ "_request") request) := by
  unfold declareRequest
  refine Adds.congr ((adds_checkName _ _ _ _).bind fun requestWire _ =>
    (adds_checkName _ _ _ _).bind fun responseWire _ =>
    (adds_rejectInheritance (by decide) (by decide)).bind fun _ _ =>
    (adds_rejectInheritance (by decide) (by decide)).bind fun _ _ =>
    (adds_typeName _ _ _ _).bind fun responseName hresponse =>
    (adds_declareObject _ _ _ _ _ _ _ _ hresponse).bind fun index _ =>
    (adds_typeName _ _ _ _).bind fun requestName hrequest =>
    (adds_declareObject _ _ _ _ _ _ _ _ hrequest).bind fun _ _ => adds_pure trivial) ?_ ?_
  · rw [isPayload_iff (by decide) (by decide), isPayload_iff (by decide) (by decide), and_true]
    constructor
    · rintro ⟨hkey, ⟨hwire, hname, hbody⟩, hwire', hname', hbody'⟩
      exact ⟨hwire, hwire', hkey, hkey, hname', hbody', hname, hbody⟩
    · rintro ⟨hwire, hwire', hkey, -, hname', hbody', hname, hbody⟩
      exact ⟨hkey, ⟨hwire, hname, hbody⟩, hwire', hname', hbody'⟩
  · simp

/-! ## Enums -/

theorem exists_readValues_iff {space owner : String} {sofar rows : List String} :
    (∃ values, readValues space owner sofar rows = .ok values) ↔ Fresh sofar rows := by
  induction rows generalizing sofar with
  | nil => simp [readValues, fresh_nil]
  | cons row rest ih =>
      rw [readValues, fresh_cons_iff, ← ih]
      constructor
      · rintro ⟨values, hread⟩
        rcases Outcome.bind_eq_ok hread with ⟨value, hvalue, hread⟩
        rcases checkName_eq_ok_iff.mp hvalue with ⟨husable, rfl⟩
        split at hread
        · cases hread
        next hfree => exact ⟨husable, by simpa using hfree, values, hread⟩
      · rintro ⟨husable, hfree, values, hread⟩
        refine ⟨values, ?_⟩
        rw [checkName_eq_ok_iff.mpr ⟨husable, rfl⟩]
        change (if _ then _ else _) = _
        rw [if_neg (by simpa using hfree)]
        exact hread

/-! ## Entries -/

theorem map_fst_typeNames (outline : Outline) :
    outline.typeNames.map Prod.fst =
      outline.enums.map (·.name) ++ outline.objects.map (·.name) := by
  rw [typeNames, List.map_append, List.map_map, List.map_map]
  rfl

/-- The names of the types are those from before and these, in any order: enums stand before
objects. -/
def Gains (outline read : Outline) (names : List String) : Prop :=
  (read.typeNames.map Prod.fst).Perm (outline.typeNames.map Prod.fst ++ names)

section Entries

variable {outline read : Outline} {key : String} {value : Json} {names : List String}

theorem gains_objects {objects : List Declaration.Object}
    (hobjects : objects.map (·.name) = outline.objects.map (·.name) ++ names) :
    outline.Gains { outline with objects } names := by
  unfold Gains
  rw [map_fst_typeNames, map_fst_typeNames, hobjects, List.append_assoc]

theorem gains_enum {declared : Declaration.Enum} :
    outline.Gains { outline with enums := outline.enums ++ [declared] } [declared.name] := by
  unfold Gains
  rw [map_fst_typeNames, map_fst_typeNames, List.map_append, List.append_assoc, List.append_assoc]
  exact List.perm_append_comm.append_left _

/-- What an entry adds that is not an enum. -/
theorem exists_adds_of_declares {action : Outlining Unit}
    (hdeclares : Declares outline.space key value action) :
    ∃ P names, Adds action P (fun _ => True) names ∧ (P → IsEntry key value names) := by
  cases hdeclares with
  | object body =>
      refine ⟨_, _, adds_declareTopLevel _ _ _, ?_⟩
      exact fun hpre => .object (hasTag_iff.mpr rfl) hpre.1 hpre.2
  | message body =>
      refine ⟨_, _, adds_declareMessage _ _ _, ?_⟩
      exact fun hpre => .message hpre.1 hpre.2
  | request request response =>
      refine ⟨_, _, adds_declareRequest _ _ _ _, ?_⟩
      exact fun hpre => .request hpre.1 hpre.2.1 hpre.2.2

theorem isEntry_of_readEntry (hread : readEntry outline key value = .ok read) :
    identifier .field key ≠ "" ∧ ∃ names, IsEntry key value names ∧ outline.Gains read names := by
  rcases readEntry_cases hread with
    ⟨hname, ⟨action, objects, hdeclares, hrun, rfl⟩ | ⟨rows, declared, hne, rfl, hdeclared, rfl⟩⟩
  · rcases exists_adds_of_declares hdeclares with ⟨P, names, hadds, hentry⟩
    rcases hadds.gives _ _ _ hrun with ⟨hpre, -, hnames⟩
    exact ⟨hname, names, hentry hpre, gains_objects hnames⟩
  · rcases readEnum_eq_ok_iff.mp hdeclared with ⟨htype, hfew, values, hvalues, rfl⟩
    have hrows := fresh_nil_left_iff.mp (exists_readValues_iff.mp ⟨values, hvalues⟩)
    exact ⟨hname, _, .enum hne hfew htype hrows, gains_enum⟩

theorem exists_readEntry_of_adds (hname : identifier .field key ≠ "") {action : Outlining Unit}
    {P : Prop} {R : Unit → Prop} (hdeclares : Declares outline.space key value action)
    (hadds : Adds action P R names) (hpre : P) :
    ∃ read, readEntry outline key value = .ok read ∧ outline.Gains read names := by
  rcases hadds.succeeds hpre outline.objects with ⟨⟨⟩, objects, hrun⟩
  refine ⟨_, readEntry_of_declares hname hdeclares hrun, ?_⟩
  exact gains_objects (hadds.gives _ _ _ hrun).2.2

theorem exists_readEntry (hname : identifier .field key ≠ "") (hentry : IsEntry key value names) :
    ∃ read, readEntry outline key value = .ok read ∧ outline.Gains read names := by
  cases hentry with
  | object htag htype hbody =>
      rw [hasTag_iff] at htag
      subst htag
      exact exists_readEntry_of_adds hname (.object _) (adds_declareTopLevel _ _ _) ⟨htype, hbody⟩
  | message hkey hbody =>
      exact exists_readEntry_of_adds hname (.message _) (adds_declareMessage _ _ _) ⟨hkey, hbody⟩
  | request hkey hrequest hresponse =>
      exact exists_readEntry_of_adds hname (.request _ _) (adds_declareRequest _ _ _ _)
        ⟨hkey, hrequest, hresponse⟩
  | enum hne hfew htype hrows =>
      rcases exists_readValues_iff.mpr (fresh_nil_left_iff.mpr hrows) with ⟨values, hvalues⟩
      have hdeclared := readEnum_eq_ok_iff.mpr ⟨htype, hfew, values, hvalues, rfl⟩
      exact ⟨_, readEntry_of_readEnum hname hne hdeclared, gains_enum⟩

end Entries

theorem Gains.trans {outline middle read : Outline} {names more : List String}
    (hfirst : outline.Gains middle names) (hsecond : middle.Gains read more) :
    outline.Gains read (names ++ more) := by
  unfold Gains at hfirst hsecond ⊢
  rw [← List.append_assoc]
  exact hsecond.trans (hfirst.append_right more)

theorem areEntries_of_readEntries {outline read : Outline} {entries : List (String × Json)}
    (hread : readEntries outline entries = .ok read) :
    ∃ names, AreEntries entries names ∧ outline.Gains read names.flatten := by
  induction entries generalizing outline with
  | nil =>
      cases hread
      exact ⟨[], .nil, by simp [Gains]⟩
  | cons entry rest ih =>
      rcases entry with ⟨key, value⟩
      rw [readEntries] at hread
      rcases Outcome.bind_eq_ok hread with ⟨middle, hmiddle, hread⟩
      rcases isEntry_of_readEntry hmiddle with ⟨hname, names, hentry, hgains⟩
      rcases ih hread with ⟨more, hrest, hgains'⟩
      exact ⟨names :: more, .cons ⟨hname, hentry⟩ hrest, hgains.trans hgains'⟩

theorem exists_readEntries {entries : List (String × Json)} {names : List (List String)}
    (hentries : AreEntries entries names) (outline : Outline) :
    ∃ read, readEntries outline entries = .ok read ∧ outline.Gains read names.flatten := by
  unfold AreEntries at hentries
  induction hentries generalizing outline with
  | nil => exact ⟨outline, rfl, by simp [Gains]⟩
  | cons hentry hrest ih =>
      rcases exists_readEntry hentry.1 hentry.2 with ⟨middle, hmiddle, hgains⟩
      rcases ih middle with ⟨read, hread, hgains'⟩
      refine ⟨read, ?_, hgains.trans hgains'⟩
      rw [readEntries, hmiddle]
      exact hread

/-! ## Documents -/

/-- A document is accepted if and only if it belongs to the grammar. -/
theorem exists_ofDocument_iff (document : Document) :
    (∃ outline, ofDocument document = .ok outline) ↔ IsDocument document.root := by
  have hnames : ∀ {read : Outline} {names : List (List String)},
      (⟨document.space, [], []⟩ : Outline).Gains read names.flatten →
        (duplicateName? [] read.typeNames = none ↔ names.flatten.Nodup) := by
    intro read names hgains
    rw [duplicateName?_eq_none_iff, List.Perm.nodup_iff hgains]
    simp [typeNames]
  constructor
  · rintro ⟨outline, hread⟩
    rcases ofDocument_eq_ok_iff.mp hread with ⟨entries, hroot, hentries, hnone⟩
    rcases areEntries_of_readEntries hentries with ⟨names, hgrammar, hgains⟩
    rw [hroot]
    exact .entries hgrammar ((hnames hgains).mp hnone)
  · intro hdocument
    generalize hroot : document.root = root at hdocument
    cases hdocument with
    | entries hgrammar hnodup =>
        rcases exists_readEntries hgrammar ⟨document.space, [], []⟩ with ⟨read, hread, hgains⟩
        have hnone := (hnames hgains).mpr hnodup
        exact ⟨read, ofDocument_eq_ok_iff.mpr ⟨_, hroot, hread, hnone⟩⟩

end Outline
end WireSchema
