import WireSchema.Proofs.Faults
import WireSchema.Proofs.Singulars

/-!
# Names of embedded objects

The tag of an embedded object is that of its owner, an underscore and the key of the field, and so its
name is the name of the owner, followed by what is kept of the key.  In an array the key stands in
the singular, which may leave nothing: then the object has the name of its owner, and the document
is refused.  All names within an embedded object extend its own.
-/

namespace WireSchema

namespace Naming

theorem silent_iff_of_capitalised {chars later : List Char}
    (hsame : List.Forall₂ Capitalised chars later) : Silent later ↔ Silent chars := by
  induction hsame with
  | nil => exact Iff.rfl
  | cons hfirst hrest ih =>
      rw [Silent, Silent, List.forall_mem_cons, List.forall_mem_cons, hfirst.isNameChar_eq]
      exact and_congr_right fun _ => ih

theorem filter_eq_nil_iff_silent {chars : List Char} :
    chars.filter isNameChar = [] ↔ Silent chars := by
  simp [List.filter_eq_nil_iff, Silent]

/-- A key with a name has something to keep. -/
theorem not_silent_of_identifier {case : NameCase} {key : String}
    (hkey : identifier case key ≠ "") : ¬ Silent key.toList := by
  intro hsilent
  have hsame := forall₂_identifierChars case key.toList
  have hnone : (dropOrdinal key.toList).filter isNameChar = [] := by
    rw [filter_eq_nil_iff_silent]
    exact fun c hc => hsilent c (mem_of_mem_dropOrdinal hc)
  rw [hnone, List.forall₂_nil_left_iff] at hsame
  exact hkey (by rw [identifier, hsame, String.ofList_nil])

/-- What is kept of a key behind an underscore, ordinals included. -/
def joinedName (suffix : String) : String :=
  String.ofList ((capitalise .type suffix.toList).filter isNameChar)

theorem joinedName_eq_empty_iff {suffix : String} :
    joinedName suffix = "" ↔ Silent suffix.toList := by
  rw [← silent_iff_of_capitalised (forall₂_capitalise .type suffix.toList),
    ← filter_eq_nil_iff_silent, joinedName, ← String.ofList_nil, String.ofList_inj]

theorem identifier_joined (owner suffix : String) :
    identifier .type (owner ++ "_" ++ suffix) = identifier .type owner ++ joinedName suffix := by
  rw [String.append_assoc]
  have hmark : ("_" ++ suffix).toList = '_' :: suffix.toList := by rw [String.toList_append]; rfl
  apply identifier_marked
  · rw [hmark]
    rfl
  · rw [hmark, joinedName, String.toList_ofList]
    rfl

end Naming

namespace Outline

open Grammar
open Naming (Fades Silent identifier joinedName singular)

/-- The name of an embedded object is that of its owner and something more, unless the key fades in
the singular. -/
theorem exists_embedded_name (owner : String) {key : String} (hkey : identifier .field key ≠ "")
    (inArray : Bool) :
    ∃ more, identifier .type (embeddedTag owner key inArray) = identifier .type owner ++ more ∧
      (more = "" ↔ inArray = true ∧ Fades key.toList) := by
  have hsome := Naming.not_silent_of_identifier hkey
  refine ⟨joinedName (if inArray then singular key else key), Naming.identifier_joined _ _, ?_⟩
  rw [Naming.joinedName_eq_empty_iff]
  cases inArray with
  | false => simpa using hsome
  | true =>
      rw [if_pos rfl, singular, String.toList_ofList, Naming.silent_singularChars_iff hsome]
      simp

/-! ## Mappings within arrays -/

/-- A mapping within some arrays. -/
def nested (members : List (String × Json)) : Nat → Json
  | 0 => .object members
  | depth + 1 => .array [nested members depth]

/-- Whether the key of a field is taken in the singular for what the field embeds. -/
def isInArray (inArray : Bool) (depth : Nat) : Bool := inArray || depth != 0

theorem isInArray_succ (inArray : Bool) (depth : Nat) :
    isInArray true depth = isInArray inArray (depth + 1) := by
  simp [isInArray]

theorem embeddedNames_nested (owner key : String) (members : List (String × Json)) (inArray : Bool)
    (depth : Nat) :
    embeddedNames owner key inArray (nested members depth) =
      bodyNames (embeddedTag owner key (isInArray inArray depth)) members ++
        [identifier .type (embeddedTag owner key (isInArray inArray depth))] := by
  induction depth generalizing inArray with
  | zero => simp [nested, embeddedNames, isInArray]
  | succ depth ih => rw [nested, embeddedNames, ih, isInArray_succ]

theorem lift_eq_ok {α : Type} {check : Except SchemaError α} {value : α}
    {objects later : List Declaration.Object}
    (hrun : (liftM check : Outlining α) objects = .ok (value, later)) :
    check = .ok value ∧ later = objects := by
  cases check with
  | error fault => cases hrun
  | ok checked =>
      cases hrun
      exact ⟨rfl, rfl⟩

/-- A check passes and leaves the objects as they are. -/
theorem check_bind_eq_ok {α β : Type} {check : Except SchemaError α} {next : α → Outlining β}
    {result : β} {objects later : List Declaration.Object}
    (hrun : (liftM check >>= next) objects = .ok (result, later)) :
    ∃ value, check = .ok value ∧ next value objects = .ok (result, later) := by
  rcases Outcome.bind_eq_ok hrun with ⟨⟨value, middle⟩, hcheck, hnext⟩
  rcases lift_eq_ok hcheck with ⟨hvalue, rfl⟩
  exact ⟨value, hvalue, hnext⟩

/-- What a field embeds is added to the objects, under the name that is made of its tag. -/
theorem exists_of_readShape_nested {space owner key : String} {members : List (String × Json)}
    {inArray : Bool} {depth : Nat} {objects later : List Declaration.Object}
    {shape : Declaration.Shape}
    (hread : readShape space owner key inArray (nested members depth) objects =
      .ok (shape, later)) :
    ∃ place object, shape.embedded? = some place ∧ later[place]? = some object ∧
      object.role = .embedded ∧
        object.name = identifier .type (embeddedTag owner key (isInArray inArray depth)) := by
  induction depth generalizing inArray shape with
  | zero =>
      rw [nested, readShape] at hread
      rcases check_bind_eq_ok hread with ⟨name, hname, hread⟩
      rcases Outcome.bind_eq_ok hread with ⟨⟨fields, middle⟩, hfields, hread⟩
      cases hread
      have hchecked := (checkName_eq_ok_iff.mp hname).2
      refine ⟨_, _, rfl, List.getElem?_concat_length, rfl, ?_⟩
      rw [hchecked, isInArray, bne_self_eq_false, Bool.or_false]
  | succ depth ih =>
      rw [nested, readShape] at hread
      rcases Outcome.bind_eq_ok hread with ⟨⟨element, middle⟩, helement, hread⟩
      cases hread
      rcases ih helement with ⟨place, object, hplace, hobject, hrole, hname⟩
      rw [isInArray_succ inArray] at hname
      exact ⟨place, object, hplace, hobject, hrole, hname⟩

/-! ## Documents with one embedded object -/

mutual

/-- Whatever is embedded in a field has a name that extends the name of the owner. -/
theorem exists_more_of_embeddedNames {owner key name : String} {inArray : Bool} {value : Json}
    (hname : name ∈ embeddedNames owner key inArray value) :
    ∃ more, name = identifier .type owner ++ more := by
  match value with
  | .array [item] =>
      rw [embeddedNames] at hname
      exact exists_more_of_embeddedNames hname
  | .object members =>
      have hjoined : identifier .type (embeddedTag owner key inArray) = _ :=
        Naming.identifier_joined owner _
      rw [embeddedNames, List.mem_append, List.mem_singleton] at hname
      rcases hname with hname | rfl
      · rcases exists_more_of_bodyNames hname with ⟨more, rfl⟩
        rw [hjoined, String.append_assoc]
        exact ⟨_, rfl⟩
      · exact ⟨_, hjoined⟩
  | .string _ => simp [embeddedNames] at hname
  | .null => simp [embeddedNames] at hname
  | .bool _ => simp [embeddedNames] at hname
  | .number _ => simp [embeddedNames] at hname
  | .array [] => simp [embeddedNames] at hname
  | .array (_ :: _ :: _) => simp [embeddedNames] at hname

theorem exists_more_of_bodyNames {owner name : String} {members : List (String × Json)}
    (hname : name ∈ bodyNames owner members) : ∃ more, name = identifier .type owner ++ more := by
  match members with
  | [] => simp [bodyNames] at hname
  | (key, value) :: rest =>
      rw [bodyNames, List.mem_append] at hname
      rcases hname with hname | hname
      · exact exists_more_of_embeddedNames hname
      · exact exists_more_of_bodyNames hname

end

/-- The owner's name is taken by what its field embeds if and only if the key fades. -/
theorem owner_mem_embeddedNames_iff {owner key : String} (hkey : identifier .field key ≠ "")
    (members : List (String × Json)) (depth : Nat) :
    identifier .type owner ∈ embeddedNames owner key false (nested members depth) ↔
      0 < depth ∧ Fades key.toList := by
  have hdepth : isInArray false depth = true ↔ 0 < depth := by
    simp [isInArray, Nat.pos_iff_ne_zero]
  rcases exists_embedded_name owner hkey (isInArray false depth) with ⟨more, hname, hmore⟩
  rw [hdepth] at hmore
  rw [embeddedNames_nested, List.mem_append, List.mem_singleton, ← hmore]
  constructor
  · intro howner
    have hall : ∃ further, identifier .type owner = identifier .type owner ++ (more ++ further) := by
      rcases howner with howner | howner
      · rcases exists_more_of_bodyNames howner with ⟨further, hfurther⟩
        rw [hname, String.append_assoc] at hfurther
        exact ⟨further, hfurther⟩
      · exact ⟨"", by rw [String.append_empty, ← hname, ← howner]⟩
    rcases hall with ⟨further, hfurther⟩
    have hlength := congrArg String.length hfurther
    rw [String.length_append, String.length_append] at hlength
    rw [← String.length_eq_zero_iff]
    omega
  · rintro rfl
    rw [hname, String.append_empty]
    exact .inr rfl

theorem exists_duplicateType_iff {document : Document} {entries : List (String × Json)}
    (hroot : document.root = .object entries) :
    (∃ space name tag, ofDocument document = .error (.duplicateType space name tag)) ↔
      ∃ outline, readEntries ⟨document.space, [], []⟩ entries = .ok outline ∧
        ¬ (outline.typeNames.map Prod.fst).Nodup := by
  have hnone {outline : Outline} : duplicateName? [] outline.typeNames = none ↔
      (outline.typeNames.map Prod.fst).Nodup := by
    rw [duplicateName?_eq_none_iff]
    simp
  rw [ofDocument, hroot]
  constructor
  · rintro ⟨space, name, tag, hrun⟩
    rcases Outcome.bind_eq_error_iff.mp hrun with hentries | ⟨outline, hentries, hrun⟩
    · cases isOfEntry_of_readEntries hentries
    · refine ⟨outline, hentries, ?_⟩
      rw [← hnone]
      intro hfree
      rw [hfree] at hrun
      cases hrun
  · rintro ⟨outline, hentries, hdouble⟩
    rw [← hnone] at hdouble
    rcases Option.ne_none_iff_exists'.mp hdouble with ⟨⟨name, tag⟩, htaken⟩
    refine ⟨document.space, name, tag, ?_⟩
    apply Outcome.bind_eq_error_iff.mpr
    refine .inr ⟨outline, hentries, ?_⟩
    rw [htaken]
    rfl

/-- A document of one object with one field that embeds a mapping. -/
def embeddingDocument (space entry key : String) (members : List (String × Json)) (depth : Nat) :
    Document :=
  ⟨space, .object [(entry, .object [(key, nested members depth)])]⟩

/-- The names of the document are those of what the field embeds, and that of the owner. -/
theorem nodup_typeNames_iff {space entry owner key : String} {value : Json} {outline : Outline}
    (htag : HasTag entry owner)
    (hread : readEntries ⟨space, [], []⟩ [(entry, .object [(key, value)])] = .ok outline) :
    (outline.typeNames.map Prod.fst).Nodup ↔ (embeddedNames owner key false value).Nodup ∧
      identifier .type owner ∉ embeddedNames owner key false value := by
  rcases areEntries_of_readEntries hread with ⟨names, hentries, hgains⟩
  rw [AreEntries, List.forall₂_cons_left_iff] at hentries
  rcases hentries with ⟨first, rest, ⟨-, hentry⟩, hrest, rfl⟩
  rw [List.forall₂_nil_left_iff] at hrest
  subst hrest
  cases hentry with
  | @object tag body htag' _ _ =>
      rw [hasTag_iff] at htag htag'
      rw [← htag', htag] at hgains
      have hnames : [objectNames owner [(key, value)]].flatten =
          (embeddedNames owner key false value).concat (identifier .type owner) := by
        simp [objectNames, bodyNames]
      rw [Gains, hnames] at hgains
      rw [hgains.nodup_iff, and_comm]
      exact List.nodup_concat _ _

/-- An embedded object is named after its owner and has something more in its name, unless the key
of the field is singular and fades.  Then, and only then, is the name of the owner taken twice. -/
theorem embedded_extends_owner {owner key : String} (hkey : identifier .field key ≠ "")
    (members : List (String × Json)) (depth : Nat) :
    (∀ space objects shape later,
      readShape space owner key false (nested members depth) objects = .ok (shape, later) →
        ∃ place object more, shape.embedded? = some place ∧ later[place]? = some object ∧
          object.role = .embedded ∧ object.name = identifier .type owner ++ more ∧
            (more = "" ↔ 0 < depth ∧ Fades key.toList)) ∧
    ∀ space entry, HasTag entry owner →
      ((∃ fault name tag, ofDocument (embeddingDocument space entry key members depth) =
          .error (.duplicateType fault name tag)) ↔
        (∃ outline, readEntries ⟨space, [], []⟩
          [(entry, .object [(key, nested members depth)])] = .ok outline) ∧
          ((0 < depth ∧ Fades key.toList) ∨
            ¬ (embeddedNames owner key false (nested members depth)).Nodup)) := by
  constructor
  · intro space objects shape later hread
    rcases exists_of_readShape_nested hread with ⟨place, object, hplace, hobject, hrole, hname⟩
    rcases exists_embedded_name owner hkey (isInArray false depth) with
      ⟨more, hmore, hempty⟩
    refine ⟨place, object, more, hplace, hobject, hrole, hname.trans hmore, ?_⟩
    rw [hempty, isInArray, Bool.false_or, bne_iff_ne, Nat.pos_iff_ne_zero]
  · intro space entry htag
    rw [exists_duplicateType_iff rfl, ← owner_mem_embeddedNames_iff hkey members depth]
    constructor
    · rintro ⟨outline, hread, hdouble⟩
      rw [nodup_typeNames_iff htag hread, not_and_or, not_not] at hdouble
      exact ⟨⟨outline, hread⟩, hdouble.symm⟩
    · rintro ⟨⟨outline, hread⟩, hdouble⟩
      refine ⟨outline, hread, ?_⟩
      rw [nodup_typeNames_iff htag hread, not_and_or, not_not]
      exact hdouble.symm

end Outline

namespace Sample

open Outline (embeddingDocument)

theorem fades_s : Naming.Fades "s".toList := .plural [] (by simp [Naming.Silent]) (by simp)

/-- In an array the object is named after its owner, and in the field itself it is not. -/
theorem embedded_in_s :
    (∃ fault name tag, Outline.ofDocument (embeddingDocument "n" "a" "s" [] 1) =
        .error (.duplicateType fault name tag)) ∧
      ¬ ∃ fault name tag, Outline.ofDocument (embeddingDocument "n" "a" "s" [] 0) =
        .error (.duplicateType fault name tag) := by
  have hkey : Naming.identifier .field "s" ≠ "" := by decide +kernel
  have htag : Grammar.HasTag "a" "a" := by
    rw [Outline.hasTag_iff]
    decide +kernel
  constructor
  · apply ((Outline.embedded_extends_owner hkey [] 1).2 "n" "a" htag).mpr
    refine ⟨⟨⟨"n", [], [⟨"a_", "A", .embedded, none, [], none, none⟩, ⟨"a", "A", .object, none,
      [⟨"s", "s", false, .array (.embedded 0)⟩], none, none⟩]⟩, ?_⟩, .inl ⟨Nat.one_pos, fades_s⟩⟩
    decide +kernel
  · rw [(Outline.embedded_extends_owner hkey [] 0).2 "n" "a" htag]
    rintro ⟨-, ⟨hnone, -⟩ | hdouble⟩
    · exact absurd hnone (Nat.lt_irrefl 0)
    · apply hdouble
      decide +kernel

end Sample

end WireSchema
