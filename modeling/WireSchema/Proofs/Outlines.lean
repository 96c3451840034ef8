import Mathlib.Data.List.Nodup
import WireSchema.Proofs.Declarations

/-!
# Accepted documents

A document that is accepted declares no type name twice, be it for enums or for objects.  Since
names are made of tags, a tag leads to at most one declaration, and never to an enum and an object
at the same time.
-/

namespace WireSchema
namespace Outline

open Grammar (Usable)
open Naming (identifier)

/-- What holds of the outline of a document that is accepted. -/
structure Proper (outline : Outline) : Prop where
  sound : Sound outline.objects
  enum_name_eq : ∀ type ∈ outline.enums, type.name = Naming.identifier .type type.tag
  length_values_le : ∀ type ∈ outline.enums, type.values.length ≤ maxEnumValues
  values_nodup : ∀ type ∈ outline.enums, type.values.Nodup
  names_nodup : (outline.typeNames.map Prod.fst).Nodup

/-! ## Reading the entries -/

theorem length_readValues {space owner : String} {sofar rows values : List String}
    (hread : readValues space owner sofar rows = .ok values) :
    values.length = sofar.length + rows.length := by
  induction rows generalizing sofar with
  | nil =>
      cases hread
      simp
  | cons row rest ih =>
      rw [readValues] at hread
      rcases Outcome.bind_eq_ok hread with ⟨value, -, hread⟩
      split at hread
      · cases hread
      · rw [ih hread]
        simp
        omega

theorem nodup_readValues {space owner : String} {sofar rows values : List String}
    (hread : readValues space owner sofar rows = .ok values) (hsofar : sofar.Nodup) :
    values.Nodup := by
  induction rows generalizing sofar with
  | nil =>
      cases hread
      exact hsofar
  | cons row rest ih =>
      rw [readValues] at hread
      rcases Outcome.bind_eq_ok hread with ⟨value, -, hread⟩
      by_cases htaken : sofar.contains value = true
      · rw [if_pos htaken] at hread
        cases hread
      · rw [if_neg htaken] at hread
        apply ih hread
        rw [← List.concat_eq_append, List.nodup_concat]
        exact ⟨by simpa using htaken, hsofar⟩

theorem readEnum_eq_ok_iff {space key : String} {rows : List String} {declared : Declaration.Enum} :
    readEnum space key rows = .ok declared ↔
      Usable (identifier .type key) ∧ rows.length ≤ maxEnumValues ∧
        ∃ values, readValues space key [] rows = .ok values ∧
          declared = ⟨key, identifier .type key, values⟩ := by
  unfold readEnum
  constructor
  · intro hread
    rcases Outcome.bind_eq_ok hread with ⟨name, hname, hread⟩
    rcases checkName_eq_ok_iff.mp hname with ⟨husable, rfl⟩
    split at hread
    · cases hread
    next hfew =>
      rcases Outcome.bind_eq_ok hread with ⟨values, hvalues, hread⟩
      exact ⟨husable, Nat.le_of_not_lt hfew, values, hvalues, (Except.ok.inj hread).symm⟩
  · rintro ⟨husable, hfew, values, hvalues, rfl⟩
    rw [typeName, checkName_eq_ok_iff.mpr ⟨husable, rfl⟩]
    change (if _ then _ else _) = _
    rw [if_neg (Nat.not_lt_of_le hfew), hvalues]
    rfl

theorem of_readEnum {space key : String} {rows : List String} {declared : Declaration.Enum}
    (hread : readEnum space key rows = .ok declared) :
    declared.name = identifier .type declared.tag ∧
      declared.values.length ≤ maxEnumValues ∧ declared.values.Nodup := by
  rcases readEnum_eq_ok_iff.mp hread with ⟨-, hfew, values, hvalues, rfl⟩
  have hlength := length_readValues hvalues
  rw [List.length_nil, Nat.zero_add] at hlength
  exact ⟨rfl, hlength ▸ hfew, nodup_readValues hvalues List.nodup_nil⟩

/-- Every enum of the outline satisfies what every enum that is read does. -/
def EnumsProper (outline : Outline) : Prop :=
  ∀ declared ∈ outline.enums, declared.name = Naming.identifier .type declared.tag ∧
    declared.values.length ≤ maxEnumValues ∧ declared.values.Nodup

theorem enumsProper_readEntry {outline read : Outline} {key : String} {value : Json}
    (hproper : outline.EnumsProper) (hread : readEntry outline key value = .ok read) :
    read.EnumsProper := by
  rcases readEntry_cases hread with
    ⟨-, ⟨action, objects, -, -, rfl⟩ | ⟨rows, declared, -, -, hdeclared, rfl⟩⟩
  · exact hproper
  · intro other hother
    rcases List.mem_append.mp hother with hother | hother
    · exact hproper other hother
    · rw [List.mem_singleton.mp hother]
      exact of_readEnum hdeclared

theorem duplicateName?_eq_none_iff {seen : List String} {names : List (String × String)} :
    duplicateName? seen names = none ↔
      (names.map Prod.fst).Nodup ∧ ∀ name ∈ names.map Prod.fst, name ∉ seen := by
  induction names generalizing seen with
  | nil => simp [duplicateName?]
  | cons head rest ih =>
      rw [duplicateName?, List.map_cons, List.nodup_cons, List.forall_mem_cons]
      by_cases hseen : head.1 ∈ seen
      · rw [if_pos (by simpa using hseen)]
        simp [hseen]
      · rw [if_neg (by simpa using hseen), ih]
        simp only [List.mem_cons, not_or, forall_and]
        constructor
        · rintro ⟨hnodup, hother, hfresh⟩
          exact ⟨⟨fun hmem => hother _ hmem rfl, hnodup⟩, hseen, hfresh⟩
        · rintro ⟨⟨hhead, hnodup⟩, -, hfresh⟩
          refine ⟨hnodup, ?_, hfresh⟩
          rintro name hname rfl
          exact hhead hname

theorem proper_ofDocument {document : Document} {outline : Outline}
    (hread : ofDocument document = .ok outline) : outline.Proper := by
  have hsound := sound_ofDocument hread
  rcases ofDocument_eq_ok_iff.mp hread with ⟨entries, -, hentries, hnone⟩
  have henums : outline.EnumsProper :=
    readEntries_keep (fun _ _ _ _ => enumsProper_readEntry)
      (fun _ hother => absurd hother List.not_mem_nil) hentries
  constructor
  · exact hsound
  · exact fun declared hdeclared => (henums declared hdeclared).1
  · exact fun declared hdeclared => (henums declared hdeclared).2.1
  · exact fun declared hdeclared => (henums declared hdeclared).2.2
  · exact (duplicateName?_eq_none_iff.mp hnone).1

/-! ## Names and tags -/

theorem place_eq_of_nodup_map {α β : Type} {f : α → β} {items : List α} {first second : Nat}
    {item other : α} (hnodup : (items.map f).Nodup) (hfirst : items[first]? = some item)
    (hsecond : items[second]? = some other) (hsame : f item = f other) : first = second := by
  have hlt : first < (items.map f).length := by
    rw [List.length_map]
    exact (List.getElem?_eq_some_iff.mp hfirst).1
  apply (List.getElem?_inj hlt hnodup).mp
  rw [List.getElem?_map, List.getElem?_map, hfirst, hsecond, Option.map_some, Option.map_some,
    hsame]

namespace Proper

variable {outline : Outline} (hproper : outline.Proper)

include hproper

theorem split_names :
    (outline.enums.map (·.name)).Nodup ∧ (outline.objects.map (·.name)).Nodup ∧
      ∀ type ∈ outline.enums, ∀ object ∈ outline.objects, type.name ≠ object.name := by
  have hnodup := hproper.names_nodup
  rw [typeNames, List.map_append, List.map_map, List.map_map, List.nodup_append] at hnodup
  refine ⟨hnodup.1, hnodup.2.1, ?_⟩
  intro type htype object hobject
  exact hnodup.2.2 _ (List.mem_map_of_mem htype) _ (List.mem_map_of_mem hobject)

theorem object_name_eq {object : Declaration.Object} (hobject : object ∈ outline.objects) :
    object.name = Naming.identifier .type object.tag :=
  (hproper.sound object hobject).name_eq

theorem place_eq_of_name {first second : Nat} {object other : Declaration.Object}
    (hfirst : outline.objects[first]? = some object)
    (hsecond : outline.objects[second]? = some other) (hname : object.name = other.name) :
    first = second :=
  place_eq_of_nodup_map hproper.split_names.2.1 hfirst hsecond hname

theorem place_eq_of_tag {first second : Nat} {object other : Declaration.Object}
    (hfirst : outline.objects[first]? = some object)
    (hsecond : outline.objects[second]? = some other) (htag : object.tag = other.tag) :
    first = second := by
  apply hproper.place_eq_of_name hfirst hsecond
  rw [hproper.object_name_eq (List.mem_of_getElem? hfirst),
    hproper.object_name_eq (List.mem_of_getElem? hsecond), htag]

theorem enumPlace_eq_of_name {first second : Nat} {type other : Declaration.Enum}
    (hfirst : outline.enums[first]? = some type) (hsecond : outline.enums[second]? = some other)
    (hname : type.name = other.name) : first = second :=
  place_eq_of_nodup_map hproper.split_names.1 hfirst hsecond hname

theorem enumPlace_eq_of_tag {first second : Nat} {type other : Declaration.Enum}
    (hfirst : outline.enums[first]? = some type) (hsecond : outline.enums[second]? = some other)
    (htag : type.tag = other.tag) : first = second := by
  apply hproper.enumPlace_eq_of_name hfirst hsecond
  rw [hproper.enum_name_eq _ (List.mem_of_getElem? hfirst),
    hproper.enum_name_eq _ (List.mem_of_getElem? hsecond), htag]

/-- No enum and no object have the same tag. -/
theorem tag_ne {type : Declaration.Enum} {object : Declaration.Object}
    (htype : type ∈ outline.enums) (hobject : object ∈ outline.objects) :
    type.tag ≠ object.tag := by
  intro htag
  apply hproper.split_names.2.2 type htype object hobject
  rw [hproper.enum_name_eq type htype, hproper.object_name_eq hobject, htag]

theorem objectIndex?_eq_some_iff {tag : String} {place : Nat} :
    outline.objectIndex? tag = some place ↔
      ∃ object, outline.objects[place]? = some object ∧ object.role = .object ∧
        object.tag = tag := by
  constructor
  · intro hindex
    rcases List.findIdx?_eq_some_iff_getElem.mp hindex with ⟨hlt, hfound, -⟩
    refine ⟨outline.objects[place], List.getElem?_eq_getElem hlt, ?_⟩
    simpa using hfound
  · rintro ⟨object, hobject, hrole, htag⟩
    cases hindex : outline.objectIndex? tag with
    | none =>
        rw [objectIndex?, List.findIdx?_eq_none_iff] at hindex
        have hfalse := hindex object (List.mem_of_getElem? hobject)
        simp [hrole, htag] at hfalse
    | some other =>
        rcases List.findIdx?_eq_some_iff_getElem.mp hindex with ⟨hlt, hfound, -⟩
        have hother : outline.objects[other].tag = tag := by
          simp only [Bool.and_eq_true, beq_iff_eq] at hfound
          exact hfound.2
        rw [hproper.place_eq_of_tag (List.getElem?_eq_getElem hlt) hobject (hother.trans htag.symm)]

theorem enumIndex?_eq_some_iff {tag : String} {place : Nat} :
    outline.enumIndex? tag = some place ↔
      ∃ type, outline.enums[place]? = some type ∧ type.tag = tag := by
  constructor
  · intro hindex
    rcases List.findIdx?_eq_some_iff_getElem.mp hindex with ⟨hlt, hfound, -⟩
    refine ⟨outline.enums[place], List.getElem?_eq_getElem hlt, ?_⟩
    simpa using hfound
  · rintro ⟨type, htype, htag⟩
    cases hindex : outline.enumIndex? tag with
    | none =>
        rw [enumIndex?, List.findIdx?_eq_none_iff] at hindex
        have hfalse := hindex type (List.mem_of_getElem? htype)
        simp [htag] at hfalse
    | some other =>
        rcases List.findIdx?_eq_some_iff_getElem.mp hindex with ⟨hlt, hfound, -⟩
        have hother : outline.enums[other].tag = tag := by simpa using hfound
        rw [hproper.enumPlace_eq_of_tag (List.getElem?_eq_getElem hlt) htype
          (hother.trans htag.symm)]

end Proper

end Outline
end WireSchema
