import WireSchema.Proofs.Acceptance
import WireSchema.Proofs.Listing

/-!
# Enums of a compiled graph

Every enum of a graph is declared by an entry of a document, the value names of which are made of
the rows of that entry, in their order.  There are between 1 and 256 of them, and they are all
different; hence a byte stands for at most one name, and a name for exactly one byte.
-/

namespace WireSchema

open Grammar (Distinguished Usable)
open Naming (identifier)

/-! ## Enums of a document -/

/-- The rows of an enum with a key. -/
structure Declaration.Enum.Lists (rows : List String) (declared : Declaration.Enum) : Prop where
  rows_ne : rows ≠ []
  length_le : rows.length ≤ Outline.maxEnumValues
  name_eq : declared.name = identifier .type declared.tag
  usable : Usable declared.name
  values_eq : declared.values = rows.map (identifier .field)
  distinguished : Distinguished rows

namespace Outline

theorem values_of_readValues {space owner : String} {sofar rows values : List String}
    (hread : readValues space owner sofar rows = .ok values) :
    values = sofar ++ rows.map (identifier .field) := by
  induction rows generalizing sofar with
  | nil =>
      cases hread
      simp
  | cons row rest ih =>
      rw [readValues] at hread
      rcases Outcome.bind_eq_ok hread with ⟨value, hvalue, hread⟩
      rcases checkName_eq_ok_iff.mp hvalue with ⟨-, rfl⟩
      split at hread
      · cases hread
      · rw [ih hread, List.append_assoc]
        rfl

theorem lists_of_readEnum {space key : String} {rows : List String} {declared : Declaration.Enum}
    (hrows : rows ≠ []) (hread : readEnum space key rows = .ok declared) :
    declared.tag = key ∧ declared.Lists rows := by
  rcases readEnum_eq_ok_iff.mp hread with ⟨husable, hfew, values, hvalues, rfl⟩
  have hfresh := exists_readValues_iff.mp ⟨values, hvalues⟩
  refine ⟨rfl, hrows, hfew, rfl, husable, ?_, Grammar.fresh_nil_left_iff.mp hfresh⟩
  exact values_of_readValues hvalues

/-- What an outline has of enums was there before or is declared by an entry. -/
theorem exists_entry_of_readEntries {outline read : Outline} {entries : List (String × Json)}
    (hread : readEntries outline entries = .ok read) {declared : Declaration.Enum}
    (hdeclared : declared ∈ read.enums) :
    declared ∈ outline.enums ∨
      ∃ rows, (declared.tag, .array (rows.map .string)) ∈ entries ∧ declared.Lists rows := by
  induction entries generalizing outline with
  | nil =>
      cases hread
      exact .inl hdeclared
  | cons entry rest ih =>
      rcases entry with ⟨key, value⟩
      rw [readEntries] at hread
      rcases Outcome.bind_eq_ok hread with ⟨middle, hmiddle, hread⟩
      rcases ih hread with hbefore | ⟨rows, hentry, hlists⟩
      · rcases readEntry_cases hmiddle with
          ⟨-, ⟨action, objects, -, -, rfl⟩ | ⟨rows, other, hrows, rfl, hother, rfl⟩⟩
        · exact .inl hbefore
        · rcases List.mem_append.mp hbefore with hbefore | hbefore
          · exact .inl hbefore
          · cases List.mem_singleton.mp hbefore
            rcases lists_of_readEnum hrows hother with ⟨rfl, hlists⟩
            exact .inr ⟨rows, List.mem_cons_self, hlists⟩
      · exact .inr ⟨rows, List.mem_cons_of_mem _ hentry, hlists⟩

theorem exists_entry_of_ofDocument {document : Document} {outline : Outline}
    (hread : ofDocument document = .ok outline) {declared : Declaration.Enum}
    (hdeclared : declared ∈ outline.enums) :
    ∃ entries rows, document.root = .object entries ∧
      (declared.tag, .array (rows.map .string)) ∈ entries ∧ declared.Lists rows := by
  rcases ofDocument_eq_ok_iff.mp hread with ⟨entries, hroot, hentries, -⟩
  rcases exists_entry_of_readEntries hentries hdeclared with hnone | ⟨rows, hentry, hlists⟩
  · cases hnone
  · exact ⟨entries, rows, hroot, hentry, hlists⟩

end Outline

/-! ## Enums of a graph -/

/-- An enum of a graph is declared by an entry of a document, which is an array of its rows. -/
structure EnumType.DeclaredBy (document : Document) (rows : List String) (type : EnumType) :
    Prop where
  space_eq : type.space = document.space
  entry : ∃ entries, document.root = .object entries ∧
    (type.tag, .array (rows.map .string)) ∈ entries
  lists : (⟨type.tag, type.name, type.values⟩ : Declaration.Enum).Lists rows

theorem Graph.exists_declaredBy_of_compile {documents : List Document} {graph : Graph}
    (hcompile : Graph.compile documents = .ok graph) {number : Nat} {type : EnumType}
    (htype : graph.enums[number]? = some type) :
    ∃ document ∈ documents, ∃ rows, type.DeclaredBy document rows := by
  rcases exists_reading_of_compile hcompile with
    ⟨outlines, batch, found, hread, hnumbers, hfound, rfl⟩
  rcases hnumbers.exists_enum_place htype with ⟨home, hhome, place, declared, hdeclared, -, rfl⟩
  have houtline : home.outline ∈ outlines := hnumbers.outline_mem hhome
  rcases Outcome.exists_mem_of_mapM hread houtline with ⟨document, hdocument, houtline⟩
  rcases Outline.exists_entry_of_ofDocument houtline (List.mem_of_getElem? hdeclared) with
    ⟨entries, rows, hroot, hentry, hlists⟩
  exact ⟨document, hdocument, rows, Outline.space_ofDocument houtline, ⟨entries, hroot, hentry⟩,
    hlists⟩

end WireSchema
