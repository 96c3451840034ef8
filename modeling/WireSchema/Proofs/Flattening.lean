import Mathlib.Data.List.Nodup
import WireSchema.Proofs.Outcomes
import WireSchema.Schema.Resolve

/-!
# Flattened fields

The fields of an object are the fields that the members of its lineage declare, one member after
another from the root down.  They are put together if no name occurs twice among them, and then the
optional ones are numbered in their order.  Here every lineage is flattened by itself; a batch
flattens what lineages share only once.
-/

namespace WireSchema

/-- No two fields have the same name. -/
def NamesDistinct (fields : List Field) : Prop := (fields.map (·.name)).Nodup

theorem NamesDistinct.of_append {front back : List Field}
    (hdistinct : NamesDistinct (front ++ back)) : NamesDistinct front := by
  rw [NamesDistinct, List.map_append, List.nodup_append] at hdistinct
  exact hdistinct.1

theorem namesDistinct_flatMap_iff {fieldsOf : Nat → List Field} {numbers : List Nat} :
    NamesDistinct (numbers.flatMap fieldsOf) ↔
      (∀ number ∈ numbers, NamesDistinct (fieldsOf number)) ∧
        numbers.Pairwise fun first second =>
          ((fieldsOf first).map (·.name)).Disjoint ((fieldsOf second).map (·.name)) := by
  rw [NamesDistinct, List.map_flatMap, List.nodup_flatMap]
  rfl

namespace Batch

variable {batch : Batch} {own : List (List Field)}

/-- The fields of a whole lineage, from the root down. -/
def lineageFields (batch : Batch) (own : List (List Field)) (inherited : List Field) :
    List Nat → Except SchemaError (List Field)
  | [] => .ok inherited
  | index :: rest => do
    let fields ← batch.extendFields index inherited ((own[index]?).getD [])
    batch.lineageFields own fields rest

/-- All fields of an object, and how many of them are inherited. -/
def flatten (batch : Batch) (own : List (List Field)) (lineage : List Nat) :
    Except SchemaError (List Field × Nat) := do
  let inherited ← batch.lineageFields own [] lineage.dropLast
  let fields ← batch.lineageFields own inherited (lineage.drop (lineage.length - 1))
  return (numberFlags 0 fields, inherited.length)

theorem lineageFields_append {inherited : List Field} (front back : List Nat) :
    batch.lineageFields own inherited (front ++ back) = (do
      let fields ← batch.lineageFields own inherited front
      batch.lineageFields own fields back) := by
  induction front generalizing inherited with
  | nil => rfl
  | cons index rest ih =>
      rw [List.cons_append, lineageFields, lineageFields]
      cases batch.extendFields index inherited ((own[index]?).getD []) with
      | error fault => rfl
      | ok fields => exact ih

theorem extendFields_eq_ok_iff {index : Nat} {inherited fields extended : List Field}
    (hinherited : NamesDistinct inherited) :
    batch.extendFields index inherited fields = .ok extended ↔
      extended = inherited ++ fields ∧ NamesDistinct (inherited ++ fields) := by
  induction fields generalizing inherited with
  | nil =>
      rw [extendFields, List.append_nil, Except.ok.injEq, eq_comm]
      exact ⟨fun hsame => ⟨hsame, hinherited⟩, fun hboth => hboth.1⟩
  | cons field rest ih =>
      have hnext : NamesDistinct (inherited ++ [field]) ↔
          ∀ held ∈ inherited, held.name ≠ field.name := by
        rw [NamesDistinct, List.map_append, List.nodup_append]
        simp [show (inherited.map (·.name)).Nodup from hinherited]
      rw [extendFields]
      cases hheld : inherited.find? (·.name == field.name) with
      | some held =>
          have hname : held.name = field.name := by simpa using List.find?_some hheld
          constructor
          · intro hrun
            cases hrun
          · rintro ⟨-, hdistinct⟩
            rw [List.append_cons] at hdistinct
            exact absurd hname (hnext.mp hdistinct.of_append held (List.mem_of_find?_eq_some hheld))
      | none =>
          have hfresh : NamesDistinct (inherited ++ [field]) := by
            apply hnext.mpr
            intro held hmem
            simpa using List.find?_eq_none.mp hheld held hmem
          dsimp only
          rw [ih hfresh, ← List.append_cons]

/-- The fields that an object declares itself, from a list of those of all objects. -/
def ownIn (own : List (List Field)) (index : Nat) : List Field := own[index]?.getD []

theorem lineageFields_eq_ok_iff {lineage : List Nat} {inherited flattened : List Field}
    (hinherited : NamesDistinct inherited) :
    batch.lineageFields own inherited lineage = .ok flattened ↔
      flattened = inherited ++ lineage.flatMap (ownIn own) ∧
        NamesDistinct (inherited ++ lineage.flatMap (ownIn own)) := by
  induction lineage generalizing inherited with
  | nil =>
      rw [lineageFields, List.flatMap_nil, List.append_nil, Except.ok.injEq, eq_comm]
      exact ⟨fun hsame => ⟨hsame, hinherited⟩, fun hboth => hboth.1⟩
  | cons index rest ih =>
      rw [lineageFields, List.flatMap_cons, ← List.append_assoc]
      constructor
      · intro hrun
        rcases Outcome.bind_eq_ok hrun with ⟨extended, hextend, hrun⟩
        rcases (extendFields_eq_ok_iff hinherited).mp hextend with ⟨rfl, hdistinct⟩
        exact (ih hdistinct).mp hrun
      · rintro ⟨hsame, hdistinct⟩
        have hextend : batch.extendFields index inherited (own[index]?.getD []) = .ok _ :=
          (extendFields_eq_ok_iff hinherited).mpr ⟨rfl, hdistinct.of_append⟩
        rw [hextend]
        exact (ih hdistinct.of_append).mpr ⟨hsame, hdistinct⟩

/-- All fields of a lineage, and how many of them its last member inherits. -/
theorem flatten_eq_ok_iff {lineage : List Nat} {fields : List Field} {ownStart : Nat} :
    batch.flatten own lineage = .ok (fields, ownStart) ↔
      NamesDistinct (lineage.flatMap (ownIn own)) ∧
        fields = numberFlags 0 (lineage.flatMap (ownIn own)) ∧
          ownStart = (lineage.dropLast.flatMap (ownIn own)).length := by
  have hempty : NamesDistinct [] := List.nodup_nil
  have hsplit : lineage.dropLast ++ lineage.drop (lineage.length - 1) = lineage := by
    rw [List.dropLast_eq_take, List.take_append_drop]
  have hall : lineage.dropLast.flatMap (ownIn own) ++
      (lineage.drop (lineage.length - 1)).flatMap (ownIn own) = lineage.flatMap (ownIn own) := by
    rw [← List.flatMap_append, hsplit]
  unfold flatten
  constructor
  · intro hrun
    rcases Outcome.bind_eq_ok hrun with ⟨inherited, hinherited, hrun⟩
    rcases Outcome.bind_eq_ok hrun with ⟨all, hrest, hrun⟩
    rcases (lineageFields_eq_ok_iff hempty).mp hinherited with ⟨rfl, hdistinct⟩
    rcases (lineageFields_eq_ok_iff hdistinct).mp hrest with ⟨rfl, hdistinct⟩
    rw [List.nil_append, hall] at hdistinct hrun
    cases hrun
    exact ⟨hdistinct, rfl, rfl⟩
  · rintro ⟨hdistinct, rfl, rfl⟩
    rw [← hall] at hdistinct ⊢
    have hinherited : batch.lineageFields own [] lineage.dropLast = .ok _ :=
      (lineageFields_eq_ok_iff hempty).mpr ⟨rfl, hdistinct.of_append⟩
    have hrest : batch.lineageFields own _ (lineage.drop (lineage.length - 1)) = .ok _ :=
      (lineageFields_eq_ok_iff hdistinct.of_append).mpr ⟨rfl, hdistinct⟩
    rw [List.nil_append] at hinherited
    rw [hinherited]
    change (do
      let fields ← batch.lineageFields own _ _
      return (numberFlags 0 fields, _)) = _
    rw [hrest]
    rfl

theorem exists_flatten_iff {lineage : List Nat} :
    (∃ flattened, batch.flatten own lineage = .ok flattened) ↔
      NamesDistinct (lineage.flatMap (ownIn own)) := by
  constructor
  · rintro ⟨⟨fields, ownStart⟩, hrun⟩
    exact (flatten_eq_ok_iff.mp hrun).1
  · intro hdistinct
    exact ⟨(_, _), flatten_eq_ok_iff.mpr ⟨hdistinct, rfl, rfl⟩⟩

/-! ## Numbers of presence bits -/

/-- A field with its presence bit, which an optional one has. -/
def flagged (bit : Nat) (field : Field) : Field :=
  { field with flagBit := if field.isOptional then some bit else none }

theorem numberFlags_cons (bit : Nat) (field : Field) (rest : List Field) :
    numberFlags bit (field :: rest) =
      flagged bit field :: numberFlags (bit + if field.isOptional then 1 else 0) rest := by
  rw [numberFlags]
  cases hoptional : field.isOptional <;> simp [flagged, hoptional]

theorem numberFlags_append (bit : Nat) (front back : List Field) :
    numberFlags bit (front ++ back) =
      numberFlags bit front ++ numberFlags (bit + front.countP (·.isOptional)) back := by
  induction front generalizing bit with
  | nil => rfl
  | cons field rest ih =>
      rw [List.cons_append, numberFlags_cons, numberFlags_cons, List.cons_append, ih,
        List.countP_cons, Nat.add_assoc, Nat.add_comm (List.countP _ rest)]

theorem length_numberFlags (bit : Nat) (fields : List Field) :
    (numberFlags bit fields).length = fields.length := by
  induction fields generalizing bit with
  | nil => rfl
  | cons field rest ih => rw [numberFlags_cons, List.length_cons, List.length_cons, ih]

theorem numberFlags_numberFlags (bit other : Nat) (fields : List Field) :
    numberFlags bit (numberFlags other fields) = numberFlags bit fields := by
  induction fields generalizing bit other with
  | nil => rfl
  | cons field rest ih =>
      rw [numberFlags_cons, numberFlags_cons, numberFlags_cons, ih]
      rfl

/-- The optional fields have consecutive bits, in their order. -/
theorem filterMap_flagBit_numberFlags (bit : Nat) (fields : List Field) :
    (numberFlags bit fields).filterMap (·.flagBit) =
      List.range' bit (fields.countP (·.isOptional)) := by
  induction fields generalizing bit with
  | nil => rfl
  | cons field rest ih =>
      rw [numberFlags_cons, List.countP_cons]
      cases hoptional : field.isOptional
      · simp [flagged, hoptional, ih]
      · simp [flagged, hoptional, ih, List.range'_succ]

theorem countP_isOptional_numberFlags (bit : Nat) (fields : List Field) :
    (numberFlags bit fields).countP (·.isOptional) = fields.countP (·.isOptional) := by
  induction fields generalizing bit with
  | nil => rfl
  | cons field rest ih =>
      rw [numberFlags_cons, List.countP_cons, List.countP_cons, ih]
      rfl

/-- Nothing but the numbers of presence bits is changed. -/
theorem map_numberFlags {α : Type} {f : Field → α}
    (hf : ∀ bit field, f (flagged bit field) = f field) (bit : Nat) (fields : List Field) :
    (numberFlags bit fields).map f = fields.map f := by
  induction fields generalizing bit with
  | nil => rfl
  | cons field rest ih => rw [numberFlags_cons, List.map_cons, List.map_cons, ih, hf]

theorem forall₂_numberFlags {α : Type} {relation : α → Field → Prop}
    (hrelation : ∀ item field bit, relation item field → relation item (flagged bit field))
    {items : List α} {fields : List Field} (hall : List.Forall₂ relation items fields) (bit : Nat) :
    List.Forall₂ relation items (numberFlags bit fields) := by
  induction hall generalizing bit with
  | nil => exact .nil
  | cons hfirst _ ih =>
      rw [numberFlags_cons]
      exact .cons (hrelation _ _ _ hfirst) (ih _)

theorem exists_of_mem_numberFlags {bit : Nat} {fields : List Field} {field : Field}
    (hfield : field ∈ numberFlags bit fields) :
    ∃ original ∈ fields, ∃ place, field = flagged place original := by
  induction fields generalizing bit with
  | nil => cases hfield
  | cons head rest ih =>
      rw [numberFlags_cons] at hfield
      rcases List.mem_cons.mp hfield with rfl | hfield
      · exact ⟨head, List.mem_cons_self, bit, rfl⟩
      · rcases ih hfield with ⟨original, horiginal, hsame⟩
        exact ⟨original, List.mem_cons_of_mem _ horiginal, hsame⟩

end Batch
end WireSchema
