import WireSchema.Proofs.Completeness
import WireSchema.Proofs.RoundTrip

/-!
# What a well-typed record guarantees

Nothing is amiss in a well-typed record at any level: there is a slot for every field, no slot
holds what its field does not take, instants are cut to milliseconds, and no payload is nested.
Measuring and writing it may find a required value missing or the room too small, and nothing else
wrong.
-/

namespace WireSchema

variable {schema : Schema}

/-! ## Instants -/

/-- All instants in a value are cut to milliseconds if those outside of its records are. -/
theorem Value.WellTyped.truncated_of_contains {value inner : Value}
    (hcontains : value.Contains inner) (htyped : value.WellTyped schema)
    (hwhole : value.truncated = value) : inner.truncated = inner := by
  induction hcontains with
  | self => exact hwhole
  | item hitem hvalue ih => exact ih (htyped.item hitem) (Value.truncated_of_mem hwhole hitem)
  | slot hslot hvalue ih =>
      obtain ⟨field, -, haccepts⟩ := exists_field_of_mem htyped.self.slots hslot
      exact ih (htyped.slot hslot) (haccepts _ rfl).2

/-! ## Nested records -/

/-- A value of a field holds no payload, since no field is of a type that is one. -/
theorem Value.Suits.not_isPayload (hgraph : schema.graph.Coherent) {type : FieldType}
    {value : Value} {nested : Record} (hcontains : value.Contains (.record nested))
    (hsuits : value.Suits schema type) (hinner : schema.graph.IsInner type) :
    (nested.typeIn schema).isPayload = false := by
  generalize hfound : Value.record nested = found at hcontains
  induction hcontains generalizing type with
  | self =>
      subst hfound
      obtain ⟨id, rfl, -, hisA⟩ := Schema.exists_object_of_admits hsuits.admits
      exact hgraph.isPayload_of_isA nested.type id hisA (hinner id rfl)
  | item hitem hvalue ih =>
      obtain ⟨element, rfl⟩ := Schema.exists_array_of_admits hsuits.admits
      exact ih (hsuits.item _ hitem) hinner hfound
  | slot hslot hvalue ih =>
      obtain ⟨field, hfield, hheld⟩ :=
        exists_field_of_mem (Record.WellTyped.suits hsuits.typed) hslot
      exact ih (hheld _ rfl) (hgraph.isPayload_target _ field hfield) hfound

/-! ## Faults -/

/-- The image of a well-typed record is complete, or it lacks the value of a field. -/
theorem Record.WellTyped.image_cases (hgraph : schema.graph.Coherent) {record : Record}
    (htyped : record.WellTyped schema) :
    (∃ data, record.image schema = .ok data) ∨
      ∃ owner field, record.image schema = .error (.missingField owner field) := by
  rcases Record.image_tells hgraph record htyped with ⟨data, hdata, -⟩ | ⟨owner, field, hlacks, -⟩
  · exact .inl ⟨data, hdata⟩
  · exact .inr ⟨owner, field, hlacks⟩

theorem Record.WellTyped.encodedSize_ne (hgraph : schema.graph.Coherent) {record : Record}
    (htyped : record.WellTyped schema) (owner field expected : String) :
    record.encodedSize schema ≠ .error (.typeMismatch owner field expected) := by
  intro hmismatch
  rw [Record.encodedSize_eq hgraph record htyped] at hmismatch
  rcases htyped.image_cases hgraph with ⟨data, hdata⟩ | ⟨missing, name, hlacks⟩
  · rw [hdata] at hmismatch
    cases hmismatch
  · rw [hlacks] at hmismatch
    cases hmismatch

/-- Writing a well-typed record fails for a missing value or for lack of room. -/
theorem Record.WellTyped.encode_cases (hgraph : schema.graph.Coherent) {record : Record}
    (htyped : record.WellTyped schema) {writer left : Writer} {failure : Failure}
    (hrun : record.encode schema writer = .error failure left) :
    (∃ owner field, failure = .fault (.missingField owner field)) ∨
      ∃ stop, Writing.OutOfRoom stop failure := by
  rcases (Record.emits_encode schema record).failure_cases hrun with ⟨fault, himage, rfl⟩ | hroom
  · rcases htyped.image_cases hgraph with ⟨data, hdata⟩ | ⟨owner, field, hlacks⟩
    · rw [hdata] at himage
      cases himage
    · rw [hlacks] at himage
      cases himage
      exact .inl ⟨owner, field, rfl⟩
  · exact .inr hroom

/-! ## All together -/

/-- All that holds of a record that is well typed. -/
structure Record.Guaranteed (schema : Schema) (record : Record) : Prop where
  /-- Nested records belong to the same schema. -/
  schema_eq : ∀ inner, (Value.record record).Contains (.record inner) →
    inner.schema = schema.number
  length_slots : ∀ inner, (Value.record record).Contains (.record inner) →
    inner.slots.length = (inner.typeIn schema).fields.length
  admits : ∀ inner, (Value.record record).Contains (.record inner) →
    ∀ entry ∈ inner.entries schema, ∀ value ∈ entry.2,
      schema.admits entry.1.type value = true
  nanos_eq : ∀ instant, (Value.record record).Contains (.datetime instant) →
    instant.nanos % 1000000 = 0
  not_isPayload : ∀ held, some held ∈ record.slots →
    ∀ inner, held.Contains (.record inner) → (inner.typeIn schema).isPayload = false
  encodedSize_ne : ∀ owner field expected,
    record.encodedSize schema ≠ .error (.typeMismatch owner field expected)
  encode_ne : ∀ writer failure left, record.encode schema writer = .error failure left →
    (∀ owner field expected, failure ≠ .fault (.typeMismatch owner field expected)) ∧
      ∀ owner, failure ≠ .fault (.notAPayload owner)
  index_lt : ∀ inner, (Value.record record).Contains (.record inner) →
    ∀ field index, inner.indexOf schema field = .ok index → index < inner.slots.length

theorem Record.Fits.length_slots {record : Record} (hfits : record.Fits schema) :
    record.slots.length = (record.typeIn schema).fields.length := hfits.slots.length_eq.symm

theorem Record.indexOf_lt {record : Record} {field : String} {index : Nat}
    (hindex : record.indexOf schema field = .ok index) :
    index < (record.typeIn schema).fields.length := by
  unfold Record.indexOf at hindex
  split at hindex
  next found hfound =>
    cases hindex
    exact (List.findIdx?_eq_some_iff_findIdx_eq.mp hfound).1
  next => cases hindex

theorem Record.WellTyped.guaranteed (hgraph : schema.graph.Coherent) {record : Record}
    (htyped : record.WellTyped schema) : record.Guaranteed schema := by
  have hfits : ∀ inner, (Value.record record).Contains (.record inner) → inner.Fits schema :=
    fun inner hinner => htyped (.record inner) hinner
  constructor
  · exact fun inner hinner => (hfits inner hinner).schema_eq
  · exact fun inner hinner => (hfits inner hinner).length_slots
  · intro inner hinner entry hentry value hvalue
    have hslots := (List.forall₂_iff_zip.mp (hfits inner hinner).slots).2 hentry
    exact (hslots value hvalue).1
  · intro instant hinstant
    have hwhole := Value.WellTyped.truncated_of_contains hinstant htyped rfl
    rw [Value.truncated, Value.datetime.injEq] at hwhole
    exact (Time.Instant.truncated_eq_self_iff instant).mp hwhole
  · intro held hheld inner hinner
    obtain ⟨field, hfield, hslot⟩ := exists_field_of_mem htyped.suits hheld
    exact (hslot held rfl).not_isPayload hgraph hinner
      (hgraph.isPayload_target record.type field hfield)
  · exact htyped.encodedSize_ne hgraph
  · intro writer failure left hrun
    rcases htyped.encode_cases hgraph hrun with ⟨owner, field, rfl⟩ | ⟨stop, hout⟩
    · exact ⟨by simp, by simp⟩
    · cases hout with
      | overflow offset need => exact ⟨by simp, by simp⟩
      | panic hstop => exact ⟨by simp, by simp⟩
  · intro inner hinner field index hindex
    rw [(hfits inner hinner).length_slots]
    exact Record.indexOf_lt hindex

end WireSchema
