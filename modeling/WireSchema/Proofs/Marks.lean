import WireSchema.Proofs.Lookup
import WireSchema.Proofs.RoundTrip

/-!
# Presence bits and fields

The optional fields of an object are numbered in their order, and the number of a field is that of
its presence bit.  The encoder sets this bit if the slot of the field is filled, and the decoder
fills the slot if the bit is set.  No other field has to do with it.
-/

namespace WireSchema

theorem Graph.numbered_of_compile {documents : List Document} {graph : Graph}
    (hcompile : Graph.compile documents = .ok graph) (id : ObjectId) :
    Batch.numberFlags 0 (graph.object id).fields = (graph.object id).fields := by
  rcases exists_batch_of_compile hcompile with ⟨outlines, batch, found, -, hfound, rfl⟩
  exact Batch.numberFlags_graph hfound id

theorem Graph.namesDistinct_of_compile {documents : List Document} {graph : Graph}
    (hcompile : Graph.compile documents = .ok graph) (id : ObjectId) :
    NamesDistinct (graph.object id).fields := by
  rcases exists_batch_of_compile hcompile with ⟨outlines, batch, found, -, hfound, rfl⟩
  exact Batch.namesDistinct_graph hfound id

/-- The first of numbered fields has the first number if it is optional, and none otherwise. -/
theorem Batch.numbered_cons {first : Nat} {field : Field} {rest : List Field}
    (hnumbered : numberFlags first (field :: rest) = field :: rest) :
    field.flagBit = (if field.isOptional then some first else none) ∧
      numberFlags (first + if field.isOptional then 1 else 0) rest = rest := by
  rw [numberFlags_cons, List.cons.injEq] at hnumbered
  exact ⟨(congrArg Field.flagBit hnumbered.1).symm, hnumbered.2⟩

/-! ## Bits that are written -/

/-- Whether presence bits say that a field has a value.  A required field has no bit and always has
a value. -/
def Field.isMarked (bytes : List UInt8) (field : Field) : Bool :=
  field.flagBit.all (FlagBits.bitAt bytes)

/-- The slots that are filled are those of the fields that are marked. -/
theorem marked_slotsReading {read : FieldType → Reading Value} {bytes : List UInt8}
    {position : Nat} {fields : List Field}
    (hnumbered : Batch.numberFlags position fields = fields) {reader left : Reader}
    {slots : List (Option Value)}
    (hrun : slotsReading read ⟨bytes, position⟩ fields reader = .ok slots left) :
    List.Forall₂ (fun field slot => slot.isSome = field.isMarked bytes) fields slots := by
  induction fields generalizing position reader slots with
  | nil =>
      cases hrun
      exact .nil
  | cons field rest ih =>
      obtain ⟨hflag, hmore⟩ := Batch.numbered_cons hnumbered
      cases hoptional : field.isOptional with
      | false =>
          have htaken : (if field.isOptional then FlagBits.next ⟨bytes, position⟩
              else (true, ⟨bytes, position⟩)) = (true, ⟨bytes, position⟩) := by
            rw [hoptional, if_neg Bool.false_ne_true]
          rw [slotsReading_of_present htaken] at hrun
          obtain ⟨value, middle, -, hrun⟩ := Action.bind_eq_ok hrun
          obtain ⟨more, behind, hrest, hrun⟩ := Action.bind_eq_ok hrun
          cases hrun
          simp only [hoptional, Bool.false_eq_true, if_false, Nat.add_zero] at hmore hflag
          exact .cons (by simp [Field.isMarked, hflag]) (ih hmore hrest)
      | true =>
          simp only [hoptional, if_true] at hmore hflag
          have htaken : (if field.isOptional then FlagBits.next ⟨bytes, position⟩
              else (true, ⟨bytes, position⟩)) =
                (FlagBits.bitAt bytes position, ⟨bytes, position + 1⟩) := by
            rw [hoptional, if_pos rfl]
            rfl
          cases hbit : FlagBits.bitAt bytes position with
          | false =>
              rw [hbit] at htaken
              rw [slotsReading_of_absent htaken, map_eq_pure_bind] at hrun
              obtain ⟨more, behind, hrest, hrun⟩ := Action.bind_eq_ok hrun
              cases hrun
              exact .cons (by simp [Field.isMarked, hflag, hbit]) (ih hmore hrest)
          | true =>
              rw [hbit] at htaken
              rw [slotsReading_of_present htaken] at hrun
              obtain ⟨value, middle, -, hrun⟩ := Action.bind_eq_ok hrun
              obtain ⟨more, behind, hrest, hrun⟩ := Action.bind_eq_ok hrun
              cases hrun
              exact .cons (by simp [Field.isMarked, hflag, hbit]) (ih hmore hrest)

end WireSchema
