import WireSchema.Codec.Decoding
import WireSchema.Proofs.Presence

/-!
# Decoding as one reading after another

Items and slots are read with what was read before at hand, so that an interrupted reading can
leave it behind.  Where only the outcome counts, the values that follow are read and the first one
is put in front of them.
-/

namespace WireSchema

/-- A number of items, one after another. -/
def itemsReading (read : Reading Value) : Nat → Reading (List Value)
  | 0 => pure []
  | count + 1 => do
    let item ← read
    let rest ← itemsReading read count
    return item :: rest

theorem readItems_eq (read : Reading Value) (count : Nat) (sofar : List Value) :
    readItems read count sofar = (sofar.reverse ++ ·) <$> itemsReading read count := by
  induction count generalizing sofar with
  | zero => simp [readItems, itemsReading]
  | succ count ih =>
      simp only [readItems, itemsReading, ih, List.reverse_cons, List.append_assoc,
        List.singleton_append, map_eq_pure_bind, bind_assoc, pure_bind]

/-- The slots of fields; an optional field has a value if its presence bit is set. -/
def slotsReading (read : FieldType → Reading Value) (flags : FlagBits) :
    List Field → Reading (List (Option Value))
  | [] => pure []
  | field :: rest =>
    let (present, flags) := if field.isOptional then flags.next else (true, flags)
    if present then do
      let value ← read field.type
      let more ← slotsReading read flags rest
      return some value :: more
    else (none :: ·) <$> slotsReading read flags rest

variable {read : FieldType → Reading Value} {flags left : FlagBits} {field : Field}
  {rest : List Field}

theorem slotsReading_of_present
    (htaken : (if field.isOptional then flags.next else (true, flags)) = (true, left)) :
    slotsReading read flags (field :: rest) = (do
      let value ← read field.type
      let more ← slotsReading read left rest
      return some value :: more) := by
  rw [slotsReading, htaken]
  rfl

theorem slotsReading_of_absent
    (htaken : (if field.isOptional then flags.next else (true, flags)) = (false, left)) :
    slotsReading read flags (field :: rest) = (none :: ·) <$> slotsReading read left rest := by
  rw [slotsReading, htaken]
  rfl

/-- Only the presence bit of an optional field is looked at. -/
theorem Field.isOptional_of_absent
    (htaken : (if field.isOptional then flags.next else (true, flags)) = (false, left)) :
    field.isOptional = true := by
  cases hoptional : field.isOptional with
  | true => rfl
  | false =>
      rw [hoptional, if_neg Bool.false_ne_true] at htaken
      cases htaken

theorem readSlots_eq (read : FieldType → Reading Value) (flags : FlagBits)
    (sofar : List (Option Value)) (fields : List Field) :
    EStateM.adaptExcept Interruption.cause (readSlots read flags sofar fields) =
      (sofar.reverse ++ ·) <$> slotsReading read flags fields := by
  induction fields generalizing flags sofar with
  | nil =>
      rw [readSlots, slotsReading, map_pure, List.append_nil]
      rfl
  | cons field rest ih =>
      rw [readSlots, slotsReading]
      generalize (if field.isOptional then flags.next else (true, flags)) = taken
      obtain ⟨present, flags⟩ := taken
      cases present with
      | false =>
          have hrest := ih flags (none :: sofar)
          rw [List.reverse_cons] at hrest
          simp only [Bool.false_eq_true, if_false, Functor.map_map] at hrest ⊢
          simpa using hrest
      | true =>
          funext reader
          simp only [if_true, map_bind]
          cases hread : read field.type reader with
          | ok value left =>
              have hrest := congrFun (ih flags (some value :: sofar)) left
              rw [List.reverse_cons] at hrest
              rw [Action.bind_of_ok hread]
              simp only [map_eq_pure_bind, pure_bind, List.append_assoc,
                List.singleton_append] at hrest ⊢
              rw [← hrest]
              apply Action.adaptExcept_congr
              rw [hread]
          | error fault left =>
              rw [Action.bind_of_error hread]
              change _ = EStateM.Result.error (Interruption.cause ⟨fault, sofar.reverse⟩) left
              apply Action.adaptExcept_of_error
              rw [hread]

/-- The body of an object, if nothing has to be left behind. -/
theorem ObjectType.readBody_eq (type : ObjectType) (read : FieldType → Reading Value) :
    EStateM.adaptExcept Interruption.cause (type.readBody read) =
      FlagBits.read type.layout.flagBytes >>= fun flags => slotsReading read flags type.fields := by
  funext reader
  unfold ObjectType.readBody
  cases hread : FlagBits.read type.layout.flagBytes reader with
  | ok flags left =>
      have hslots := congrFun (readSlots_eq read flags [] type.fields) left
      rw [Action.bind_of_ok hread]
      simp only [List.reverse_nil, List.nil_append, id_map'] at hslots
      rw [← hslots]
      apply Action.adaptExcept_congr
      exact Action.bind_of_ok (Action.adaptExcept_of_ok hread)
  | error fault left =>
      rw [Action.bind_of_error hread]
      have hbody := Action.bind_of_error (f := fun flags => readSlots read flags [] type.fields)
        (Action.adaptExcept_of_error (g := (Interruption.mk · [])) hread)
      exact Action.adaptExcept_of_error (g := Interruption.cause) hbody

end WireSchema
