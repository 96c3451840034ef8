import WireSchema.Proofs.RoundTrip

/-!
# The slot of one field

The image of the slots of a record consists of those of the slots before a field, of its own slot and
of the slots behind it.  Whatever value fills the slot of the field, the bytes before and behind it
are the same, and if the bytes of the value are refused, the whole image is.
-/

namespace WireSchema

open Reading (Recovers Refuses)

variable {schema : Schema}

/-! ## Images -/

theorem Image.join_assoc (first second third : Image) :
    Image.join (Image.join first second) third = Image.join first (Image.join second third) := by
  cases first with
  | error fault => rfl
  | ok front =>
      cases second with
      | error fault => rfl
      | ok middle =>
          cases third with
          | error fault => rfl
          | ok back => rw [join_ok, join_ok, join_ok, join_ok, List.append_assoc]

theorem Image.join_nil_left (image : Image) : Image.join (.ok []) image = image := by
  cases image <;> rfl

theorem Image.join_nil_right (image : Image) : Image.join image (.ok []) = image := by
  cases image with
  | error fault => rfl
  | ok data => rw [join_ok, List.append_nil]

theorem Record.slotsImage_append {owner : String} {fields others : List Field}
    {slots more : List (Option Value)} (hlength : fields.length = slots.length) :
    Record.slotsImage schema owner (fields ++ others) (slots ++ more) =
      Image.join (Record.slotsImage schema owner fields slots)
        (Record.slotsImage schema owner others more) := by
  induction slots generalizing fields with
  | nil =>
      obtain rfl := List.eq_nil_of_length_eq_zero hlength
      rw [List.nil_append, List.nil_append, Record.slotsImage, Image.join_nil_left]
  | cons slot rest ih =>
      obtain ⟨field, fields, rfl⟩ := List.exists_cons_of_length_eq_add_one hlength
      have hrest := @ih fields (by simpa using hlength)
      cases slot with
      | none =>
          simp only [List.cons_append, Record.slotsImage, hrest]
          split
          · rfl
          · rfl
      | some value => simp only [List.cons_append, Record.slotsImage, hrest, Image.join_assoc]

/-- A list is what stands before an item, the item, and what stands behind it. -/
theorem take_append_cons_drop {α : Type} {items : List α} {index : Nat} {item : α}
    (hitem : items[index]? = some item) :
    items.take index ++ item :: items.drop (index + 1) = items := by
  obtain ⟨hlt, rfl⟩ := List.getElem?_eq_some_iff.mp hitem
  rw [List.getElem_cons_drop, List.take_append_drop]

/-- What is in a slot changes its own part of the image only. -/
theorem Record.slotsImage_set {owner : String} {fields : List Field} {slots : List (Option Value)}
    (hlength : fields.length = slots.length) {index : Nat} {field : Field}
    (hfield : fields[index]? = some field) (slot : Option Value) :
    Record.slotsImage schema owner fields (slots.set index slot) =
      Image.join (Record.slotsImage schema owner (fields.take index) (slots.take index))
        (Image.join (Record.slotsImage schema owner [field] [slot])
          (Record.slotsImage schema owner (fields.drop (index + 1))
            (slots.drop (index + 1)))) := by
  have hlt : index < slots.length := hlength ▸ (List.getElem?_eq_some_iff.mp hfield).1
  conv_lhs =>
    rw [← take_append_cons_drop hfield, List.set_eq_take_append_cons_drop, if_pos hlt,
      ← List.singleton_append, ← List.singleton_append (l := slots.drop (index + 1))]
  rw [Record.slotsImage_append (by simp [hlength]), Record.slotsImage_append rfl]

theorem Record.exists_slotsImage_parts {owner : String} {fields : List Field}
    {slots : List (Option Value)} (hlength : fields.length = slots.length) {index : Nat}
    {field : Field} (hfield : fields[index]? = some field) {value : Value} {body : List UInt8}
    (hbody : Record.slotsImage schema owner fields (slots.set index (some value)) = .ok body) :
    ∃ before data behind,
      Record.slotsImage schema owner (fields.take index) (slots.take index) = .ok before ∧
      Value.image schema owner field field.type value = .ok data ∧
      Record.slotsImage schema owner (fields.drop (index + 1)) (slots.drop (index + 1)) =
        .ok behind ∧
      body = before ++ (data ++ behind) := by
  rw [Record.slotsImage_set hlength hfield] at hbody
  obtain ⟨before, other, hbefore, hother, rfl⟩ := Image.join_eq_ok hbody
  obtain ⟨data, behind, hdata, hbehind, rfl⟩ := Image.join_eq_ok hother
  rw [Record.slotsImage, Record.slotsImage, Image.join_nil_right] at hdata
  exact ⟨before, data, behind, hbefore, hdata, hbehind, rfl⟩

/-! ## Presence bits -/

theorem presenceBits_congr (fields : List Field) {slots others : List (Option Value)}
    (hsame : slots.map (·.isSome) = others.map (·.isSome)) :
    presenceBits fields slots = presenceBits fields others := by
  have hbits (slots : List (Option Value)) : presenceBits fields slots =
      ((fields.zip (slots.map (·.isSome))).filter (·.1.isOptional)).map (·.2) := by
    rw [List.zip_map_right, List.filter_map, List.map_map]
    rfl
  rw [hbits, hbits, hsame]

theorem presenceBits_set_some (fields : List Field) {slots : List (Option Value)} {index : Nat}
    {held : Value} (hheld : slots[index]? = some (some held)) (value : Value) :
    presenceBits fields (slots.set index (some value)) = presenceBits fields slots := by
  apply presenceBits_congr
  apply List.ext_getElem?
  intro place
  rw [List.map_set, List.getElem?_set, List.getElem?_map]
  split
  next hplace =>
    subst hplace
    obtain ⟨hlt, hsame⟩ := List.getElem?_eq_some_iff.mp hheld
    simp [hlt, hsame]
  next => rfl

/-! ## Refusals -/

/-- The slots before a field are read, and then the bytes of its value are refused. -/
theorem Record.refuses_slotsReading (hgraph : schema.graph.Coherent) {levels : Nat} {owner : String}
    {front rest : List Field} {held more : List (Option Value)}
    (hinner : ∀ field ∈ front, schema.graph.IsInner field.type)
    (hheld : List.Forall₂ (Field.SlotHolds (Value.Travels schema levels)) front held)
    {before : List UInt8} (hbefore : Record.slotsImage schema owner front held = .ok before)
    {field : Field} {data : List UInt8} {Causes : CodecError → Prop}
    (hrefuses : Refuses (readValue schema.graph (schema.readObject levels) field.type) data Causes)
    {value : Value} {flags : FlagBits}
    (hoffers : flags.Offers (presenceBits (front ++ field :: rest) (held ++ some value :: more)))
    (behind : List UInt8) :
    Refuses (slotsReading (readValue schema.graph (schema.readObject levels)) flags
      (front ++ field :: rest)) (before ++ (data ++ behind)) Causes := by
  induction hheld generalizing before flags with
  | nil =>
      cases hbefore
      obtain ⟨left, htaken, -⟩ := hoffers.cons (.inr rfl)
      rw [List.nil_append, List.nil_append, slotsReading_of_present htaken]
      exact hrefuses.bind _ behind
  | @cons head slot front held hslot _ ih =>
      obtain ⟨hinnerHead, hinnerFront⟩ := List.forall_mem_cons.mp hinner
      cases slot with
      | none =>
          rw [Record.slotsImage] at hbefore
          split at hbefore
          next hoptional =>
            obtain ⟨left, htaken, hoffers'⟩ := hoffers.cons (.inl hoptional)
            rw [List.cons_append, slotsReading_of_absent htaken]
            exact (ih hinnerFront hbefore hoffers').map _
          next => cases hbefore
      | some first =>
          rw [Record.slotsImage] at hbefore
          obtain ⟨one, two, hone, htwo, rfl⟩ := Image.join_eq_ok hbefore
          obtain ⟨left, htaken, hoffers'⟩ := hoffers.cons (.inr rfl)
          rw [List.cons_append, slotsReading_of_present htaken, List.append_assoc]
          have hrecovers := Value.recovers_readValue hgraph levels owner head head.type first one
            hinnerHead (hslot first rfl) hone
          exact hrecovers.refuses ((ih hinnerFront htwo hoffers').bind_self _)

end WireSchema
