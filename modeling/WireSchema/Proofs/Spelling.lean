import WireSchema.Json.Reader
import WireSchema.Json.Writer
import WireSchema.Proofs.Keys

/-!
# Texts of values

A value is written on one line, or over several with blanks between its parts.  The blanks say
nothing: a reader that accepts such a text finds the value that was written and stops where the text
ends.  Only numbers may come back in another form, since an integer that is too large is read as a
real number.
-/

namespace WireSchema
namespace Json

/-! ## Layouts -/

/-- The blanks of a text: before an item at some level, and between a name and its value. -/
structure Layout where
  gap : Nat → List Char
  colon : List Char
  blank_gap : ∀ level, ∀ c ∈ gap level, isJsonBlank c = true
  blank_colon : ∀ c ∈ colon, isJsonBlank c = true

def Layout.oneLine : Layout := ⟨fun _ => [], [], by simp, by simp⟩

def Layout.lines : Layout where
  gap level := '\n' :: List.replicate (2 * level) ' '
  colon := [' ']
  blank_gap := by
    intro level c hc
    rcases List.mem_cons.mp hc with rfl | hc
    · decide
    · rw [List.eq_of_mem_replicate hc]
      decide
  blank_colon := by
    intro c hc
    rw [List.mem_singleton.mp hc]
    decide

/-- The pieces after the first one, up to the end of a bracketed sequence. -/
def followed (gap ending : List Char) : List (List Char) → List Char
  | [] => ending
  | piece :: rest => ',' :: (gap ++ (piece ++ followed gap ending rest))

def bracketed (layout : Layout) (level : Nat) (opening closing : Char) :
    List (List Char) → List Char
  | [] => [opening, closing]
  | first :: rest =>
    opening :: (layout.gap (level + 1) ++ (first ++
      followed (layout.gap (level + 1)) (layout.gap level ++ [closing]) rest))

mutual

/-- The text of a value in a layout. -/
def spell (layout : Layout) (level : Nat) : Json → List Char
  | .null => ['n', 'u', 'l', 'l']
  | .bool true => ['t', 'r', 'u', 'e']
  | .bool false => ['f', 'a', 'l', 's', 'e']
  | .number value => (numberText value).toList
  | .string value => (quotedString value).toList
  | .array items => bracketed layout level '[' ']' (spellItems layout (level + 1) items)
  | .object members =>
    bracketed layout level '\x7b' '\x7d' (spellMembers layout (level + 1) members)

def spellItems (layout : Layout) (level : Nat) : List Json → List (List Char)
  | [] => []
  | item :: rest => spell layout level item :: spellItems layout level rest

def spellMembers (layout : Layout) (level : Nat) : List (String × Json) → List (List Char)
  | [] => []
  | (name, value) :: rest =>
    ((quotedString name).toList ++ ':' :: (layout.colon ++ spell layout level value)) ::
      spellMembers layout level rest

end

theorem toList_intercalate_followed (lead back first : String) (ending : List Char)
    (rest : List String) :
    (String.intercalate ("," ++ back) ((first :: rest).map (lead ++ ·))).toList ++ ending =
      lead.toList ++ (first.toList ++
        followed (back.toList ++ lead.toList) ending (rest.map String.toList)) := by
  induction rest generalizing first with
  | nil => simp [followed]
  | cons next rest ih =>
      have hnext := ih next
      rw [String.toList_intercalate] at hnext ⊢
      simp only [List.map_cons, List.intercalate_cons_cons] at hnext ⊢
      simp only [List.append_assoc, hnext, followed]
      simp

section Brackets

variable {opening closing : String} {first last : Char} (hopening : opening.toList = [first])
  (hclosing : closing.toList = [last])

include hopening hclosing

theorem toList_compact_brackets (level : Nat) (texts : List String) :
    (opening ++ String.intercalate "," texts ++ closing).toList =
      bracketed .oneLine level first last (texts.map String.toList) := by
  cases texts with
  | nil => simp [hopening, hclosing, bracketed]
  | cons text rest =>
      have hjoined := toList_intercalate_followed "" "" text [last] rest
      simp only [String.append_empty, String.empty_append, List.map_id_fun', id_eq] at hjoined
      rw [String.toList_append, String.toList_append, hopening, hclosing, List.append_assoc,
        hjoined]
      rfl

theorem toList_spread (level : Nat) (texts : List String) :
    (spread opening closing level texts).toList =
      bracketed .lines level first last (texts.map String.toList) := by
  cases texts with
  | nil => simp [spread, hopening, hclosing, bracketed]
  | cons text rest =>
      have hgap (level : Nat) :
          Layout.lines.gap level = "\n".toList ++ (indentation level).toList := by
        simp [Layout.lines, indentation]
      have hjoined := toList_intercalate_followed (indentation (level + 1)) "\n" text
        (Layout.lines.gap level ++ [last]) rest
      have hcomma : "," ++ "\n" = ",\n" := by decide
      rw [hcomma, ← hgap] at hjoined
      rw [spread, if_neg (by simp)]
      change _ = first :: (Layout.lines.gap (level + 1) ++ (text.toList ++
        followed (Layout.lines.gap (level + 1)) (Layout.lines.gap level ++ [last])
          (rest.map String.toList)))
      simp only [String.toList_append, hopening, hclosing, List.append_assoc]
      rw [← List.append_assoc "\n".toList (indentation level).toList, ← hgap, hjoined,
        hgap (level + 1)]
      simp

end Brackets

mutual

theorem toList_compact (level : Nat) : ∀ value : Json,
    value.compact.toList = spell .oneLine level value
  | .null => by
      rw [compact, spell]
      decide
  | .bool true => by
      rw [compact, spell]
      decide
  | .bool false => by
      rw [compact, spell]
      decide
  | .number value => rfl
  | .string value => rfl
  | .array items => by
      rw [compact, spell, toList_compact_brackets (by decide : "[".toList = ['['])
        (by decide : "]".toList = [']']) level, toList_compactItems (level + 1)]
  | .object members => by
      rw [compact, spell, toList_compact_brackets (by decide : "\x7b".toList = ['\x7b'])
        (by decide : "\x7d".toList = ['\x7d']) level, toList_compactMembers (level + 1)]

theorem toList_compactItems (level : Nat) : ∀ items : List Json,
    (compactItems items).map String.toList = spellItems .oneLine level items
  | [] => rfl
  | item :: rest => by
      rw [compactItems, spellItems, List.map_cons, toList_compact level item,
        toList_compactItems level rest]

theorem toList_compactMembers (level : Nat) : ∀ members : List (String × Json),
    (compactMembers members).map String.toList = spellMembers .oneLine level members
  | [] => rfl
  | (name, value) :: rest => by
      rw [compactMembers, spellMembers, List.map_cons, toList_compactMembers level rest,
        ← toList_compact level value]
      simp [Layout.oneLine]

end

mutual

theorem toList_pretty (level : Nat) : ∀ value : Json,
    (value.pretty level).toList = spell .lines level value
  | .null => by
      rw [pretty, spell]
      decide
  | .bool true => by
      rw [pretty, spell]
      decide
  | .bool false => by
      rw [pretty, spell]
      decide
  | .number value => rfl
  | .string value => rfl
  | .array items => by
      rw [pretty, spell, toList_spread (by decide : "[".toList = ['['])
        (by decide : "]".toList = [']']), toList_prettyItems]
  | .object members => by
      rw [pretty, spell, toList_spread (by decide : "\x7b".toList = ['\x7b'])
        (by decide : "\x7d".toList = ['\x7d']), toList_prettyMembers]

theorem toList_prettyItems (level : Nat) : ∀ items : List Json,
    (prettyItems level items).map String.toList = spellItems .lines level items
  | [] => rfl
  | item :: rest => by
      rw [prettyItems, spellItems, List.map_cons, toList_pretty level item,
        toList_prettyItems level rest]

theorem toList_prettyMembers (level : Nat) : ∀ members : List (String × Json),
    (prettyMembers level members).map String.toList = spellMembers .lines level members
  | [] => rfl
  | (name, value) :: rest => by
      rw [prettyMembers, spellMembers, List.map_cons, toList_prettyMembers level rest,
        ← toList_pretty level value]
      simp [Layout.lines]

end

/-! ## Blanks -/

theorem skipBlank_append {blanks : List Char} (hblanks : ∀ c ∈ blanks, isJsonBlank c = true)
    (chars : List Char) : skipBlank (blanks ++ chars) = skipBlank chars := by
  induction blanks with
  | nil => rfl
  | cons c rest ih =>
      rw [List.forall_mem_cons] at hblanks
      rw [List.cons_append, skipBlank, List.dropWhile_cons_of_pos hblanks.1]
      exact ih hblanks.2

theorem skipBlank_cons {c : Char} (hc : isJsonBlank c = false) (rest : List Char) :
    skipBlank (c :: rest) = c :: rest := by
  rw [skipBlank, List.dropWhile_cons_of_neg (by simp [hc])]

theorem isJsonBlank_of_isDigit {c : Char} (hdigit : c.isDigit = true) : isJsonBlank c = false := by
  by_contra hblank
  simp only [isJsonBlank, Bool.not_eq_false, Bool.or_eq_true, decide_eq_true_eq] at hblank
  rcases hblank with ((rfl | rfl) | rfl) | rfl <;> exact absurd hdigit (by decide)

/-- What can stand behind a value: nothing that goes on with a number. -/
def EndsNumber (rest : List Char) : Prop :=
  ∀ c ∈ rest.head?, c.isDigit = false ∧ c ≠ '.' ∧ c ≠ 'e' ∧ c ≠ 'E'

theorem endsNumber_of_isJsonBlank {blanks rest : List Char}
    (hblanks : ∀ c ∈ blanks, isJsonBlank c = true) (hrest : EndsNumber rest) :
    EndsNumber (blanks ++ rest) := by
  cases blanks with
  | nil => exact hrest
  | cons c others =>
      intro other hother
      obtain rfl : c = other := by simpa using hother
      have hblank := hblanks c List.mem_cons_self
      simp only [isJsonBlank, Bool.or_eq_true, decide_eq_true_eq] at hblank
      rcases hblank with ((rfl | rfl) | rfl) | rfl <;> decide

/-! ## Numbers -/

section Numbers

variable {negative : Bool} {digits rest after : List Char} {number : JsonNumber}

theorem spanDigits_append (hdigits : ∀ c ∈ digits, c.isDigit = true) (hrest : EndsNumber rest) :
    spanDigits (digits ++ rest) = (digits.map Outline.digitOf, rest) := by
  have htake : (digits ++ rest).takeWhile Char.isDigit = digits := by
    rw [List.takeWhile_append_of_pos hdigits]
    cases rest with
    | nil => simp
    | cons c others =>
        rw [List.takeWhile_cons_of_neg (by simp [(hrest c rfl).1]), List.append_nil]
  have hdrop : (digits ++ rest).dropWhile Char.isDigit = rest := by
    rw [List.dropWhile_append_of_pos hdigits]
    cases rest with
    | nil => rfl
    | cons c others => rw [List.dropWhile_cons_of_neg (by simp [(hrest c rfl).1])]
  rw [Outline.spanDigits_eq, htake, hdrop]

/-- A number is read up to its last digit. -/
theorem after_of_readUnsigned (hdigits : ∀ c ∈ digits, c.isDigit = true) (hrest : EndsNumber rest)
    (hread : readUnsigned negative (digits ++ rest) = some (number, after)) : after = rest := by
  unfold readUnsigned at hread
  rw [spanDigits_append hdigits hrest] at hread
  dsimp only at hread
  split at hread
  · cases hread
  · split at hread
    · cases hread
    · split at hread
      next fraction => exact absurd rfl (hrest '.' rfl).2.1
      next c others hpoint =>
        have hc := hrest c rfl
        rw [if_neg (by simp [hc.2.2.1, hc.2.2.2])] at hread
        obtain ⟨value, -, hvalue⟩ := Option.map_eq_some_iff.mp hread
        exact (Prod.mk.inj hvalue).2.symm
      next =>
        obtain ⟨value, -, hvalue⟩ := Option.map_eq_some_iff.mp hread
        exact (Prod.mk.inj hvalue).2.symm

theorem exists_digits (value : Int) : ∃ digits : List Char, digits ≠ [] ∧
    (∀ c ∈ digits, c.isDigit = true) ∧
      ((numberText (.integer value)).toList = digits ∨
        (numberText (.integer value)).toList = '-' :: digits) := by
  have hdigits (n : Nat) : ∀ c ∈ Nat.toDigits 10 n, c.isDigit = true := fun _ hdigit =>
    Nat.isDigit_of_mem_toDigits (by decide) (by decide) hdigit
  cases value with
  | ofNat n =>
      refine ⟨Nat.toDigits 10 n, Nat.toDigits_ne_nil, hdigits n, .inl ?_⟩
      change (Nat.repr n).toList = _
      exact Nat.toList_repr
  | negSucc n =>
      refine ⟨Nat.toDigits 10 (n + 1), Nat.toDigits_ne_nil, hdigits _, .inr ?_⟩
      change ("-" ++ Nat.repr (n + 1)).toList = _
      rw [String.toList_append, Nat.toList_repr]
      rfl

theorem exists_cons_numberText (value : Int) :
    ∃ c others, (numberText (.integer value)).toList = c :: others ∧
      (c.isDigit = true ∨ c = '-') := by
  obtain ⟨digits, hne, hdigits, htext | htext⟩ := exists_digits value
  · obtain ⟨c, others, rfl⟩ := List.exists_cons_of_ne_nil hne
    exact ⟨c, others, htext, .inl (hdigits c List.mem_cons_self)⟩
  · exact ⟨'-', digits, htext, .inr rfl⟩

end Numbers

theorem after_of_readNumber {value : Int} {rest after : List Char} {number : JsonNumber}
    (hrest : EndsNumber rest)
    (hread : readNumber ((numberText (.integer value)).toList ++ rest) = some (number, after)) :
    after = rest := by
  obtain ⟨digits, hne, hdigits, htext | htext⟩ := exists_digits value
  · rw [htext] at hread
    cases digits with
    | nil => exact absurd rfl hne
    | cons c others =>
        have hc := hdigits c List.mem_cons_self
        unfold readNumber at hread
        split at hread
        next hsign =>
          rw [List.cons_append, List.cons.injEq] at hsign
          rw [hsign.1] at hc
          exact absurd hc (by decide)
        next => exact after_of_readUnsigned hdigits hrest hread
  · rw [htext] at hread
    exact after_of_readUnsigned hdigits hrest hread

/-! ## Strings -/

theorem hexValue?_hexDigit : ∀ n < 16, hexValue? (hexDigit n) = some n := by decide

theorem readEscape_control {c : Char} (hc : c.toNat < 0x20) (rest : List Char) :
    readEscape ('u' :: '0' :: '0' :: hexDigit (c.toNat / 16) :: hexDigit (c.toNat % 16) :: rest) =
      some (c, rest) := by
  have hhigh := hexValue?_hexDigit (c.toNat / 16) (by omega)
  have hlow := hexValue?_hexDigit (c.toNat % 16) (by omega)
  have hzero : hexValue? '0' = some 0 := by decide
  have hvalue : ((0 * 16 + 0) * 16 + c.toNat / 16) * 16 + c.toNat % 16 = c.toNat := by omega
  have hunit : readUnit ('0' :: '0' :: hexDigit (c.toNat / 16) :: hexDigit (c.toNat % 16) :: rest) =
      some (c.toNat, rest) := by
    simp only [readUnit, hzero, hhigh, hlow, Option.bind_eq_bind, Option.bind_some, hvalue]
    rfl
  have htrail : ¬ (0xdc00 ≤ c.toNat) := by omega
  have hlead : ¬ (0xd800 ≤ c.toNat) := by omega
  simp [readEscape, readPoint, hunit, htrail, hlead]

/-- An escaped character is read as itself. -/
theorem readString_escapedChar (c : Char) {steps : Nat} {sofar rest : List Char} :
    readString (steps + 1) sofar (escapedChar c ++ rest) = readString steps (c :: sofar) rest := by
  by_cases hshort : c ∈ ['"', '\\', '\x08', '\x0c', '\n', '\r', '\t']
  · simp only [List.mem_cons, List.not_mem_nil, or_false] at hshort
    rcases hshort with rfl | rfl | rfl | rfl | rfl | rfl | rfl <;> rfl
  · simp only [List.mem_cons, List.not_mem_nil, or_false, not_or] at hshort
    obtain ⟨hquote, hslash, hbackspace, hfeed, hline, hreturn, htab⟩ := hshort
    rw [escapedChar, if_neg hquote, if_neg hslash, if_neg hbackspace, if_neg hfeed, if_neg hline,
      if_neg hreturn, if_neg htab]
    split
    next hcontrol =>
      rw [List.cons_append, readString, if_neg (by decide), if_pos rfl]
      simp only [List.cons_append, List.nil_append]
      rw [readEscape_control hcontrol]
    next hplain =>
      rw [List.cons_append, readString, if_neg hquote, if_neg hslash, if_neg hplain]
      rfl

theorem readString_escaped (text : List Char) {steps : Nat} {sofar rest after : List Char}
    {read : String} (hread :
      readString steps sofar (text.flatMap escapedChar ++ '"' :: rest) = some (read, after)) :
    read = String.ofList (sofar.reverse ++ text) ∧ after = rest := by
  induction text generalizing steps sofar with
  | nil =>
      cases steps with
      | zero => cases hread
      | succ steps =>
          rw [List.flatMap_nil, List.nil_append, readString, if_pos rfl, Option.some_inj] at hread
          cases hread
          simp
  | cons c text ih =>
      cases steps with
      | zero => cases hread
      | succ steps =>
          rw [List.flatMap_cons, List.append_assoc, readString_escapedChar] at hread
          simpa using ih hread

theorem toList_quotedString (text : String) (rest : List Char) :
    (quotedString text).toList ++ rest =
      '"' :: (text.toList.flatMap escapedChar ++ '"' :: rest) := by
  simp [quotedString]

theorem readString_quotedString {text read : String} {steps : Nat} {rest after : List Char}
    (hread : readString steps [] (text.toList.flatMap escapedChar ++ '"' :: rest) =
      some (read, after)) : read = text ∧ after = rest := by
  simpa using readString_escaped text.toList hread

/-! ## Values -/

/-- A value whose numbers are integers and whose objects have different names. -/
inductive IsPlain : Json → Prop where
  | null : IsPlain .null
  | bool (value : Bool) : IsPlain (.bool value)
  | number (value : Int) : IsPlain (.number (.integer value))
  | string (value : String) : IsPlain (.string value)
  | array (items : List Json) : (∀ item ∈ items, IsPlain item) → IsPlain (.array items)
  | object (members : List (String × Json)) : (members.map (·.1)).Nodup →
      (∀ member ∈ members, IsPlain member.2) → IsPlain (.object members)

mutual

/-- A value without its numbers. -/
def unnumbered : Json → Json
  | .null => .null
  | .bool value => .bool value
  | .number _ => .number (.integer 0)
  | .string value => .string value
  | .array items => .array (unnumberedItems items)
  | .object members => .object (unnumberedMembers members)

def unnumberedItems : List Json → List Json
  | [] => []
  | item :: rest => item.unnumbered :: unnumberedItems rest

def unnumberedMembers : List (String × Json) → List (String × Json)
  | [] => []
  | (name, value) :: rest => (name, value.unnumbered) :: unnumberedMembers rest

end

/-- The text of a value starts with no blank and no closing bracket. -/
theorem exists_cons_spell {value : Json} (hplain : value.IsPlain) (layout : Layout) (level : Nat) :
    ∃ c rest, spell layout level value = c :: rest ∧ isJsonBlank c = false ∧ c ≠ ']' := by
  have hbracketed (opening closing : Char) (pieces : List (List Char)) :
      ∃ rest, bracketed layout level opening closing pieces = opening :: rest := by
    cases pieces with
    | nil => exact ⟨_, rfl⟩
    | cons first others => exact ⟨_, rfl⟩
  cases hplain with
  | null => exact ⟨'n', _, rfl, by decide, by decide⟩
  | bool value =>
      cases value with
      | true => exact ⟨'t', _, rfl, by decide, by decide⟩
      | false => exact ⟨'f', _, rfl, by decide, by decide⟩
  | number value =>
      obtain ⟨c, others, htext, hdigit | rfl⟩ := exists_cons_numberText value
      · refine ⟨c, others, htext, isJsonBlank_of_isDigit hdigit, ?_⟩
        rintro rfl
        exact absurd hdigit (by decide)
      · exact ⟨'-', others, htext, by decide, by decide⟩
  | string value =>
      have hquote := toList_quotedString value []
      rw [List.append_nil] at hquote
      exact ⟨'"', _, hquote, by decide, by decide⟩
  | array items _ =>
      obtain ⟨rest, hrest⟩ := hbracketed '[' ']' (spellItems layout (level + 1) items)
      exact ⟨'[', rest, hrest, by decide, by decide⟩
  | object members _ _ =>
      obtain ⟨rest, hrest⟩ := hbracketed '\x7b' '\x7d' (spellMembers layout (level + 1) members)
      exact ⟨'\x7b', rest, hrest, by decide, by decide⟩

/-! ## Reading -/

section Reading

variable {layout : Layout} {steps levels level : Nat} {blanks rest after : List Char}
  {value read : Json}

/-- What a text of a value is read as. -/
def Reads (layout : Layout) (value : Json) : Prop :=
  ∀ {level steps levels : Nat} {blanks rest after : List Char} {read : Json},
    (∀ c ∈ blanks, isJsonBlank c = true) → EndsNumber rest →
      readValue steps levels (blanks ++ (spell layout level value ++ rest)) = some (read, after) →
        read.unnumbered = value.unnumbered ∧ after = rest

theorem readValue_numeral {c : Char} (hstart : c.isDigit = true ∨ c = '-')
    (hblanks : ∀ c ∈ blanks, isJsonBlank c = true) :
    readValue (steps + 1) levels (blanks ++ c :: rest) =
      (readNumber (c :: rest)).map fun (found, after) => (.number found, after) := by
  have hblank : isJsonBlank c = false := by
    rcases hstart with hdigit | rfl
    · exact isJsonBlank_of_isDigit hdigit
    · decide
  have hother : ∀ other ∈ ['"', '[', '\x7b', 'n', 't', 'f'], c ≠ other := by
    rintro _ hmem rfl
    simp only [List.mem_cons, List.not_mem_nil, or_false] at hmem
    rcases hstart with hdigit | rfl
    · rcases hmem with rfl | rfl | rfl | rfl | rfl | rfl <;> exact absurd hdigit (by decide)
    · exact absurd hmem (by decide)
  rw [readValue, skipBlank_append hblanks, skipBlank_cons hblank]
  split
  next h => cases h
  next h => exact absurd (List.cons.inj h).1 (hother _ (by decide))
  next h => exact absurd (List.cons.inj h).1 (hother _ (by decide))
  next h => exact absurd (List.cons.inj h).1 (hother _ (by decide))
  next h => exact absurd (List.cons.inj h).1 (hother _ (by decide))
  next h => exact absurd (List.cons.inj h).1 (hother _ (by decide))
  next h => exact absurd (List.cons.inj h).1 (hother _ (by decide))
  next => rfl

theorem reads_number (value : Int) : Reads layout (.number (.integer value)) := by
  intro level steps levels blanks rest after read hblanks hrest hread
  cases steps with
  | zero => cases hread
  | succ steps =>
      obtain ⟨c, others, htext, hstart⟩ := exists_cons_numberText value
      rw [spell, htext, List.cons_append, readValue_numeral hstart hblanks, ← List.cons_append,
        ← htext] at hread
      obtain ⟨⟨found, left⟩, hfound, hpair⟩ := Option.map_eq_some_iff.mp hread
      cases hpair
      exact ⟨rfl, after_of_readNumber hrest hfound⟩

theorem reads_string (text : String) : Reads layout (.string text) := by
  intro level steps levels blanks rest after read hblanks hrest hread
  cases steps with
  | zero => cases hread
  | succ steps =>
      rw [spell, toList_quotedString, readValue, skipBlank_append hblanks,
        skipBlank_cons (by decide)] at hread
      obtain ⟨⟨found, left⟩, hfound, hpair⟩ := Option.map_eq_some_iff.mp hread
      cases hpair
      obtain ⟨rfl, rfl⟩ := readString_quotedString hfound
      exact ⟨rfl, rfl⟩

theorem followed_append (gap ending rest : List Char) (pieces : List (List Char)) :
    followed gap ending pieces ++ rest = followed gap (ending ++ rest) pieces := by
  induction pieces with
  | nil => rfl
  | cons piece others ih => simp [followed, ih]

theorem endsNumber_followed {outer : List Char} (houter : ∀ c ∈ outer, isJsonBlank c = true)
    {closing : Char} (hclosing : closing = ']' ∨ closing = '\x7d') (gap rest : List Char)
    (pieces : List (List Char)) :
    EndsNumber (followed gap (outer ++ closing :: rest) pieces) := by
  cases pieces with
  | nil =>
      apply endsNumber_of_isJsonBlank houter
      intro c hc
      obtain rfl : closing = c := by simpa using hc
      rcases hclosing with rfl | rfl <;> decide
  | cons piece others =>
      intro c hc
      obtain rfl : ',' = c := by simpa [followed] using hc
      decide

/-- One item is read, and what follows it decides how the reading goes on. -/
theorem exists_of_readItems {first : Json} {sofar : List Json} (hfirst : Reads layout first)
    (hblanks : ∀ c ∈ blanks, isJsonBlank c = true) (hrest : EndsNumber rest)
    (hread : readItems (steps + 1) levels sofar
      (blanks ++ (spell layout level first ++ rest)) = some (read, after)) :
    ∃ item : Json, item.unnumbered = first.unnumbered ∧
      (match skipBlank rest with
        | ',' :: more => readItems steps levels (item :: sofar) more
        | ']' :: more => some (.array (item :: sofar).reverse, more)
        | _ => none) = some (read, after) := by
  rw [readItems] at hread
  split at hread
  · cases hread
  next item left hitem =>
    obtain ⟨hsame, rfl⟩ := hfirst hblanks hrest hitem
    exact ⟨item, hsame, hread⟩

/-- Items are read one after another, up to the end of the array. -/
theorem readItems_followed {first : Json} {items sofar : List Json} (hfirst : Reads layout first)
    (hitems : ∀ item ∈ items, Reads layout item) {outer : List Char}
    (houter : ∀ c ∈ outer, isJsonBlank c = true) (hblanks : ∀ c ∈ blanks, isJsonBlank c = true)
    (hread : readItems steps levels sofar (blanks ++ (spell layout level first ++
      followed (layout.gap level) (outer ++ ']' :: rest) (spellItems layout level items))) =
        some (read, after)) :
    ∃ found, read = .array (sofar.reverse ++ found) ∧
      unnumberedItems found = unnumberedItems (first :: items) ∧ after = rest := by
  induction items generalizing first steps sofar blanks with
  | nil =>
      cases steps with
      | zero => cases hread
      | succ steps =>
          obtain ⟨item, hsame, hend⟩ := exists_of_readItems hfirst hblanks
            (endsNumber_followed houter (.inl rfl) _ _ _) hread
          rw [spellItems, followed, skipBlank_append houter, skipBlank_cons (by decide)] at hend
          cases hend
          exact ⟨[item], by simp, by simp [unnumberedItems, hsame], rfl⟩
  | cons next others ih =>
      rw [List.forall_mem_cons] at hitems
      cases steps with
      | zero => cases hread
      | succ steps =>
          obtain ⟨item, hsame, hend⟩ := exists_of_readItems hfirst hblanks
            (endsNumber_followed houter (.inl rfl) _ _ _) hread
          rw [spellItems, followed, skipBlank_cons (by decide)] at hend
          obtain ⟨found, rfl, hfound, rfl⟩ := ih hitems.1 hitems.2 (layout.blank_gap level) hend
          exact ⟨item :: found, by simp, by simp [unnumberedItems, hsame, hfound], rfl⟩

theorem readValue_opening_array (hblanks : ∀ c ∈ blanks, isJsonBlank c = true) :
    readValue (steps + 1) levels (blanks ++ '[' :: rest) =
      if levels = 0 then none
      else
        match skipBlank rest with
        | ']' :: after => some (.array [], after)
        | more => readItems steps (levels - 1) [] more := by
  rw [readValue, skipBlank_append hblanks, skipBlank_cons (by decide)]
  rfl

theorem readValue_opening_object (hblanks : ∀ c ∈ blanks, isJsonBlank c = true) :
    readValue (steps + 1) levels (blanks ++ '\x7b' :: rest) =
      if levels = 0 then none
      else
        match skipBlank rest with
        | '\x7d' :: after => some (.object [], after)
        | more => readMembers steps (levels - 1) [] more := by
  rw [readValue, skipBlank_append hblanks, skipBlank_cons (by decide)]
  rfl

theorem reads_array {items : List Json} (hplain : ∀ item ∈ items, item.IsPlain)
    (hitems : ∀ item ∈ items, Reads layout item) : Reads layout (.array items) := by
  intro level steps levels blanks rest after read hblanks hrest hread
  cases steps with
  | zero => cases hread
  | succ steps =>
      cases items with
      | nil =>
          rw [spell, spellItems, bracketed, List.cons_append, readValue_opening_array hblanks,
            List.cons_append, skipBlank_cons (by decide)] at hread
          split at hread
          · cases hread
          · cases hread
            exact ⟨rfl, rfl⟩
      | cons first others =>
          rw [List.forall_mem_cons] at hitems hplain
          obtain ⟨c, chars, hspell, hblank, hclosing⟩ :=
            exists_cons_spell hplain.1 layout (level + 1)
          rw [spell, spellItems, bracketed, List.cons_append, readValue_opening_array hblanks,
            List.append_assoc, skipBlank_append (layout.blank_gap _), List.append_assoc,
            followed_append, hspell, List.cons_append, skipBlank_cons hblank] at hread
          split at hread
          · cases hread
          · split at hread
            next hstart => exact absurd (List.cons.inj hstart).1 hclosing
            next =>
              rw [← List.cons_append, ← hspell, List.append_assoc,
                ← List.nil_append (spell layout (level + 1) first ++ _)] at hread
              obtain ⟨found, rfl, hfound, rfl⟩ := readItems_followed hitems.1 hitems.2
                (layout.blank_gap level) (by simp) hread
              exact ⟨by simp [unnumbered, hfound], rfl⟩

theorem setMember_of_not_mem {name : String} {value : Json} {members : List (String × Json)}
    (hname : name ∉ members.map (·.1)) :
    setMember name value members = members ++ [(name, value)] := by
  induction members with
  | nil => rfl
  | cons member others ih =>
      rw [List.map_cons, List.mem_cons, not_or] at hname
      rw [setMember, if_neg (Ne.symm hname.1), ih hname.2, List.cons_append]

/-- One member is read, and what follows it decides how the reading goes on. -/
theorem exists_of_readMembers {name : String} {first : Json} {sofar : List (String × Json)}
    (hfirst : Reads layout first) (hname : name ∉ sofar.map (·.1))
    (hblanks : ∀ c ∈ blanks, isJsonBlank c = true) (hrest : EndsNumber rest)
    (hread : readMembers (steps + 1) levels sofar (blanks ++ (((quotedString name).toList ++
      ':' :: (layout.colon ++ spell layout level first)) ++ rest)) = some (read, after)) :
    ∃ value : Json, value.unnumbered = first.unnumbered ∧
      (match skipBlank rest with
        | ',' :: last => readMembers steps levels (sofar ++ [(name, value)]) last
        | '\x7d' :: last => some (.object (sofar ++ [(name, value)]), last)
        | _ => none) = some (read, after) := by
  rw [readMembers, skipBlank_append hblanks, List.append_assoc, toList_quotedString,
    skipBlank_cons (by decide)] at hread
  split at hread
  next chars hquote =>
    obtain rfl := (List.cons.inj hquote).2
    split at hread
    · cases hread
    next found left hfound =>
      obtain ⟨rfl, rfl⟩ := readString_quotedString hfound
      rw [List.cons_append, skipBlank_cons (by decide), List.append_assoc] at hread
      split at hread
      next more hcolon =>
        obtain rfl := (List.cons.inj hcolon).2
        split at hread
        · cases hread
        next value next hvalue =>
          obtain ⟨hsame, rfl⟩ := hfirst layout.blank_colon hrest hvalue
          rw [setMember_of_not_mem hname] at hread
          exact ⟨value, hsame, hread⟩
      next => cases hread
  next => cases hread

/-- Members are read one after another, up to the end of the object. -/
theorem readMembers_followed {name : String} {first : Json} {members sofar : List (String × Json)}
    (hfirst : Reads layout first) (hmembers : ∀ member ∈ members, Reads layout member.2)
    (hnames : (sofar.map (·.1) ++ name :: members.map (·.1)).Nodup) {outer : List Char}
    (houter : ∀ c ∈ outer, isJsonBlank c = true)
    (hblanks : ∀ c ∈ blanks, isJsonBlank c = true)
    (hread : readMembers steps levels sofar (blanks ++ (((quotedString name).toList ++
      ':' :: (layout.colon ++ spell layout level first)) ++ followed (layout.gap level)
        (outer ++ '\x7d' :: rest) (spellMembers layout level members))) = some (read, after)) :
    ∃ found, read = .object (sofar ++ found) ∧
      unnumberedMembers found = unnumberedMembers ((name, first) :: members) ∧ after = rest := by
  induction members generalizing name first steps sofar blanks with
  | nil =>
      cases steps with
      | zero => cases hread
      | succ steps =>
          have hname : name ∉ sofar.map (·.1) := fun hmem =>
            (List.nodup_append.mp hnames).2.2 name hmem name List.mem_cons_self rfl
          obtain ⟨value, hsame, hend⟩ := exists_of_readMembers hfirst hname hblanks
            (endsNumber_followed houter (.inr rfl) _ _ _) hread
          rw [spellMembers, followed, skipBlank_append houter, skipBlank_cons (by decide)] at hend
          cases hend
          exact ⟨_, rfl, by simp [unnumberedMembers, hsame], rfl⟩
  | cons next others ih =>
      rw [List.forall_mem_cons] at hmembers
      cases steps with
      | zero => cases hread
      | succ steps =>
          have hname : name ∉ sofar.map (·.1) := fun hmem =>
            (List.nodup_append.mp hnames).2.2 name hmem name List.mem_cons_self rfl
          obtain ⟨value, hsame, hend⟩ := exists_of_readMembers hfirst hname hblanks
            (endsNumber_followed houter (.inr rfl) _ _ _) hread
          have hnext :
              ((sofar ++ [(name, value)]).map (·.1) ++ next.1 :: others.map (·.1)).Nodup := by
            simpa using hnames
          rw [spellMembers, followed, skipBlank_cons (by decide)] at hend
          obtain ⟨found, rfl, hfound, rfl⟩ :=
            ih hmembers.1 hmembers.2 hnext (layout.blank_gap level) hend
          exact ⟨(name, value) :: found, by simp, by simp [unnumberedMembers, hsame, hfound], rfl⟩

theorem reads_object {members : List (String × Json)} (hnames : (members.map (·.1)).Nodup)
    (hmembers : ∀ member ∈ members, Reads layout member.2) : Reads layout (.object members) := by
  intro level steps levels blanks rest after read hblanks hrest hread
  cases steps with
  | zero => cases hread
  | succ steps =>
      cases members with
      | nil =>
          rw [spell, spellMembers, bracketed, List.cons_append, readValue_opening_object hblanks,
            List.cons_append, skipBlank_cons (by decide)] at hread
          split at hread
          · cases hread
          · cases hread
            exact ⟨rfl, rfl⟩
      | cons first others =>
          rw [List.forall_mem_cons] at hmembers
          rw [spell, spellMembers, bracketed, List.cons_append, readValue_opening_object hblanks,
            List.append_assoc, skipBlank_append (layout.blank_gap _), List.append_assoc,
            followed_append, List.append_assoc (quotedString first.1).toList, toList_quotedString,
            skipBlank_cons (by decide)] at hread
          split at hread
          · cases hread
          · split at hread
            next hstart => exact absurd (List.cons.inj hstart).1 (by decide)
            next =>
              rw [← toList_quotedString, ← List.append_assoc, List.append_assoc (layout.gap level),
                ← List.nil_append ((_ ++ _) ++ _)] at hread
              obtain ⟨found, rfl, hfound, rfl⟩ := readMembers_followed hmembers.1 hmembers.2
                (by simpa using hnames) (layout.blank_gap level) (by simp) hread
              exact ⟨by simp [unnumbered, hfound], rfl⟩

theorem eq_of_expect (word : List Char)
    (hread : (expect word (word ++ rest)).map (fun after => (value, after)) = some (read, after)) :
    read = value ∧ after = rest := by
  rw [expect, if_pos (by simp [List.isPrefixOf_iff_prefix]), List.drop_left] at hread
  cases hread
  exact ⟨rfl, rfl⟩

theorem reads_null : Reads layout .null := by
  intro level steps levels blanks rest after read hblanks hrest hread
  cases steps with
  | zero => cases hread
  | succ steps =>
      rw [spell, readValue, skipBlank_append hblanks, List.cons_append,
        skipBlank_cons (by decide)] at hread
      obtain ⟨rfl, rfl⟩ := eq_of_expect ['u', 'l', 'l'] hread
      exact ⟨rfl, rfl⟩

theorem reads_bool (value : Bool) : Reads layout (.bool value) := by
  intro level steps levels blanks rest after read hblanks hrest hread
  cases steps with
  | zero => cases hread
  | succ steps =>
      cases value with
      | true =>
          rw [spell, readValue, skipBlank_append hblanks, List.cons_append,
            skipBlank_cons (by decide)] at hread
          obtain ⟨rfl, rfl⟩ := eq_of_expect ['r', 'u', 'e'] hread
          exact ⟨rfl, rfl⟩
      | false =>
          rw [spell, readValue, skipBlank_append hblanks, List.cons_append,
            skipBlank_cons (by decide)] at hread
          obtain ⟨rfl, rfl⟩ := eq_of_expect ['a', 'l', 's', 'e'] hread
          exact ⟨rfl, rfl⟩

/-- A text of a value is read as the value, numbers apart, up to its end. -/
theorem reads_of_isPlain (layout : Layout) {value : Json} (hplain : value.IsPlain) :
    Reads layout value := by
  induction hplain with
  | null => exact reads_null
  | bool value => exact reads_bool value
  | number value => exact reads_number value
  | string text => exact reads_string text
  | array items hitems ih => exact reads_array hitems ih
  | object members hnames hmembers ih => exact reads_object hnames ih

end Reading

/-- A document that holds the text of a value, with or without a line end, is that value, numbers
apart, if it can be read at all. -/
theorem unnumbered_of_ofText? {value read : Json} {levels : Nat} {layout : Layout}
    (hplain : value.IsPlain) {text : String} {ending : List Char}
    (hending : ∀ c ∈ ending, isJsonBlank c = true)
    (htext : text.toList = spell layout 0 value ++ ending)
    (hread : ofText? levels text = some read) : read.unnumbered = value.unnumbered := by
  unfold ofText? at hread
  dsimp only at hread
  split at hread
  next found after hfound =>
    split at hread
    · cases hread
      have hend : EndsNumber ending := by
        rw [← List.append_nil ending]
        exact endsNumber_of_isJsonBlank hending (by simp [EndsNumber])
      rw [htext, ← List.nil_append (spell layout 0 value ++ ending)] at hfound
      exact (reads_of_isPlain layout hplain (by simp) hend hfound).1
    · cases hread
  next => cases hread

end Json
end WireSchema
