import Mathlib
import WireSchema.Proofs.Grammar

/-!
# Keys and tokens taken apart

Keys and tokens are taken apart character by character.  The parts are those of the grammar: what
stands before and behind the first mark, and the digits of a length.  The name of a key that has a
letter is never empty.
-/

namespace WireSchema

/-! ## The first mark -/

section Marks

variable {mark : Char} {front rest : List Char}

theorem forall_ne_of_not_mem (hfront : mark ∉ front) : ∀ c ∈ front, decide (c ≠ mark) = true := by
  intro c hc
  simp only [ne_eq, decide_eq_true_eq]
  rintro rfl
  exact hfront hc

theorem takeWhile_ne_of_not_mem (hfront : mark ∉ front) :
    (front ++ mark :: rest).takeWhile (· ≠ mark) = front := by
  rw [List.takeWhile_append_of_pos (forall_ne_of_not_mem hfront)]
  simp

theorem dropWhile_ne_of_not_mem (hfront : mark ∉ front) :
    (front ++ mark :: rest).dropWhile (· ≠ mark) = mark :: rest := by
  rw [List.dropWhile_append_of_pos (forall_ne_of_not_mem hfront)]
  simp

theorem dropWhile_ne_eq_nil {chars : List Char} (hmark : mark ∉ chars) :
    chars.dropWhile (· ≠ mark) = [] :=
  List.dropWhile_eq_nil_iff.mpr (forall_ne_of_not_mem hmark)

end Marks

/-- The first mark tells where a text falls apart. -/
theorem eq_of_first_mark {mark : Char} {front front' rest rest' : List Char}
    (hfront : mark ∉ front) (hfront' : mark ∉ front')
    (hsame : front ++ mark :: rest = front' ++ mark :: rest') : front = front' ∧ rest = rest' := by
  have htake := congrArg (List.takeWhile (· ≠ mark)) hsame
  rw [takeWhile_ne_of_not_mem hfront, takeWhile_ne_of_not_mem hfront'] at htake
  subst htake
  simpa using hsame

/-! ## Names -/

namespace Naming

theorem isAsciiLetter_eq_isAlpha (c : Char) : isAsciiLetter c = c.isAlpha := by
  rw [Char.isAlpha, isAsciiLetter, Bool.or_comm]
  simp [isAsciiLower, isAsciiUpper, Char.isUpper, Char.isLower, Char.le_def, Bool.decide_and]

theorem isAsciiLetter_toUpper (c : Char) : isAsciiLetter c.toUpper = isAsciiLetter c := by
  rw [isAsciiLetter_eq_isAlpha, isAsciiLetter_eq_isAlpha, Char.isAlpha_toUpper_eq_isAlpha]

theorem isAsciiLetter_of_lower {c : Char} (hlower : isAsciiLower c = true) :
    isAsciiLetter c = true := by
  rw [isAsciiLetter, hlower, Bool.true_or]

theorem isAsciiDigit_of_letter {c : Char} (hletter : isAsciiLetter c = true) :
    isAsciiDigit c = false := by
  rw [Bool.eq_false_iff]
  intro hdigit
  have hnine : '9'.val.toNat = 57 := rfl
  have hfirst : 'A'.val.toNat = 65 := rfl
  have hlow : 'a'.val.toNat = 97 := rfl
  simp only [isAsciiLetter, isAsciiLower, isAsciiUpper, isAsciiDigit, Bool.or_eq_true,
    Bool.and_eq_true, decide_eq_true_eq, Char.le_def, UInt32.le_iff_toNat_le] at hletter hdigit
  omega

theorem any_capitaliseWords (case : NameCase) {chars : List Char}
    (hletter : chars.any isAsciiLetter = true) :
    (capitaliseWords case chars).any isAsciiLetter = true := by
  fun_induction capitaliseWords case chars with
  | case1 => exact hletter
  | case2 c => exact hletter
  | case3 c next rest hcapital ih =>
      rw [Bool.and_eq_true] at hcapital
      simp [isAsciiLetter_toUpper, isAsciiLetter_of_lower hcapital.2]
  | case4 c next rest hplain ih =>
      rw [List.any_cons, Bool.or_eq_true] at hletter ⊢
      exact hletter.imp id ih

theorem any_capitalise (case : NameCase) {chars : List Char}
    (hletter : chars.any isAsciiLetter = true) :
    (capitalise case chars).any isAsciiLetter = true := by
  unfold capitalise
  split
  next c rest =>
    split
    next hcapital =>
      rw [Bool.and_eq_true] at hcapital
      simp [isAsciiLetter_toUpper, isAsciiLetter_of_lower hcapital.2]
    · exact any_capitaliseWords case hletter
  next => exact hletter

theorem mem_dropWhile_of_not {p : Char → Bool} {c : Char} {chars : List Char} (hc : c ∈ chars)
    (hp : p c = false) : c ∈ chars.dropWhile p := by
  rw [← List.takeWhile_append_dropWhile (p := p) (l := chars), List.mem_append] at hc
  rcases hc with hc | hc
  · rw [List.mem_takeWhile_imp hc] at hp
    cases hp
  · exact hc

theorem mem_dropOrdinal {c : Char} {chars : List Char} (hc : c ∈ chars)
    (hletter : isAsciiLetter c = true) : c ∈ dropOrdinal chars := by
  have hdigit : isAsciiDigit c = false := isAsciiDigit_of_letter hletter
  unfold dropOrdinal
  split
  next rest =>
    split
    next d more =>
      split
      · have hmark : c ≠ '?' := by
          rintro rfl
          cases hletter
        exact mem_dropWhile_of_not ((List.mem_cons.mp hc).resolve_left hmark) hdigit
      · exact hc
    · exact hc
  next => exact mem_dropWhile_of_not hc hdigit

/-- The name of a key that has a letter is not empty. -/
theorem identifier_ne_empty (case : NameCase) {key : String}
    (hletter : key.toList.any isAsciiLetter = true) : identifier case key ≠ "" := by
  rcases List.any_eq_true.mp (any_capitalise case hletter) with ⟨c, hc, hcletter⟩
  have hmem : c ∈ identifierChars case key.toList := by
    rw [identifierChars, List.mem_filter]
    exact ⟨mem_dropOrdinal hc hcletter, by rw [hcletter]; rfl⟩
  have hne := List.ne_nil_of_mem hmem
  simpa [identifier] using hne

end Naming

theorem Grammar.IsTarget.ne_empty {target : String} (htarget : IsTarget target) : target ≠ "" := by
  cases htarget with
  | own _ htag _ => exact htag
  | colon rest => simp
  | foreign space tag _ _ _ => simp

namespace Outline

open Grammar

/-! ## Links -/

theorem linkOf_of_not_mem {space target : String} (hcolon : ':' ∉ target.toList) :
    linkOf space target = ⟨space, target⟩ := by
  rw [linkOf, dropWhile_ne_eq_nil hcolon]

theorem linkOf_of_colon {space target : String} {front rest : List Char}
    (hparts : target.toList = front ++ ':' :: rest) (hfront : ':' ∉ front) :
    linkOf space target =
      if front.isEmpty then ⟨space, target⟩ else ⟨String.ofList front, String.ofList rest⟩ := by
  simp only [linkOf, hparts, takeWhile_ne_of_not_mem hfront, dropWhile_ne_of_not_mem hfront]

/-- A link has a tag if it is written as the grammar has it. -/
theorem tag_linkOf_ne_iff {space target : String} :
    (linkOf space target).tag ≠ "" ↔ IsTarget target := by
  by_cases hcolon : ':' ∈ target.toList
  · rcases List.eq_append_cons_of_mem hcolon with ⟨front, rest, hparts, hfront⟩
    have htarget : target = String.ofList front ++ ":" ++ String.ofList rest := by
      rw [← String.toList_inj]
      simp [hparts]
    rw [linkOf_of_colon hparts hfront]
    cases front with
    | nil =>
        have hsome : target ≠ "" := by
          intro hempty
          simp [hempty] at hcolon
        have hgrammar : IsTarget target := by
          rw [htarget]
          simpa using IsTarget.colon (String.ofList rest)
        simp [hsome, hgrammar]
    | cons first front =>
        constructor
        · intro htag
          rw [htarget]
          exact .foreign _ _ (by simp) (by simpa using hfront) htag
        · intro hgrammar
          cases hgrammar with
          | own _ _ hno => exact absurd hcolon hno
          | colon _ =>
              have hfirst : first = ':' := by
                simp at hparts
                exact hparts.1.symm
              simp [hfirst] at hfront
          | foreign space tag _ hspace htag =>
              have hsame : space.toList ++ ':' :: tag.toList = first :: front ++ ':' :: rest := by
                simpa using hparts
              have hrest := (eq_of_first_mark hspace hfront hsame).2
              simpa [← hrest] using htag
  · rw [linkOf_of_not_mem hcolon]
    constructor
    · exact fun htag => .own target htag hcolon
    · intro hgrammar
      cases hgrammar with
      | own _ htag _ => exact htag
      | colon rest => simp
      | foreign space tag _ _ _ => simp at hcolon

/-! ## Tokens -/

/-- What a digit stands for. -/
def digitOf (c : Char) : Nat := c.toNat - '0'.toNat

theorem spanDigits_eq (chars : List Char) :
    Json.spanDigits chars =
      ((chars.takeWhile Char.isDigit).map digitOf, chars.dropWhile Char.isDigit) := by
  induction chars with
  | nil => rfl
  | cons c rest ih =>
      have hdigit : c.isDigit = true ↔ '0' ≤ c ∧ c ≤ '9' := by
        simp [Char.isDigit, Char.le_def]
      rw [Json.spanDigits, Json.digitValue?, ih]
      by_cases hc : c.isDigit = true
      · simp [hdigit.mp hc, hc, digitOf]
      · have hout : ¬ ('0' ≤ c ∧ c ≤ '9') := fun hrange => hc (hdigit.mpr hrange)
        simp [hout, hc]

theorem binaryDigits?_eq_some_iff {chars : List Char} {values : List Nat} :
    binaryDigits? chars = some values ↔
      ∃ digits, digits ≠ [] ∧ (∀ c ∈ digits, c.isDigit = true) ∧
        chars = "binary".toList ++ digits ∧ values = digits.map digitOf := by
  have hword : "binary".toList = ['b', 'i', 'n', 'a', 'r', 'y'] := by decide
  unfold binaryDigits?
  rw [hword]
  split
  next hprefix =>
    rcases List.isPrefixOf_iff_prefix.mp hprefix with ⟨digits, rfl⟩
    have hdrop : (['b', 'i', 'n', 'a', 'r', 'y'] ++ digits).drop 6 = digits := rfl
    rw [hdrop, spanDigits_eq]
    dsimp only
    split
    next hnone =>
      simp only [reduceCtorEq, false_iff]
      rintro ⟨others, hne, hall, hsame, -⟩
      have hothers := List.append_cancel_left hsame
      subst hothers
      rw [List.takeWhile_eq_self_iff.mpr hall, List.dropWhile_eq_nil_iff.mpr hall] at hnone
      simp [hne] at hnone
    next hsome =>
      simp only [Bool.or_eq_true, List.isEmpty_iff, List.map_eq_nil_iff, Bool.not_eq_true',
        List.isEmpty_eq_false_iff, not_or, ne_eq, not_not] at hsome
      rcases hsome with ⟨hne, hrest⟩
      have hall := List.dropWhile_eq_nil_iff.mp hrest
      have hwhole := List.takeWhile_eq_self_iff.mpr hall
      rw [hwhole] at hne ⊢
      constructor
      · intro hvalues
        exact ⟨digits, hne, hall, rfl, (Option.some.inj hvalues).symm⟩
      · rintro ⟨others, -, -, hsame, rfl⟩
        rw [List.append_cancel_left hsame]
  next hprefix =>
    simp only [reduceCtorEq, false_iff]
    rintro ⟨digits, -, -, rfl, -⟩
    exact hprefix (List.isPrefixOf_iff_prefix.mpr ⟨digits, rfl⟩)

theorem foldl_digitOf (digits : List Char) :
    (digits.map digitOf).foldl (fun n d => n * 10 + d) 0 = Nat.ofDigitChars 10 digits 0 := by
  rw [Nat.ofDigitChars, List.foldl_map]
  simp only [digitOf, Nat.mul_comm]

theorem exists_tokenShape_iff {space owner key token : String} :
    (∃ shape, tokenShape space owner key token = .ok shape) ↔ IsToken token := by
  constructor
  · rintro ⟨shape, hshape⟩
    unfold tokenShape at hshape
    extract_lets invalid at hshape
    split at hshape
    next kind hkind =>
      have htoken : kind.token = token := by simpa using List.find?_some hkind
      exact htoken ▸ .primitive kind
    next =>
      split at hshape
      next htext => exact htext ▸ .text
      next =>
        split at hshape
        next values hvalues =>
          rcases binaryDigits?_eq_some_iff.mp hvalues with ⟨digits, hne, hall, hchars, rfl⟩
          extract_lets length at hshape
          split at hshape
          next hfits =>
            have htoken : token = "binary" ++ String.ofList digits := by
              rw [← String.toList_inj, hchars]
              simp
            rw [htoken]
            refine .binary _ (by simpa using hne) (by simpa using hall) ?_
            rw [String.toList_ofList, ← foldl_digitOf]
            exact hfits
          next => cases hshape
        next =>
          split at hshape
          next c more hchars =>
            extract_lets target at hshape
            split at hshape
            · cases hshape
            next hsome =>
              have htoken : token = "@" ++ String.ofList (c :: more) := by
                rw [← String.toList_inj, hchars]
                simp
              have htag : target.tag ≠ "" := by simpa using hsome
              rw [htoken]
              exact .reference _ (tag_linkOf_ne_iff.mp htag)
          next => cases hshape
  · intro htoken
    unfold tokenShape
    extract_lets invalid
    cases htoken with
    | primitive kind => exact ⟨_, by rw [Primitive.ofToken?_token]⟩
    | text =>
        have hother : Primitive.ofToken? "string" = none := by decide
        rw [hother]
        exact ⟨.text, rfl⟩
    | binary digits hne hall hfits =>
        have hvalues : binaryDigits? ("binary" ++ digits).toList =
            some (digits.toList.map digitOf) :=
          binaryDigits?_eq_some_iff.mpr ⟨_, by simpa using hne, hall, by simp, rfl⟩
        split
        · exact ⟨_, rfl⟩
        · split
          · exact ⟨_, rfl⟩
          · rw [hvalues]
            dsimp only
            rw [foldl_digitOf]
            exact ⟨_, if_pos hfits⟩
    | reference target htarget =>
        have hdigits : binaryDigits? ("@" ++ target).toList = none := by
          rw [Option.eq_none_iff_forall_ne_some]
          intro values hvalues
          rcases binaryDigits?_eq_some_iff.mp hvalues with ⟨digits, -, -, hchars, -⟩
          simp at hchars
        rcases List.exists_cons_of_ne_nil (l := target.toList) (by simpa using htarget.ne_empty) with
          ⟨first, more, htargetChars⟩
        have hchars : ("@" ++ target).toList = '@' :: first :: more := by simp [htargetChars]
        have hwhole : String.ofList (first :: more) = target := by
          rw [← htargetChars, String.ofList_toList]
        have htag : ¬ (linkOf space target).tag.isEmpty = true := by
          simpa using tag_linkOf_ne_iff.mpr htarget
        split
        · exact ⟨_, rfl⟩
        · split
          · exact ⟨_, rfl⟩
          · rw [hdigits, hchars]
            simp only [hwhole]
            exact ⟨_, if_neg htag⟩

/-! ## Inheritance -/

theorem splitInheritance_of_not_mem {key : String} (hmark : '@' ∉ key.toList.tail) :
    splitInheritance key = (key, none) := by
  unfold splitInheritance
  split
  · rfl
  next first rest hkey =>
    rw [hkey, List.tail_cons] at hmark
    rw [dropWhile_ne_eq_nil hmark]

theorem splitInheritance_of_mark {key : String} {first : Char} {front rest : List Char}
    (hparts : key.toList = first :: (front ++ '@' :: rest)) (hfront : '@' ∉ front) :
    splitInheritance key =
      if rest.isEmpty then (key, none)
      else (String.ofList (first :: front), some (String.ofList rest)) := by
  unfold splitInheritance
  rw [hparts]
  dsimp only
  rw [takeWhile_ne_of_not_mem hfront, dropWhile_ne_of_not_mem hfront]
  cases rest <;> simp

theorem splitInheritance_eq_some_iff {key tag parent : String} :
    splitInheritance key = (tag, some parent) ↔ Joins key tag parent := by
  constructor
  · intro hsplit
    by_cases hmark : '@' ∈ key.toList.tail
    · rcases List.eq_append_cons_of_mem hmark with ⟨front, rest, htail, hfront⟩
      rcases List.exists_cons_of_ne_nil (l := key.toList) (by rintro hnil; simp [hnil] at hmark) with
        ⟨first, more, hkey⟩
      rw [hkey, List.tail_cons] at htail
      rw [htail] at hkey
      rw [splitInheritance_of_mark hkey hfront] at hsplit
      split at hsplit
      · cases hsplit
      next hrest =>
        cases hsplit
        refine ⟨?_, by simp, by simpa using hfront, by simpa using hrest⟩
        rw [← String.toList_inj]
        simp [hkey]
    · rw [splitInheritance_of_not_mem hmark] at hsplit
      cases hsplit
  · rintro ⟨rfl, htag, hfirst, hparent⟩
    rcases List.exists_cons_of_ne_nil (l := tag.toList) (by simpa using htag) with
      ⟨first, front, hchars⟩
    rw [hchars, List.tail_cons] at hfirst
    have hparts : (tag ++ "@" ++ parent).toList = first :: (front ++ '@' :: parent.toList) := by
      simp [hchars]
    have hwhole : String.ofList (first :: front) = tag := by
      rw [← hchars, String.ofList_toList]
    rw [splitInheritance_of_mark hparts hfirst, hwhole]
    simp [hparent]

theorem splitInheritance_fst_of_none {key : String} (hnone : (splitInheritance key).2 = none) :
    (splitInheritance key).1 = key := by
  unfold splitInheritance at hnone ⊢
  split
  · rfl
  next hkey =>
    rw [hkey] at hnone
    dsimp only at hnone ⊢
    split
    next hmark =>
      rw [hmark] at hnone
      cases hnone
    next => rfl

/-- The tag of a key as the grammar has it. -/
theorem hasTag_iff {key tag : String} : HasTag key tag ↔ (splitInheritance key).1 = tag := by
  cases hsplit : splitInheritance key with
  | mk base parent =>
      cases parent with
      | some parent =>
          have hjoins := splitInheritance_eq_some_iff.mp hsplit
          constructor
          · intro htag
            cases htag with
            | joined hother =>
                rw [splitInheritance_eq_some_iff.mpr hother] at hsplit
                cases hsplit
                rfl
            | whole hnone => exact absurd hjoins (hnone _ _)
          · rintro rfl
            exact .joined hjoins
      | none =>
          have hbase : (splitInheritance key).1 = key :=
            splitInheritance_fst_of_none (by rw [hsplit])
          rw [hsplit] at hbase
          have hnone : ∀ tag parent, ¬ Joins key tag parent := by
            intro tag parent hjoins
            rw [splitInheritance_eq_some_iff.mpr hjoins] at hsplit
            cases hsplit
          dsimp only at hbase ⊢
          rw [hbase]
          constructor
          · intro htag
            cases htag with
            | joined hjoins => exact absurd hjoins (hnone _ _)
            | whole _ => rfl
          · rintro rfl
            exact .whole hnone

/-- Behind a mark with text after it, the tag of a payload would end. -/
theorem splitInheritance_append_eq_none_iff {key suffix : String} (hsuffix : suffix ≠ "")
    (hmark : '@' ∉ suffix.toList) :
    (splitInheritance (key ++ suffix)).2 = none ↔ '@' ∉ key.toList.tail := by
  constructor
  · intro hnone hmem
    rcases List.eq_append_cons_of_mem hmem with ⟨front, rest, htail, hfront⟩
    rcases List.exists_cons_of_ne_nil (l := key.toList) (by rintro hnil; simp [hnil] at hmem) with
      ⟨first, more, hkey⟩
    rw [hkey, List.tail_cons] at htail
    have hparts : (key ++ suffix).toList = first :: (front ++ '@' :: (rest ++ suffix.toList)) := by
      simp [hkey, htail]
    rw [splitInheritance_of_mark hparts hfront] at hnone
    simp [hsuffix] at hnone
  · intro hkey
    have htail : '@' ∉ (key ++ suffix).toList.tail := by
      rw [String.toList_append]
      cases hchars : key.toList with
      | nil => exact fun hmem => hmark (List.mem_of_mem_tail hmem)
      | cons first rest =>
          rw [hchars, List.tail_cons] at hkey
          simp [hkey, hmark]
    rw [splitInheritance_of_not_mem htail]

end Outline
end WireSchema
