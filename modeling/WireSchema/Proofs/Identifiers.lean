import WireSchema.Proofs.Enumerations
import WireSchema.Proofs.Integrity

/-!
# What identifiers look like

An identifier consists of ASCII letters and digits, and in type case a letter in front of it is a
capital.  The ordinal of a key is dropped before anything else is left out.  So a digit that stands
behind something else than letters and digits is kept, and comes first if no letter is before it:
the key hides it.
-/

namespace WireSchema
namespace Naming

/-- What is kept of a key. -/
def isNameChar (c : Char) : Bool := isAsciiLetter c || isAsciiDigit c

/-- A letter, which is a capital for types, and letters and digits behind it. -/
inductive IsIdentifier (case : NameCase) : String → Prop
  | word (first : Char) (rest : List Char) : isAsciiLetter first = true →
    (case = .type → isAsciiUpper first = true) → (∀ c ∈ rest, isNameChar c = true) →
    IsIdentifier case (String.ofList (first :: rest))

inductive StartsWithDigit : String → Prop
  | digit (first : Char) (rest : List Char) : isAsciiDigit first = true →
    StartsWithDigit (String.ofList (first :: rest))

/-- Nothing, or digits with or without a question mark before them. -/
inductive IsOrdinal : List Char → Prop
  | plain (digits : List Char) : (∀ c ∈ digits, isAsciiDigit c = true) → IsOrdinal digits
  | marked (digits : List Char) : digits ≠ [] → (∀ c ∈ digits, isAsciiDigit c = true) →
    IsOrdinal ('?' :: digits)

/-- Behind its ordinal the key goes on with something that is left out, and the first of the letters
and digits that follow is a digit.  A question mark right before digits belongs to the ordinal. -/
inductive HidesDigit : String → Prop
  | behind (ordinal skipped : List Char) (digit : Char) (rest : List Char) : IsOrdinal ordinal →
    skipped ≠ [] → (∀ c ∈ skipped, isNameChar c = false) → (ordinal = [] → skipped ≠ ['?']) →
    isAsciiDigit digit = true → HidesDigit (String.ofList (ordinal ++ skipped ++ digit :: rest))

/-! ## Capitals -/

/-- A letter may become a capital, and nothing else changes. -/
def Capitalised (c d : Char) : Prop := d = c ∨ isAsciiLower c = true ∧ d = c.toUpper

namespace Capitalised

variable {c d : Char} (hcapital : Capitalised c d)

include hcapital

theorem isAsciiLetter_eq : isAsciiLetter d = isAsciiLetter c := by
  rcases hcapital with rfl | ⟨-, rfl⟩
  · rfl
  · exact isAsciiLetter_toUpper c

theorem eq_of_not_letter (hletter : isAsciiLetter c = false) : d = c := by
  rcases hcapital with rfl | ⟨hlower, -⟩
  · rfl
  · rw [isAsciiLetter_of_lower hlower] at hletter
    cases hletter

theorem isAsciiDigit_eq : isAsciiDigit d = isAsciiDigit c := by
  cases hletter : isAsciiLetter c
  · rw [hcapital.eq_of_not_letter hletter]
  · rw [isAsciiDigit_of_letter hletter,
      isAsciiDigit_of_letter (hcapital.isAsciiLetter_eq.trans hletter)]

theorem isNameChar_eq : isNameChar d = isNameChar c := by
  rw [isNameChar, hcapital.isAsciiLetter_eq, hcapital.isAsciiDigit_eq]
  rfl

theorem eq_mark_iff : d = '?' ↔ c = '?' := by
  constructor
  · rintro rfl
    cases hletter : isAsciiLetter c
    · exact (hcapital.eq_of_not_letter hletter).symm
    · have hmark : isAsciiLetter '?' = isAsciiLetter c := hcapital.isAsciiLetter_eq
      rw [hletter] at hmark
      cases hmark
  · rintro rfl
    exact hcapital.eq_of_not_letter (by decide)

end Capitalised

theorem forall₂_capitalised_refl (chars : List Char) : List.Forall₂ Capitalised chars chars :=
  List.forall₂_same.mpr fun _ _ => .inl rfl

theorem forall₂_capitaliseWords (case : NameCase) (chars : List Char) :
    List.Forall₂ Capitalised chars (capitaliseWords case chars) := by
  fun_induction capitaliseWords case chars with
  | case1 => exact .nil
  | case2 c => exact forall₂_capitalised_refl [c]
  | case3 c next rest hcapital ih =>
      rw [Bool.and_eq_true] at hcapital
      exact .cons (.inl rfl) (.cons (.inr ⟨hcapital.2, rfl⟩) ih)
  | case4 c next rest hplain ih => exact .cons (.inl rfl) ih

theorem forall₂_capitalise (case : NameCase) (chars : List Char) :
    List.Forall₂ Capitalised chars (capitalise case chars) := by
  unfold capitalise
  split
  next c rest =>
    split
    next hcapital =>
      rw [Bool.and_eq_true] at hcapital
      exact .cons (.inr ⟨hcapital.2, rfl⟩) (forall₂_capitaliseWords case rest)
    · exact forall₂_capitaliseWords case (c :: rest)
  next => exact .nil

theorem forall₂_dropDigits {chars later : List Char} (hsame : List.Forall₂ Capitalised chars later) :
    List.Forall₂ Capitalised (chars.dropWhile isAsciiDigit) (later.dropWhile isAsciiDigit) := by
  induction hsame with
  | nil => exact .nil
  | cons hfirst hrest ih =>
      rw [List.dropWhile_cons, List.dropWhile_cons, hfirst.isAsciiDigit_eq]
      split
      · exact ih
      · exact .cons hfirst hrest

theorem dropOrdinal_of_ne {first : Char} (rest : List Char) (hfirst : first ≠ '?') :
    dropOrdinal (first :: rest) = (first :: rest).dropWhile isAsciiDigit := by
  simp [dropOrdinal, hfirst]

theorem forall₂_dropOrdinal {chars later : List Char}
    (hsame : List.Forall₂ Capitalised chars later) :
    List.Forall₂ Capitalised (dropOrdinal chars) (dropOrdinal later) := by
  cases hsame with
  | nil => exact .nil
  | @cons c d rest more hfirst hrest =>
      by_cases hmark : c = '?'
      · have hmark' : d = '?' := hfirst.eq_mark_iff.mpr hmark
        subst hmark hmark'
        cases hrest with
        | nil => exact forall₂_capitalised_refl ['?']
        | cons hnext hrest =>
            have hall := List.Forall₂.cons hnext hrest
            rw [dropOrdinal, dropOrdinal, hnext.isAsciiDigit_eq]
            split
            · exact forall₂_dropDigits hall
            · exact .cons hfirst hall
      · have hmark' : d ≠ '?' := fun hd => hmark (hfirst.eq_mark_iff.mp hd)
        rw [dropOrdinal_of_ne _ hmark, dropOrdinal_of_ne _ hmark']
        exact forall₂_dropDigits (.cons hfirst hrest)

/-- Up to capitals, an identifier is what is kept of the key behind its ordinal. -/
theorem forall₂_identifierChars (case : NameCase) (key : List Char) :
    List.Forall₂ Capitalised ((dropOrdinal key).filter isNameChar) (identifierChars case key) := by
  have hsame := forall₂_dropOrdinal (forall₂_capitalise case key)
  refine List.rel_filter (p := isNameChar) (q := isNameChar) (fun c d hcapital => ?_) hsame
  dsimp only
  rw [hcapital.isNameChar_eq]

theorem isNameChar_of_mem {case : NameCase} {key : List Char} {c : Char}
    (hc : c ∈ identifierChars case key) : isNameChar c = true :=
  (List.mem_filter.mp hc).2

/-! ## The first letter of a type name -/

theorem isAsciiLower_toUpper (c : Char) : isAsciiLower c.toUpper = false := by
  have hplain : c.toUpper.isLower = false := Char.isLower_toUpper_eq_false c
  simpa [isAsciiLower, Char.isLower, Char.le_def] using hplain

theorem isAsciiUpper_toUpper {c : Char} (hlower : isAsciiLower c = true) :
    isAsciiUpper c.toUpper = true := by
  have hletter : isAsciiLetter c.toUpper = true := by
    rw [isAsciiLetter_toUpper, isAsciiLetter_of_lower hlower]
  rw [isAsciiLetter, isAsciiLower_toUpper, Bool.false_or] at hletter
  exact hletter

/-- A lower-case letter has a letter before it. -/
def Follows (c d : Char) : Prop := isAsciiLower d = true → isAsciiLetter c = true

theorem head?_capitaliseWords (case : NameCase) (chars : List Char) :
    (capitaliseWords case chars).head? = chars.head? := by
  fun_cases capitaliseWords case chars <;> rfl

theorem isChain_capitaliseWords (chars : List Char) :
    List.IsChain Follows (capitaliseWords .type chars) := by
  fun_induction capitaliseWords .type chars with
  | case1 => exact .nil
  | case2 c => exact .singleton c
  | case3 c next rest hcapital ih =>
      rw [Bool.and_eq_true] at hcapital
      have hupper := isAsciiUpper_toUpper hcapital.2
      rw [List.isChain_cons_cons, List.isChain_cons]
      refine ⟨?_, ?_, ih⟩
      · intro hlower
        rw [isAsciiLower_toUpper] at hlower
        cases hlower
      · intro d _ _
        rw [isAsciiLetter, hupper, Bool.or_true]
  | case4 c next rest hplain ih =>
      rw [List.isChain_cons, head?_capitaliseWords]
      refine ⟨?_, ih⟩
      intro d hd hlower
      cases hd
      simpa [isBoundary, hlower] using hplain

/-- In a key in type case every lower-case letter has a letter before it, the first one included. -/
theorem isChain_capitalise (chars : List Char) :
    List.IsChain Follows ('_' :: capitalise .type chars) := by
  have hwords := isChain_capitaliseWords ('_' :: chars)
  rw [capitaliseWords_underscore] at hwords
  exact hwords

theorem exists_isChain_dropDigits {before : Char} {chars : List Char}
    (hbefore : isAsciiLetter before = false) (hchain : List.IsChain Follows (before :: chars)) :
    ∃ last, isAsciiLetter last = false ∧
      List.IsChain Follows (last :: chars.dropWhile isAsciiDigit) := by
  induction chars generalizing before with
  | nil => exact ⟨before, hbefore, hchain⟩
  | cons c rest ih =>
      cases hdigit : isAsciiDigit c
      · rw [List.dropWhile_cons_of_neg (by simp [hdigit])]
        exact ⟨before, hbefore, hchain⟩
      · have hplain : isAsciiLetter c = false := by
          rw [Bool.eq_false_iff]
          intro hletter
          rw [isAsciiDigit_of_letter hletter] at hdigit
          cases hdigit
        rw [List.dropWhile_cons_of_pos hdigit]
        exact ih hplain hchain.tail

theorem exists_isChain_dropOrdinal {before : Char} {chars : List Char}
    (hbefore : isAsciiLetter before = false) (hchain : List.IsChain Follows (before :: chars)) :
    ∃ last, isAsciiLetter last = false ∧ List.IsChain Follows (last :: dropOrdinal chars) := by
  unfold dropOrdinal
  split
  next rest =>
    split
    next d more =>
      split
      · exact exists_isChain_dropDigits (by decide) hchain.tail
      · exact ⟨before, hbefore, hchain⟩
    next => exact ⟨before, hbefore, hchain⟩
  next => exact exists_isChain_dropDigits hbefore hchain

/-- Of what is kept behind something that is no letter, the first is not lower case. -/
theorem not_lower_of_isChain {before first : Char} {chars rest : List Char}
    (hbefore : isAsciiLetter before = false) (hchain : List.IsChain Follows (before :: chars))
    (hkept : chars.filter isNameChar = first :: rest) : isAsciiLower first = false := by
  induction chars generalizing before with
  | nil => cases hkept
  | cons c more ih =>
      rw [List.isChain_cons_cons] at hchain
      cases hname : isNameChar c
      · rw [List.filter_cons_of_neg (by simp [hname])] at hkept
        have hplain : isAsciiLetter c = false := (Bool.or_eq_false_iff.mp hname).1
        exact ih hplain hchain.2 hkept
      · rw [List.filter_cons_of_pos hname] at hkept
        cases hkept
        rw [Bool.eq_false_iff]
        intro hlower
        rw [hchain.1 hlower] at hbefore
        cases hbefore

theorem not_lower_of_identifierChars {key : List Char} {first : Char} {rest : List Char}
    (hname : identifierChars .type key = first :: rest) : isAsciiLower first = false := by
  rcases exists_isChain_dropOrdinal (by decide) (isChain_capitalise key) with ⟨last, hlast, hchain⟩
  exact not_lower_of_isChain hlast hchain hname

/-! ## Hidden digits -/

/-- The ordinal of a key is as long as it can be. -/
theorem exists_ordinal (key : List Char) :
    ∃ ordinal, IsOrdinal ordinal ∧ key = ordinal ++ dropOrdinal key ∧
      (∀ c ∈ (dropOrdinal key).head?, isAsciiDigit c = false) ∧
      (ordinal = [] → ∀ d rest, dropOrdinal key = '?' :: d :: rest → isAsciiDigit d = false) := by
  have hdigits (chars : List Char) : ∀ c ∈ chars.takeWhile isAsciiDigit, isAsciiDigit c = true :=
    fun c hc => List.mem_takeWhile_imp hc
  have hhead (chars : List Char) :
      ∀ c ∈ (chars.dropWhile isAsciiDigit).head?, isAsciiDigit c = false := by
    intro c hc
    have hnot := List.head?_dropWhile_not isAsciiDigit chars
    rw [Option.mem_def.mp hc] at hnot
    simpa using hnot
  unfold dropOrdinal
  split
  next rest =>
    split
    next d more =>
      split
      next hd =>
        refine ⟨'?' :: (d :: more).takeWhile isAsciiDigit, ?_, ?_, hhead _, by simp⟩
        · refine .marked _ ?_ (hdigits _)
          rw [List.takeWhile_cons_of_pos hd]
          exact List.cons_ne_nil _ _
        · rw [List.cons_append, List.takeWhile_append_dropWhile]
      next hd =>
        refine ⟨[], .plain [] (by simp), rfl, by simp; decide, ?_⟩
        rintro - e others hsame
        cases hsame
        simpa using hd
    next => exact ⟨[], .plain [] (by simp), rfl, by simp; decide, by simp⟩
  next hmark =>
    refine ⟨key.takeWhile isAsciiDigit, .plain _ (hdigits _), ?_, hhead _, ?_⟩
    · rw [List.takeWhile_append_dropWhile]
    · intro hnone d rest hrest
      have hkey := List.takeWhile_append_dropWhile (p := isAsciiDigit) (l := key)
      rw [hnone, hrest] at hkey
      exact absurd hkey.symm (hmark _)

theorem dropOrdinal_append_rest {ordinal rest : List Char} (hordinal : IsOrdinal ordinal)
    (hsome : ordinal ≠ []) (hrest : ∀ c ∈ rest.head?, isAsciiDigit c = false) :
    dropOrdinal (ordinal ++ rest) = rest := by
  have hstays : rest.dropWhile isAsciiDigit = rest := by
    cases rest with
    | nil => rfl
    | cons c more => exact List.dropWhile_cons_of_neg (by simp [hrest c rfl])
  have hdrop {digits : List Char} (hdigits : ∀ c ∈ digits, isAsciiDigit c = true) :
      (digits ++ rest).dropWhile isAsciiDigit = rest := by
    rw [List.dropWhile_append_of_pos hdigits, hstays]
  cases hordinal with
  | plain _ hdigits =>
      rcases List.exists_cons_of_ne_nil hsome with ⟨d, more, rfl⟩
      have hmark : d ≠ '?' := by
        rintro rfl
        cases hdigits '?' List.mem_cons_self
      rw [List.cons_append, dropOrdinal_of_ne _ hmark]
      exact hdrop hdigits
  | marked digits hsome' hdigits =>
      rcases List.exists_cons_of_ne_nil hsome' with ⟨d, more, rfl⟩
      have hd : isAsciiDigit d = true := hdigits d List.mem_cons_self
      rw [List.cons_append, List.cons_append, dropOrdinal, if_pos hd]
      exact hdrop hdigits

theorem dropOrdinal_append_of_isOrdinal {ordinal : List Char} (hordinal : IsOrdinal ordinal)
    {first : Char} {rest : List Char} (hfirst : isAsciiDigit first = false)
    (hmark : ordinal = [] → first = '?' → ∀ c ∈ rest.head?, isAsciiDigit c = false) :
    dropOrdinal (ordinal ++ first :: rest) = first :: rest := by
  by_cases hnone : ordinal = []
  · rw [hnone, List.nil_append]
    by_cases hfirst' : first = '?'
    · subst hfirst'
      cases rest with
      | nil => rfl
      | cons d more =>
          have hd : isAsciiDigit d = false := hmark hnone rfl d rfl
          simp [dropOrdinal, hd]
    · rw [dropOrdinal_of_ne _ hfirst', List.dropWhile_cons_of_neg (by simp [hfirst])]
  · apply dropOrdinal_append_rest hordinal hnone
    rintro c ⟨⟩
    exact hfirst

theorem isNameChar_of_digit {c : Char} (hdigit : isAsciiDigit c = true) : isNameChar c = true := by
  rw [isNameChar, hdigit, Bool.or_true]

/-- A key hides a digit if and only if a digit comes first of what is kept of it. -/
theorem hidesDigit_iff {key : String} :
    HidesDigit key ↔ ∃ first rest,
      (dropOrdinal key.toList).filter isNameChar = first :: rest ∧ isAsciiDigit first = true := by
  constructor
  · rintro ⟨ordinal, skipped, digit, rest, hordinal, hsome, hskipped, hmark, hdigit⟩
    refine ⟨digit, rest.filter isNameChar, ?_, hdigit⟩
    have hnone : skipped.filter isNameChar = [] := by
      rw [List.filter_eq_nil_iff]
      exact fun c hc => by simp [hskipped c hc]
    have hleft : dropOrdinal (ordinal ++ (skipped ++ digit :: rest)) = skipped ++ digit :: rest := by
      rcases List.exists_cons_of_ne_nil hsome with ⟨first, more, rfl⟩
      rw [List.forall_mem_cons] at hskipped
      apply dropOrdinal_append_of_isOrdinal hordinal (Bool.or_eq_false_iff.mp hskipped.1).2
      rintro hempty rfl c hc
      cases more with
      | nil => exact absurd rfl (hmark hempty)
      | cons d others =>
          cases hc
          exact (Bool.or_eq_false_iff.mp (hskipped.2 c List.mem_cons_self)).2
    rw [String.toList_ofList, List.append_assoc, hleft, List.filter_append, hnone,
      List.filter_cons_of_pos (isNameChar_of_digit hdigit), List.nil_append]
  · rintro ⟨digit, kept, hkept, hdigit⟩
    rcases exists_ordinal key.toList with ⟨ordinal, hordinal, hkey, hhead, hmark⟩
    rcases List.filter_eq_cons_iff.mp hkept with ⟨skipped, rest, hleft, hskipped, -, -⟩
    rw [hleft] at hkey hhead hmark
    have hsome : skipped ≠ [] := by
      rintro rfl
      rw [hhead digit rfl] at hdigit
      cases hdigit
    have hwhole : key = String.ofList (ordinal ++ skipped ++ digit :: rest) := by
      rw [List.append_assoc, ← hkey, String.ofList_toList]
    rw [hwhole]
    refine .behind ordinal skipped digit rest hordinal hsome ?_ ?_ hdigit
    · exact fun c hc => by simpa using hskipped c hc
    · rintro hempty rfl
      rw [hmark hempty digit rest rfl] at hdigit
      cases hdigit

/-! ## Identifiers and their keys -/

/-- What the identifier of a key looks like. -/
structure Spelling (case : NameCase) (key name : String) : Prop where
  isNameChar : ∀ c ∈ name.toList, isNameChar c = true
  startsWithDigit_iff : StartsWithDigit name ↔ HidesDigit key
  isIdentifier_iff :
    IsIdentifier case name ↔ key.toList.any isAsciiLetter = true ∧ ¬ HidesDigit key
  eq_empty_iff : name = "" ↔ key.toList.any isAsciiLetter = false ∧ ¬ HidesDigit key

theorem startsWithDigit_iff {first : Char} {rest : List Char} :
    StartsWithDigit (String.ofList (first :: rest)) ↔ isAsciiDigit first = true := by
  constructor
  · intro hstarts
    generalize hname : String.ofList (first :: rest) = name at hstarts
    cases hstarts with
    | digit other more hdigit =>
        rw [String.ofList_inj] at hname
        cases hname
        exact hdigit
  · exact .digit first rest

theorem isIdentifier_iff {case : NameCase} {first : Char} {rest : List Char} :
    IsIdentifier case (String.ofList (first :: rest)) ↔ isAsciiLetter first = true ∧
      (case = .type → isAsciiUpper first = true) ∧ ∀ c ∈ rest, isNameChar c = true := by
  constructor
  · intro hname
    generalize hwhole : String.ofList (first :: rest) = name at hname
    cases hname with
    | word other more hletter hupper hrest =>
        rw [String.ofList_inj] at hwhole
        cases hwhole
        exact ⟨hletter, hupper, hrest⟩
  · exact fun ⟨hletter, hupper, hrest⟩ => .word first rest hletter hupper hrest

theorem not_startsWithDigit_empty : ¬ StartsWithDigit "" := by
  intro hstarts
  generalize hname : "" = name at hstarts
  cases hstarts with
  | digit first rest _ => simp at hname

theorem not_isIdentifier_empty {case : NameCase} : ¬ IsIdentifier case "" := by
  intro hname
  generalize hempty : "" = name at hname
  cases hname with
  | word first rest _ _ _ => simp at hempty

theorem mem_of_mem_dropOrdinal {c : Char} {key : List Char} (hc : c ∈ dropOrdinal key) :
    c ∈ key := by
  rcases exists_ordinal key with ⟨ordinal, -, hkey, -, -⟩
  rw [hkey]
  exact List.mem_append_right _ hc

/-- By what is kept of its key, an identifier is empty, or it starts with a digit that the key hides,
or with a letter. -/
theorem identifierChars_cases (case : NameCase) (key : String) :
    (identifierChars case key.toList = [] ∧ key.toList.any isAsciiLetter = false ∧
        ¬ HidesDigit key) ∨
      ∃ first rest, identifierChars case key.toList = first :: rest ∧
        (isAsciiDigit first = true ∧ HidesDigit key ∨
          isAsciiLetter first = true ∧ key.toList.any isAsciiLetter = true ∧ ¬ HidesDigit key) := by
  have hsame := forall₂_identifierChars case key.toList
  rw [hidesDigit_iff]
  cases hkept : (dropOrdinal key.toList).filter isNameChar with
  | nil =>
      rw [hkept, List.forall₂_nil_left_iff] at hsame
      refine .inl ⟨hsame, ?_, by simp⟩
      rw [Bool.eq_false_iff]
      intro hletter
      apply identifier_ne_empty case hletter
      rw [identifier, hsame, String.ofList_nil]
  | cons c kept =>
      rw [hkept, List.forall₂_cons_left_iff] at hsame
      rcases hsame with ⟨first, rest, hfirst, -, hname⟩
      have hc : c ∈ dropOrdinal key.toList ∧ isNameChar c = true := by
        rw [← List.mem_filter, hkept]
        exact List.mem_cons_self
      refine .inr ⟨first, rest, hname, ?_⟩
      rw [hfirst.isAsciiDigit_eq, hfirst.isAsciiLetter_eq]
      rcases Bool.or_eq_true_iff.mp hc.2 with hletter | hdigit
      · refine .inr ⟨hletter, List.any_eq_true.mpr ⟨c, mem_of_mem_dropOrdinal hc.1, hletter⟩, ?_⟩
        rintro ⟨other, more, hsame, hdigit⟩
        cases hsame
        rw [isAsciiDigit_of_letter hletter] at hdigit
        cases hdigit
      · exact .inl ⟨hdigit, c, kept, rfl, hdigit⟩

theorem spelling_identifier (case : NameCase) (key : String) :
    Spelling case key (identifier case key) := by
  have hchars : ∀ c ∈ (identifier case key).toList, isNameChar c = true := by
    intro c hc
    rw [identifier, String.toList_ofList] at hc
    exact isNameChar_of_mem hc
  rw [identifier] at hchars ⊢
  rcases identifierChars_cases case key with
    ⟨hname, hletters, hhidden⟩ | ⟨first, rest, hname, hfirst⟩
  · rw [hname, String.ofList_nil] at hchars ⊢
    constructor
    · exact hchars
    · simp [not_startsWithDigit_empty, hhidden]
    · simp [not_isIdentifier_empty, hletters]
    · simp [hletters, hhidden]
  · have hsome : String.ofList (first :: rest) ≠ "" := by simp
    rw [hname] at hchars ⊢
    rcases hfirst with ⟨hdigit, hhidden⟩ | ⟨hletter, hletters, hhidden⟩
    · have hplain : ¬ isAsciiLetter first = true := by
        intro hletter
        rw [isAsciiDigit_of_letter hletter] at hdigit
        cases hdigit
      constructor
      · exact hchars
      · exact iff_of_true (startsWithDigit_iff.mpr hdigit) hhidden
      · rw [isIdentifier_iff]
        exact iff_of_false (fun hname => hplain hname.1) fun hkey => hkey.2 hhidden
      · exact iff_of_false hsome fun hkey => hkey.2 hhidden
    · constructor
      · exact hchars
      · rw [startsWithDigit_iff, isAsciiDigit_of_letter hletter]
        exact iff_of_false Bool.false_ne_true hhidden
      · rw [isIdentifier_iff]
        refine iff_of_true ⟨hletter, ?_, ?_⟩ ⟨hletters, hhidden⟩
        · rintro rfl
          have hplain := not_lower_of_identifierChars hname
          rwa [isAsciiLetter, hplain, Bool.false_or] at hletter
        · rw [String.toList_ofList, List.forall_mem_cons] at hchars
          exact hchars.2
      · rw [hletters]
        exact iff_of_false hsome fun hkey => Bool.noConfusion hkey.1

/-- A name of a graph is made of a key.  It is an identifier unless the key hides a digit. -/
structure Named (case : NameCase) (key name : String) : Prop where
  eq_identifier : name = identifier case key
  ne_empty : name ≠ ""
  isNameChar : ∀ c ∈ name.toList, isNameChar c = true
  isIdentifier_iff : IsIdentifier case name ↔ ¬ HidesDigit key
  startsWithDigit_iff : StartsWithDigit name ↔ HidesDigit key

theorem named_of_ne_empty {case : NameCase} {key name : String}
    (hname : name = identifier case key) (hsome : name ≠ "") : Named case key name := by
  have hspelling : Spelling case key name := hname ▸ spelling_identifier case key
  refine ⟨hname, hsome, hspelling.isNameChar, ?_, hspelling.startsWithDigit_iff⟩
  rw [hspelling.isIdentifier_iff]
  constructor
  · exact And.right
  · intro hhidden
    refine ⟨?_, hhidden⟩
    rw [← Bool.not_eq_false]
    exact fun hletters => hsome (hspelling.eq_empty_iff.mpr ⟨hletters, hhidden⟩)

end Naming

open Naming (Named Spelling identifier)

/-! ## Names of a graph -/

/-- The names of a graph and the keys that they are made of.  The keys of enum values are rows of the
entry that declares the enum. -/
structure Graph.NamesKeys (graph : Graph) (documents : List Document) : Prop where
  object : ∀ id : ObjectId, id.index < graph.objects.size →
    Named .type (graph.object id).tag (graph.object id).name
  field : ∀ id, ∀ field ∈ (graph.object id).fields, Named .field field.key field.name
  enum : ∀ id : EnumId, id.index < graph.enums.size →
    Named .type (graph.enum id).tag (graph.enum id).name
  value : ∀ id : EnumId, id.index < graph.enums.size → ∃ document ∈ documents, ∃ rows,
    (graph.enum id).DeclaredBy document rows ∧
      List.Forall₂ (Named .field) rows (graph.enum id).values

namespace Batch.Numbers

variable {batch : Batch} {outlines : List Outline} {found : Findings}
  (hnumbers : batch.Numbers outlines) (hfound : batch.Examined found)

include hnumbers hfound

theorem named_object {id : ObjectId} {placed : PlacedObject}
    (hplaced : batch.objects[id.index]? = some placed) :
    Named .type ((batch.graph found).object id).tag ((batch.graph found).object id).name := by
  have hsound := hnumbers.sound.of_getElem? hplaced
  have hrepresents := hnumbers.represents hfound hplaced
  rw [← object_graph id.index hplaced] at hrepresents
  rw [hrepresents.tag_eq, hrepresents.name_eq]
  exact Naming.named_of_ne_empty hsound.name_eq hsound.usable.1

theorem named_ownField {id : ObjectId} {field : Field}
    (hfield : field ∈ (batch.graph found).ownFields id) : Named .field field.key field.name := by
  rcases exists_placed_of_field hfield with ⟨placed, hplaced⟩
  have hsound := hnumbers.sound.of_getElem? hplaced
  have hfields := (hnumbers.represents hfound hplaced).fields
  rw [← object_graph id.index hplaced] at hfields
  rcases Outcome.exists_mem_of_forall₂ hfields.flip hfield with
    ⟨declared, hdeclared, hkey, hname, -⟩
  rcases hsound.fields_named declared hdeclared with ⟨husable, hidentifier⟩
  rw [hkey, hname]
  exact Naming.named_of_ne_empty hidentifier husable.1

end Batch.Numbers

theorem EnumType.DeclaredBy.named {document : Document} {rows : List String} {type : EnumType}
    (hdeclared : type.DeclaredBy document rows) : Named .type type.tag type.name :=
  Naming.named_of_ne_empty hdeclared.lists.name_eq hdeclared.lists.usable.1

theorem EnumType.DeclaredBy.named_values {document : Document} {rows : List String}
    {type : EnumType} (hdeclared : type.DeclaredBy document rows) :
    List.Forall₂ (Named .field) rows type.values := by
  have hvalues : type.values = rows.map (identifier .field) := hdeclared.lists.values_eq
  rw [hvalues, List.forall₂_map_right_iff, List.forall₂_same]
  intro row hrow
  exact Naming.named_of_ne_empty rfl (hdeclared.lists.distinguished.usable row hrow).1

/-- Identifiers are made of letters and digits, and a digit comes first exactly for the keys that hide
one.  All names of a compiled graph are made of keys in this way. -/
theorem Graph.namesKeys_of_compile (documents : List Document) :
    (∀ case key, Spelling case key (identifier case key)) ∧
      ∀ graph, Graph.compile documents = .ok graph → graph.NamesKeys documents := by
  refine ⟨Naming.spelling_identifier, ?_⟩
  intro graph hcompile
  have henum : ∀ id : EnumId, id.index < graph.enums.size →
      ∃ document ∈ documents, ∃ rows, (graph.enum id).DeclaredBy document rows := by
    intro id hid
    have htype : graph.enums[id.index]? = some (graph.enum id) := by
      rw [Graph.enum, Array.getD_eq_getD_getElem?, Array.getElem?_eq_getElem hid]
      rfl
    exact exists_declaredBy_of_compile hcompile htype
  rcases exists_batch_of_compile hcompile with ⟨outlines, batch, found, hnumbers, hfound, rfl⟩
  have hflattens := Batch.flattensFields_graph hfound
  constructor
  · intro id hid
    rw [Batch.size_graph] at hid
    exact hnumbers.named_object hfound (List.getElem?_eq_getElem hid)
  · intro id field hfield
    exact hnumbers.named_ownField hfound (hflattens.declaredIn id field hfield).2
  · intro id hid
    rcases henum id hid with ⟨document, -, rows, hdeclared⟩
    exact hdeclared.named
  · intro id hid
    rcases henum id hid with ⟨document, hdocument, rows, hdeclared⟩
    exact ⟨document, hdocument, rows, hdeclared, hdeclared.named_values⟩

namespace Sample

/-- Keys with digits behind an underscore. -/
def lockers : List Document :=
  [⟨"hall", .object [("_1a", .object [("_2b", .string "bool")]), ("_4e", .array [.string "_3c"])]⟩]

/-- The digits come first in the names. -/
theorem namesKeys_lockers :
    (schemaOf 1 lockers).graph.NamesKeys lockers ∧
      ((schemaOf 1 lockers).graph.object ⟨0⟩).name = "1A" ∧
        Naming.HidesDigit ((schemaOf 1 lockers).graph.object ⟨0⟩).tag ∧
          ¬ Naming.IsIdentifier .type ((schemaOf 1 lockers).graph.object ⟨0⟩).name := by
  have hcompile : Graph.compile lockers = _ := compile_schemaOf 1 (by decide +kernel)
  have hnames := (Graph.namesKeys_of_compile lockers).2 _ hcompile
  have hname : ((schemaOf 1 lockers).graph.object ⟨0⟩).name = "1A" := by decide +kernel
  have hobject := hnames.object ⟨0⟩ (by decide +kernel)
  have hhidden := hobject.startsWithDigit_iff.mp (hname ▸ .digit '1' ['A'] (by decide))
  exact ⟨hnames, hname, hhidden, fun hvalid => hobject.isIdentifier_iff.mp hvalid hhidden⟩

end Sample

end WireSchema
