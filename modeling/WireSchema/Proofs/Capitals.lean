import WireSchema.Proofs.Identifiers

/-!
# The rule for identifiers

What becomes of a key is said here of the key as a whole.  A lower-case letter is capitalised if a
word starts with it, which depends on the character before it alone.  Then an ordinal in front is
left out, and then everything that is no letter or digit.  The characters of a key are looked at
one or two at a time, but no start of a word is passed over and none is seen twice, so that exactly
the identifier of a key follows this rule.
-/

namespace WireSchema
namespace Naming

/-- A word starts at the front of a key, in type case, and behind whatever is no letter; in field
case the mark of an optional field is not counted. -/
inductive StartsWord (case : NameCase) (key : List Char) : Nat → Prop
  | front : case = .type → StartsWord case key 0
  | behind (index : Nat) (before : Char) : key[index]? = some before →
    isAsciiLetter before = false → (case = .field → before ≠ '?') → StartsWord case key (index + 1)

/-- The lower-case letters that words start with are capitals, and all else is as in the key. -/
structure Raises (case : NameCase) (key raised : List Char) : Prop where
  length_eq : raised.length = key.length
  capital : ∀ index c, key[index]? = some c → isAsciiLower c = true → StartsWord case key index →
    raised[index]? = some c.toUpper
  plain : ∀ index c, key[index]? = some c → ¬ (isAsciiLower c = true ∧ StartsWord case key index) →
    raised[index]? = some c

/-- A question mark, which may be missing, and a digit. -/
inductive StartsWithOrdinal : List Char → Prop
  | plain (digit : Char) (rest : List Char) : isAsciiDigit digit = true →
    StartsWithOrdinal (digit :: rest)
  | marked (digit : Char) (rest : List Char) : isAsciiDigit digit = true →
    StartsWithOrdinal ('?' :: digit :: rest)

/-- An ordinal in front, all of its digits included, is left out if there is one. -/
inductive Sheds : List Char → List Char → Prop
  | ordinal (ordinal rest : List Char) : IsOrdinal ordinal → ordinal ≠ [] →
    (∀ c ∈ rest.head?, isAsciiDigit c = false) → Sheds (ordinal ++ rest) rest
  | nothing (chars : List Char) : ¬ StartsWithOrdinal chars → Sheds chars chars

/-- The rule for the identifier of a key. -/
inductive FollowsRule (case : NameCase) (key : String) : String → Prop
  | kept (raised left : List Char) : Raises case key.toList raised → Sheds raised left →
    FollowsRule case key
      (String.ofList (left.filter fun c => isAsciiLetter c || isAsciiDigit c))

/-! ## Starts of words -/

/-- Whether a word starts behind a character, or at the front. -/
def opensWord (case : NameCase) : Option Char → Bool
  | none => case == .type
  | some c => isBoundary case c

/-- Capitalises the letters that words start with, character by character. -/
def raise (case : NameCase) (before : Option Char) : List Char → List Char
  | [] => []
  | c :: rest =>
    (if opensWord case before && isAsciiLower c then c.toUpper else c) :: raise case (some c) rest

/-- The character before a place. -/
def preceding (before : Option Char) (key : List Char) : Nat → Option Char
  | 0 => before
  | index + 1 => key[index]?

theorem isBoundary_of_lower {case : NameCase} {c : Char} (hlower : isAsciiLower c = true) :
    isBoundary case c = false := by
  rw [isBoundary, isAsciiLetter_of_lower hlower]
  rfl

/-- Two characters at a time give what single ones give, if the first is not to be raised. -/
theorem capitaliseWords_eq_raise {case : NameCase} {before : Option Char} {chars : List Char}
    (hfirst : ∀ c ∈ chars.head?, (opensWord case before && isAsciiLower c) = false) :
    capitaliseWords case chars = raise case before chars := by
  fun_induction capitaliseWords case chars generalizing before with
  | case1 => rfl
  | case2 c =>
      have hplain := hfirst c rfl
      rw [raise, raise, hplain, if_neg Bool.false_ne_true]
  | case3 c next rest hcapital ih =>
      -- The second of the two is a letter, so no word starts behind it.
      have hplain := hfirst c rfl
      have hnext : opensWord case (some next) = false :=
        isBoundary_of_lower (Bool.and_eq_true_iff.mp hcapital).2
      have hrest : capitaliseWords case rest = raise case (some next) rest :=
        ih fun _ _ => by rw [hnext, Bool.false_and]
      rw [raise, raise, hplain, if_neg Bool.false_ne_true, opensWord, if_pos hcapital, hrest]
  | case4 c next rest hcapital ih =>
      have hplain := hfirst c rfl
      have hrest : capitaliseWords case (next :: rest) = raise case (some c) (next :: rest) := by
        apply ih
        intro d hd
        cases hd
        exact Bool.eq_false_iff.mpr hcapital
      rw [raise, hplain, if_neg Bool.false_ne_true, hrest]

theorem capitalise_eq_raise (case : NameCase) (key : List Char) :
    capitalise case key = raise case none key := by
  unfold capitalise
  split
  next c rest =>
    have hfront : (decide (case = .type) && isAsciiLower c) =
        (opensWord case none && isAsciiLower c) := by
      cases case <;> rfl
    rw [hfront]
    split
    next hcapital =>
      have hplain : opensWord case (some c) = false :=
        isBoundary_of_lower (Bool.and_eq_true_iff.mp hcapital).2
      have hrest : capitaliseWords case rest = raise case (some c) rest :=
        capitaliseWords_eq_raise fun _ _ => by rw [hplain, Bool.false_and]
      rw [raise, if_pos hcapital, hrest]
    next hcapital =>
      apply capitaliseWords_eq_raise
      intro d hd
      cases hd
      exact Bool.eq_false_iff.mpr hcapital
  next => rfl

theorem length_raise (case : NameCase) (before : Option Char) (key : List Char) :
    (raise case before key).length = key.length := by
  induction key generalizing before with
  | nil => rfl
  | cons c rest ih => rw [raise, List.length_cons, List.length_cons, ih]

theorem getElem?_raise {case : NameCase} {before : Option Char} {key : List Char} {index : Nat}
    {c : Char} (hc : key[index]? = some c) :
    (raise case before key)[index]? =
      some (if opensWord case (preceding before key index) && isAsciiLower c then c.toUpper
        else c) := by
  induction key generalizing before index with
  | nil => simp at hc
  | cons first rest ih =>
      cases index with
      | zero =>
          cases hc
          rfl
      | succ index =>
          have hbefore : preceding before (first :: rest) (index + 1) =
              preceding (some first) rest index := by
            cases index <;> rfl
          rw [hbefore, raise, List.getElem?_cons_succ]
          exact ih hc

theorem opensWord_iff {case : NameCase} {key : List Char} {index : Nat} {c : Char}
    (hc : key[index]? = some c) :
    opensWord case (preceding none key index) = true ↔ StartsWord case key index := by
  cases index with
  | zero =>
      rw [preceding, opensWord, beq_iff_eq]
      constructor
      · exact .front
      · rintro ⟨hcase⟩
        exact hcase
  | succ index =>
      have hlt : index < key.length :=
        Nat.lt_of_succ_lt (List.getElem?_eq_some_iff.mp hc).1
      have hbefore : key[index]? = some key[index] := List.getElem?_eq_getElem hlt
      have hboundary : isBoundary case key[index] = true ↔
          isAsciiLetter key[index] = false ∧ (case = .field → key[index] ≠ '?') := by
        cases case <;> simp [isBoundary]
      rw [preceding, hbefore, opensWord, hboundary]
      constructor
      · rintro ⟨hletter, hmark⟩
        exact .behind index _ hbefore hletter hmark
      · rintro (_ | ⟨_, before, hsome, hletter, hmark⟩)
        cases hbefore.symm.trans hsome
        exact ⟨hletter, hmark⟩

/-! ## Keys and what is raised in them -/

theorem raises_capitalise (case : NameCase) (key : List Char) :
    Raises case key (capitalise case key) := by
  rw [capitalise_eq_raise]
  refine ⟨length_raise case none key, ?_, ?_⟩
  · intro index c hc hlower hword
    rw [getElem?_raise hc, (opensWord_iff hc).mpr hword, hlower]
    rfl
  · intro index c hc hplain
    rw [getElem?_raise hc, if_neg]
    rw [Bool.and_eq_true, opensWord_iff hc]
    exact fun hboth => hplain hboth.symm

theorem Raises.eq {case : NameCase} {key raised other : List Char}
    (hraised : Raises case key raised) (hother : Raises case key other) : raised = other := by
  apply List.ext_getElem?
  intro index
  cases hc : key[index]? with
  | none =>
      rw [List.getElem?_eq_none_iff] at hc
      rw [List.getElem?_eq_none (hraised.length_eq ▸ hc),
        List.getElem?_eq_none (hother.length_eq ▸ hc)]
  | some c =>
      by_cases hcapital : isAsciiLower c = true ∧ StartsWord case key index
      · rw [hraised.capital index c hc hcapital.1 hcapital.2,
          hother.capital index c hc hcapital.1 hcapital.2]
      · rw [hraised.plain index c hc hcapital, hother.plain index c hc hcapital]

/-! ## Ordinals -/

/-- Whatever starts with an ordinal falls into one and what is left without it. -/
theorem StartsWithOrdinal.exists_ordinal {chars : List Char} (hstarts : StartsWithOrdinal chars) :
    ∃ ordinal, IsOrdinal ordinal ∧ ordinal ≠ [] ∧ chars = ordinal ++ dropOrdinal chars := by
  rcases Naming.exists_ordinal chars with ⟨ordinal, hordinal, hchars, hhead, hmark⟩
  refine ⟨ordinal, hordinal, ?_, hchars⟩
  rintro rfl
  rw [List.nil_append] at hchars
  rw [← hchars] at hhead hmark
  cases hstarts with
  | plain digit rest hdigit =>
      rw [hhead digit rfl] at hdigit
      cases hdigit
  | marked digit rest hdigit =>
      rw [hmark rfl digit rest rfl] at hdigit
      cases hdigit

/-- Nothing is dropped exactly if there is no ordinal in front. -/
theorem dropOrdinal_eq_self_iff {chars : List Char} :
    dropOrdinal chars = chars ↔ ¬ StartsWithOrdinal chars := by
  constructor
  · intro hsame hstarts
    rcases hstarts.exists_ordinal with ⟨ordinal, -, hsome, hchars⟩
    rw [hsame, List.self_eq_append_left] at hchars
    exact hsome hchars
  · intro hstarts
    rcases Naming.exists_ordinal chars with ⟨ordinal, hordinal, hchars, -, -⟩
    cases hordinal with
    | plain _ hdigits =>
        cases ordinal with
        | nil => exact hchars.symm
        | cons d more =>
            rw [hchars] at hstarts
            exact absurd (.plain d _ (hdigits d List.mem_cons_self)) hstarts
    | marked digits hsome hdigits =>
        rcases List.exists_cons_of_ne_nil hsome with ⟨d, more, rfl⟩
        rw [hchars] at hstarts
        exact absurd (.marked d _ (hdigits d List.mem_cons_self)) hstarts

instance (chars : List Char) : Decidable (StartsWithOrdinal chars) :=
  decidable_of_iff (dropOrdinal chars ≠ chars) (by rw [ne_eq, dropOrdinal_eq_self_iff, not_not])

theorem sheds_iff {chars left : List Char} : Sheds chars left ↔ left = dropOrdinal chars := by
  constructor
  · intro hsheds
    cases hsheds with
    | ordinal ordinal rest hordinal hsome hrest =>
        exact (dropOrdinal_append_rest hordinal hsome hrest).symm
    | nothing _ hstarts => exact (dropOrdinal_eq_self_iff.mpr hstarts).symm
  · rintro rfl
    by_cases hstarts : StartsWithOrdinal chars
    · rcases Naming.exists_ordinal chars with ⟨-, -, -, hhead, -⟩
      rcases hstarts.exists_ordinal with ⟨ordinal, hordinal, hsome, hchars⟩
      have hsheds := Sheds.ordinal ordinal (dropOrdinal chars) hordinal hsome hhead
      rwa [← hchars] at hsheds
    · rw [dropOrdinal_eq_self_iff.mpr hstarts]
      exact .nothing chars hstarts

/-- Exactly the identifier of a key follows the rule. -/
theorem followsRule_iff {case : NameCase} {key name : String} :
    FollowsRule case key name ↔ name = identifier case key := by
  constructor
  · rintro ⟨raised, left, hraised, hsheds⟩
    rw [sheds_iff.mp hsheds, hraised.eq (raises_capitalise case key.toList)]
    rfl
  · rintro rfl
    exact .kept _ _ (raises_capitalise case key.toList) (sheds_iff.mpr rfl)

end Naming
end WireSchema
