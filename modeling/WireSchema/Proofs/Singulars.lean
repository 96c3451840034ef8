import WireSchema.Naming.Singular
import WireSchema.Proofs.Identifiers

/-!
# What is left of a key in the singular

A singular keeps a letter or a digit of its key, with two exceptions: a key that shows nothing but a
plural `s`, and one that ends in `es` behind two long s, the hissing of which the rules take for a
word.  Every rule either puts letters in the place of an ending, or stands on a stem with a letter
that has no other form than those of ASCII.
-/

namespace WireSchema
namespace Naming

/-- Characters of which no name keeps anything. -/
def Silent (chars : List Char) : Prop := ∀ c ∈ chars, isNameChar c = false

/-- Keys of which nothing is left to be kept in the singular. -/
inductive Fades : List Char → Prop
  | plural (silent : List Char) : Silent silent → silent.getLast? ≠ some 'ſ' →
    Fades (silent ++ ['s'])
  | hissing (silent : List Char) (e s : Char) : Silent silent → e = 'e' ∨ e = 'E' →
    s = 's' ∨ s = 'ſ' → Fades (silent ++ ['ſ', 'ſ', e, s])

/-! ## Letters without regard to case -/

/-- A letter outside of some others, which are to include those with forms beyond ASCII. -/
def isFurther (others : List Char) (letter : Char) : Bool :=
  isAsciiLower letter && !('s' :: 'k' :: others).contains letter

theorem eq_or_eq_toUpper {others : List Char} {letter c : Char}
    (hfurther : isFurther others letter = true) (hsame : sameLetter letter c = true) :
    c = letter ∨ c = letter.toUpper := by
  simp only [isFurther, List.contains_cons, Bool.and_eq_true, Bool.not_eq_true',
    Bool.or_eq_false_iff, beq_eq_false_iff_ne] at hfurther
  simpa [sameLetter, hfurther.2.1, hfurther.2.2.1] using hsame

theorem isNameChar_of_further {others : List Char} {letter c : Char}
    (hfurther : isFurther others letter = true) (hsame : sameLetter letter c = true) :
    isNameChar c = true := by
  have hletter : isAsciiLetter letter = true :=
    isAsciiLetter_of_lower (Bool.and_eq_true_iff.mp hfurther).1
  rcases eq_or_eq_toUpper hfurther hsame with rfl | rfl
  · rw [isNameChar, hletter, Bool.true_or]
  · rw [isNameChar, isAsciiLetter_toUpper, hletter, Bool.true_or]

theorem sameLetter_s_iff {c : Char} :
    sameLetter 's' c = true ↔ c = 's' ∨ c = 'S' ∨ c = 'ſ' := by
  have hupper : 's'.toUpper = 'S' := by decide
  simp [sameLetter, hupper, or_assoc]

theorem sameLetter_e_iff {c : Char} : sameLetter 'e' c = true ↔ c = 'e' ∨ c = 'E' := by
  have hupper : 'e'.toUpper = 'E' := by decide
  simp [sameLetter, hupper]

/-! ## Rules that fit -/

def StemPiece.demands (others : List Char) : StemPiece → Bool
  | .letter l => isFurther others l
  | _ => false

theorem exists_of_endsWithPieces {pieces : List StemPiece} {before : List Char}
    {after : Option Char} (hfits : endsWithPieces pieces before after = true) {l : Char}
    (hl : .letter l ∈ pieces) : ∃ c ∈ before, sameLetter l c = true := by
  fun_induction endsWithPieces pieces before after with
  | case1 => cases hl
  | case2 _ _ _ ih | case3 _ _ _ ih =>
      rw [Bool.and_eq_true] at hfits
      rcases List.mem_cons.mp hl with hnone | hl
      · cases hnone
      · exact ih hfits.2 hl
  | case4 _ _ c _ _ ih =>
      rw [Bool.and_eq_true] at hfits
      rcases List.mem_cons.mp hl with hhere | hl
      · cases hhere
        exact ⟨c, List.mem_cons_self, hfits.1⟩
      · rcases ih hfits.2 hl with ⟨d, hd, hsame⟩
        exact ⟨d, List.mem_cons_of_mem c hd, hsame⟩
  | case5 _ _ c _ _ ih | case6 _ _ c _ _ ih | case7 _ c _ _ ih =>
      rw [Bool.and_eq_true] at hfits
      rcases List.mem_cons.mp hl with hnone | hl
      · cases hnone
      · rcases ih hfits.2 hl with ⟨d, hd, hsame⟩
        exact ⟨d, List.mem_cons_of_mem c hd, hsame⟩
  | case8 => cases hfits

theorem exists_of_demands {others : List Char} {stem : List StemPiece} {before : List Char}
    {after : Option Char} (hdemands : stem.any (·.demands others) = true)
    (hfits : endsWithPieces stem.reverse before after = true) :
    ∃ c ∈ before, ∃ l, isFurther others l = true ∧ sameLetter l c = true := by
  rcases List.any_eq_true.mp hdemands with ⟨piece, hpiece, hfurther⟩
  cases piece with
  | letter l =>
      rcases exists_of_endsWithPieces hfits (List.mem_reverse.mpr hpiece) with ⟨c, hc, hsame⟩
      exact ⟨c, hc, l, hfurther, hsame⟩
  | _ => cases hfurther

theorem dropEnding_eq_some {ending word rest : List Char} {after next : Option Char}
    (hdrop : dropEnding ending word after = some (rest, next)) :
    ∃ dropped, word = dropped ++ rest ∧
      List.Forall₂ (fun e c => sameLetter e c = true) ending dropped := by
  fun_induction dropEnding ending word after with
  | case1 => cases hdrop; exact ⟨[], rfl, .nil⟩
  | case2 e ending c rest' after hsame ih =>
      rcases ih hdrop with ⟨dropped, rfl, hall⟩
      exact ⟨c :: dropped, rfl, .cons hsame hall⟩
  | case3 => cases hdrop
  | case4 => cases hdrop

/-- How a rule fits a reversed word: behind one of its stems stands one of its endings. -/
structure SingularRule.Fits (rule : SingularRule) (reversed result : List Char) (ending : String)
    (stem : List StemPiece) (dropped rest : List Char) (after : Option Char) : Prop where
  ending_mem : ending ∈ rule.endings
  stem_mem : stem ∈ rule.stems
  reversed_eq : reversed = dropped ++ rest
  dropped_same : List.Forall₂ (fun e c => sameLetter e c = true) ending.toList.reverse dropped
  stem_fits : endsWithPieces stem.reverse rest after = true
  result_eq : result = rest.reverse ++ rule.replacement.toList

namespace SingularRule

variable {rule : SingularRule} {reversed result : List Char}

theorem exists_fits (hresult : rule.singular? reversed = some result) :
    ∃ ending stem dropped rest after,
      rule.Fits reversed result ending stem dropped rest after := by
  rcases List.exists_of_findSome?_eq_some hresult with ⟨ending, hending, hdrop⟩
  rcases Option.bind_eq_some_iff.mp hdrop with ⟨⟨rest, after⟩, hrest, hstem⟩
  dsimp only at hstem
  split at hstem
  next hany =>
    rcases List.any_eq_true.mp hany with ⟨stem, hstem', hfits⟩
    rcases dropEnding_eq_some hrest with ⟨dropped, hreversed, hsame⟩
    exact ⟨ending, stem, dropped, rest, after, hending, hstem', hreversed, hsame, hfits,
      (Option.some.inj hstem).symm⟩
  next => cases hstem

/-- Whatever the rule makes of a word has a letter. -/
def isVoiced (rule : SingularRule) : Bool :=
  rule.replacement.toList.any isNameChar || rule.stems.all (·.any (·.demands []))

theorem not_silent_of_isVoiced (hvoiced : rule.isVoiced = true)
    (hresult : rule.singular? reversed = some result) : ¬ Silent result := by
  intro hsilent
  rcases exists_fits hresult with ⟨ending, stem, dropped, rest, after, hfits⟩
  rw [hfits.result_eq] at hsilent
  rcases Bool.or_eq_true_iff.mp hvoiced with hreplaced | hstems
  · rcases List.any_eq_true.mp hreplaced with ⟨c, hc, hname⟩
    rw [hsilent c (List.mem_append_right _ hc)] at hname
    cases hname
  · have hdemands := List.all_eq_true.mp hstems stem hfits.stem_mem
    rcases exists_of_demands hdemands hfits.stem_fits with ⟨c, hc, l, hfurther, hsame⟩
    have hname := isNameChar_of_further hfurther hsame
    rw [hsilent c (List.mem_append_left _ (List.mem_reverse.mpr hc))] at hname
    cases hname

/-- The rule fits no word without a letter besides the given ones. -/
def requires (others : List Char) (rule : SingularRule) : Bool :=
  rule.endings.all (·.toList.any (isFurther others)) ||
    rule.stems.all (·.any (·.demands others))

theorem exists_of_requires {others : List Char} (hrequires : rule.requires others = true)
    (hresult : rule.singular? reversed = some result) :
    ∃ c ∈ reversed, ∃ l, isFurther others l = true ∧ sameLetter l c = true := by
  rcases exists_fits hresult with ⟨ending, stem, dropped, rest, after, hfits⟩
  rw [hfits.reversed_eq]
  rcases Bool.or_eq_true_iff.mp hrequires with hendings | hstems
  · rcases List.any_eq_true.mp (List.all_eq_true.mp hendings ending hfits.ending_mem) with
      ⟨l, hl, hfurther⟩
    rcases Outcome.exists_mem_of_forall₂ hfits.dropped_same (List.mem_reverse.mpr hl) with
      ⟨c, hc, hsame⟩
    exact ⟨c, List.mem_append_left rest hc, l, hfurther, hsame⟩
  · have hdemands := List.all_eq_true.mp hstems stem hfits.stem_mem
    rcases exists_of_demands hdemands hfits.stem_fits with ⟨c, hc, l, hfurther, hsame⟩
    exact ⟨c, List.mem_append_right dropped hc, l, hfurther, hsame⟩

end SingularRule

/-! ## The list of rules -/

/-- The rule for words that end in a hiss, two s among others. -/
def hissingRule : SingularRule := singularRules[13]

/-- The rule that keeps two s at the end. -/
def doubledRule : SingularRule := ⟨wordStems ["ss"], [""], ""⟩

/-- The rule for all other plurals. -/
def pluralRule : SingularRule := ⟨[[]], ["s"], ""⟩

def leadingRules : List SingularRule := singularRules.take 13

def middleRules : List SingularRule := (singularRules.drop 14).take 8

theorem singularRules_eq :
    singularRules = leadingRules ++ hissingRule :: (middleRules ++ [doubledRule, pluralRule]) := rfl

/-- Of all rules the first that fits decides. -/
theorem findSome?_singularRules {α : Type} (f : SingularRule → Option α) :
    singularRules.findSome? f = (leadingRules.findSome? f).or ((f hissingRule).or
      ((middleRules.findSome? f).or ((f doubledRule).or (f pluralRule)))) := by
  have hlast : [doubledRule, pluralRule].findSome? f = (f doubledRule).or (f pluralRule) := by
    cases hdoubled : f doubledRule <;> cases hplural : f pluralRule <;> simp [hdoubled, hplural]
  rw [singularRules_eq, List.findSome?_append, List.findSome?_cons, List.findSome?_append, hlast]
  cases f hissingRule <;> rfl

theorem isVoiced_of_mem {rule : SingularRule} (hrule : rule ∈ leadingRules ++ middleRules) :
    rule.isVoiced = true := by
  have hall : (leadingRules ++ middleRules).all (·.isVoiced) = true := by decide +kernel
  exact List.all_eq_true.mp hall rule hrule

theorem requires_of_mem {rule : SingularRule} (hrule : rule ∈ leadingRules ++ middleRules) :
    rule.requires [] = true := by
  have hall : (leadingRules ++ middleRules).all (·.requires []) = true := by decide +kernel
  exact List.all_eq_true.mp hall rule hrule

theorem requires_of_mem_leading {rule : SingularRule} (hrule : rule ∈ leadingRules) :
    rule.requires ['e'] = true := by
  have hall : leadingRules.all (·.requires ['e']) = true := by decide +kernel
  exact List.all_eq_true.mp hall rule hrule

theorem stems_hissingRule : hissingRule.stems =
    hissingRule.stems.take 2 ++ wordStem "ss" :: hissingRule.stems.drop 3 := rfl

/-- Of the stems of a hiss only two s have forms that are all beyond ASCII. -/
theorem demands_of_hissing : ∀ stem ∈ hissingRule.stems,
    stem = wordStem "ss" ∨ stem.any (·.demands []) = true := by
  have hall : (hissingRule.stems.take 2 ++ hissingRule.stems.drop 3).all
      (·.any (·.demands [])) = true := by decide +kernel
  intro stem hstem
  rw [stems_hissingRule, List.mem_append, List.mem_cons] at hstem
  rw [List.all_eq_true] at hall
  rcases hstem with hstem | rfl | hstem
  · exact .inr (hall stem (List.mem_append_left _ hstem))
  · exact .inl rfl
  · exact .inr (hall stem (List.mem_append_right _ hstem))

theorem doubled_iff {rest : List Char} {after : Option Char} :
    endsWithPieces (wordStem "ss").reverse rest after = true ↔
      ∃ a b more, rest = a :: b :: more ∧ sameLetter 's' a = true ∧ sameLetter 's' b = true := by
  have hpieces : (wordStem "ss").reverse = [.letter 's', .letter 's'] := rfl
  rw [hpieces]
  cases rest with
  | nil => simp [endsWithPieces]
  | cons a rest =>
      cases rest with
      | nil => simp [endsWithPieces]
      | cons b more => simp [endsWithPieces]

theorem not_silent_of_findSome? {rules : List SingularRule} {reversed result : List Char}
    (hrules : ∀ rule ∈ rules, rule.isVoiced = true)
    (hresult : rules.findSome? (·.singular? reversed) = some result) : ¬ Silent result := by
  rcases List.exists_of_findSome?_eq_some hresult with ⟨rule, hrule, hfits⟩
  exact SingularRule.not_silent_of_isVoiced (hrules rule hrule) hfits

theorem findSome?_eq_none {others : List Char} {rules : List SingularRule} {reversed : List Char}
    (hrules : ∀ rule ∈ rules, rule.requires others = true)
    (hreversed : ∀ c ∈ reversed, ∀ l, isFurther others l = true → sameLetter l c = false) :
    rules.findSome? (·.singular? reversed) = none := by
  rw [List.findSome?_eq_none_iff]
  intro rule hrule
  rw [Option.eq_none_iff_forall_ne_some]
  intro result hresult
  rcases SingularRule.exists_of_requires (hrules rule hrule) hresult with ⟨c, hc, l, hfurther, hsame⟩
  rw [hreversed c hc l hfurther] at hsame
  cases hsame

theorem singular?_doubledRule (reversed : List Char) :
    doubledRule.singular? reversed =
      if endsWithPieces (wordStem "ss").reverse reversed none then some reversed.reverse
      else none := by
  simp [SingularRule.singular?, doubledRule, dropEnding, wordStems]

theorem singular?_pluralRule (last : Char) (rest : List Char) :
    pluralRule.singular? (last :: rest) =
      if sameLetter 's' last then some rest.reverse else none := by
  cases hsame : sameLetter 's' last <;>
    simp [SingularRule.singular?, pluralRule, dropEnding, hsame, endsWithPieces]

theorem silent_of_silent_reverse {chars : List Char} (hsilent : Silent chars.reverse) :
    Silent chars :=
  fun c hc => hsilent c (List.mem_reverse.mpr hc)

/-- Of the forms of s only the long one is silent. -/
theorem eq_long_of_silent {c : Char} (hsame : sameLetter 's' c = true)
    (hsilent : isNameChar c = false) : c = 'ſ' := by
  rcases sameLetter_s_iff.mp hsame with rfl | rfl | rfl
  · cases hsilent
  · cases hsilent
  · rfl

theorem hissing_of_silent {reversed result : List Char}
    (hresult : hissingRule.singular? reversed = some result) (hsilent : Silent result) :
    result = reversed.reverse ∨ ∃ s e more, reversed = s :: e :: 'ſ' :: 'ſ' :: more ∧
      sameLetter 's' s = true ∧ sameLetter 'e' e = true ∧ Silent more := by
  rcases SingularRule.exists_fits hresult with ⟨ending, stem, dropped, rest, after, hfits⟩
  have hnone : hissingRule.replacement.toList = [] := by decide
  have hrest : Silent rest := by
    have hwhole := hfits.result_eq
    rw [hnone, List.append_nil] at hwhole
    exact silent_of_silent_reverse (hwhole ▸ hsilent)
  have hendings : hissingRule.endings = ["es", ""] := rfl
  have hending := hfits.ending_mem
  have hdropped := hfits.dropped_same
  simp only [hendings, List.mem_cons, List.not_mem_nil, or_false] at hending
  rcases hending with rfl | rfl
  · right
    have hes : "es".toList.reverse = ['s', 'e'] := by decide
    rw [hes, List.forall₂_cons_left_iff] at hdropped
    rcases hdropped with ⟨s, others, hs, hothers, rfl⟩
    rw [List.forall₂_cons_left_iff] at hothers
    rcases hothers with ⟨e, others, he, hothers, rfl⟩
    rw [List.forall₂_nil_left_iff] at hothers
    subst hothers
    rcases demands_of_hissing stem hfits.stem_mem with rfl | hdemands
    · rcases doubled_iff.mp hfits.stem_fits with ⟨a, b, more, rfl, ha, hb⟩
      simp only [Silent, List.forall_mem_cons] at hrest
      rcases hrest with ⟨ha', hb', hmore⟩
      rw [eq_long_of_silent ha ha', eq_long_of_silent hb hb'] at hfits
      exact ⟨s, e, more, hfits.reversed_eq, hs, he, hmore⟩
    · rcases exists_of_demands hdemands hfits.stem_fits with ⟨c, hc, l, hfurther, hsame⟩
      have hname := isNameChar_of_further hfurther hsame
      rw [hrest c hc] at hname
      cases hname
  · left
    have hempty : "".toList.reverse = [] := by decide
    rw [hempty, List.forall₂_nil_left_iff] at hdropped
    rw [hfits.result_eq, hfits.reversed_eq, hdropped, hnone]
    simp

theorem singularChars_eq {word : List Char} {last : Char} {rest : List Char}
    (hreversed : word.reverse = last :: rest) :
    singularChars word = if isAsciiUpper last || isAsciiDigit last then word
      else (singularRules.findSome? (·.singular? (last :: rest))).getD word := by
  rw [singularChars, hreversed]
  rfl

/-! ## Nothing left -/

/-- Only the rules for hisses and for plain plurals leave nothing. -/
theorem ruled_of_silent {reversed result : List Char}
    (hresult : singularRules.findSome? (·.singular? reversed) = some result)
    (hsilent : Silent result) :
    hissingRule.singular? reversed = some result ∨ doubledRule.singular? reversed = some result ∨
      doubledRule.singular? reversed = none ∧ pluralRule.singular? reversed = some result := by
  simp only [findSome?_singularRules, Option.or_eq_some_iff] at hresult
  rcases hresult with hleading | ⟨-, hhissing | ⟨-, hmiddle | ⟨-, hlast⟩⟩⟩
  · refine absurd hsilent (not_silent_of_findSome? ?_ hleading)
    exact fun rule hrule => isVoiced_of_mem (List.mem_append_left _ hrule)
  · exact .inl hhissing
  · refine absurd hsilent (not_silent_of_findSome? ?_ hmiddle)
    exact fun rule hrule => isVoiced_of_mem (List.mem_append_right _ hrule)
  · exact .inr hlast

section Last

variable {word rest result : List Char} {last : Char} (hreversed : word.reverse = last :: rest)
  (hlast : last ≠ 'S') (hsilent : Silent result) (hword : ¬ Silent word)

include hreversed hlast hsilent hword

theorem fades_of_hissing (hresult : hissingRule.singular? (last :: rest) = some result) :
    Fades word := by
  rcases hissing_of_silent hresult hsilent with hsame | ⟨s, e, more, hsplit, hs, he, hmore⟩
  · rw [← hreversed, List.reverse_reverse] at hsame
    exact absurd (hsame ▸ hsilent) hword
  · cases hsplit
    have hkey : word = more.reverse ++ ['ſ', 'ſ', e, last] := by
      rw [← List.reverse_reverse word, hreversed]
      simp
    rw [hkey]
    refine .hissing _ e last ?_ (sameLetter_e_iff.mp he) ?_
    · exact fun c hc => hmore c (List.mem_reverse.mp hc)
    · exact (sameLetter_s_iff.mp hs).imp_right fun hs => hs.resolve_left hlast

theorem fades_of_plural (hdoubled : doubledRule.singular? (last :: rest) = none)
    (hresult : pluralRule.singular? (last :: rest) = some result) : Fades word := by
  rw [singular?_pluralRule] at hresult
  split at hresult
  next hs =>
    cases hresult
    have hwhole : word = rest.reverse ++ [last] := by
      rw [← List.reverse_reverse word, hreversed, List.reverse_cons]
    have hname : isNameChar last = true := by
      rw [← Bool.not_eq_false]
      intro hnone
      apply hword
      rw [hwhole]
      intro c hc
      rcases List.mem_append.mp hc with hc | hc
      · exact hsilent c hc
      · rwa [List.mem_singleton.mp hc]
    rcases sameLetter_s_iff.mp hs with rfl | rfl | rfl
    · rw [hwhole]
      refine .plural _ hsilent ?_
      rw [List.getLast?_reverse]
      intro hfirst
      rcases List.head?_eq_some_iff.mp hfirst with ⟨more, rfl⟩
      have hfits : endsWithPieces (wordStem "ss").reverse ('s' :: 'ſ' :: more) none = true :=
        doubled_iff.mpr ⟨_, _, _, rfl, by decide, by decide⟩
      rw [singular?_doubledRule, if_pos hfits] at hdoubled
      cases hdoubled
    · exact absurd rfl hlast
    · cases hname
  next => cases hresult

end Last

theorem fades_of_silent {word : List Char} (hword : ¬ Silent word)
    (hsilent : Silent (singularChars word)) : Fades word := by
  cases hreversed : word.reverse with
  | nil =>
      rw [List.reverse_eq_nil_iff] at hreversed
      subst hreversed
      exact absurd hsilent hword
  | cons last rest =>
      rw [singularChars_eq hreversed] at hsilent
      split at hsilent
      · exact absurd hsilent hword
      next hplain =>
        have hlast : last ≠ 'S' := by
          rintro rfl
          exact hplain rfl
        cases hresult : singularRules.findSome? (·.singular? (last :: rest)) with
        | none =>
            rw [hresult] at hsilent
            exact absurd hsilent hword
        | some result =>
            rw [hresult, Option.getD_some] at hsilent
            rcases ruled_of_silent hresult hsilent with hhissing | hdoubled | ⟨hdoubled, hplural⟩
            · exact fades_of_hissing hreversed hlast hsilent hword hhissing
            · rw [singular?_doubledRule, ← hreversed, List.reverse_reverse] at hdoubled
              split at hdoubled
              · exact absurd (Option.some.inj hdoubled ▸ hsilent) hword
              · cases hdoubled
            · exact fades_of_plural hreversed hlast hsilent hword hdoubled hplural

/-! ## Everything gone -/

theorem not_sameLetter_of_silent {others : List Char} {l c : Char}
    (hsilent : isNameChar c = false) (hfurther : isFurther others l = true) :
    sameLetter l c = false := by
  rw [Bool.eq_false_iff]
  intro hsame
  rw [isNameChar_of_further hfurther hsame] at hsilent
  cases hsilent

theorem toLower_eq_of_further {others : List Char} {l c : Char}
    (hfurther : isFurther others l = true) (hsame : sameLetter l c = true) : c.toLower = l := by
  have hlower : l.isLower = true := by
    have hl : isAsciiLower l = true := (Bool.and_eq_true_iff.mp hfurther).1
    simpa [isAsciiLower, Char.isLower, Char.le_def] using hl
  have hl : l.toLower = l := Char.toLower_eq_of_not_isUpper (Char.not_isUpper_of_isLower hlower)
  rcases eq_or_eq_toUpper hfurther hsame with rfl | rfl
  · exact hl
  · rw [Char.toLower_toUpper_eq_toLower, hl]

theorem not_sameLetter_of_mem {others : List Char} {l c : Char}
    (hother : c.toLower ∈ 's' :: 'k' :: others) (hfurther : isFurther others l = true) :
    sameLetter l c = false := by
  rw [Bool.eq_false_iff]
  intro hsame
  rw [toLower_eq_of_further hfurther hsame] at hother
  rw [isFurther, List.contains_iff_mem.mpr hother] at hfurther
  simp at hfurther

theorem singular?_hissingRule_eq_none {reversed : List Char}
    (hother : ∀ c ∈ reversed, ∀ l, isFurther [] l = true → sameLetter l c = false)
    (hplain : endsWithPieces (wordStem "ss").reverse reversed none = false) :
    hissingRule.singular? reversed = none := by
  rw [Option.eq_none_iff_forall_ne_some]
  intro result hresult
  rcases SingularRule.exists_fits hresult with ⟨ending, stem, dropped, rest, after, hfits⟩
  have hrest : ∀ c ∈ rest, c ∈ reversed := by
    intro c hc
    rw [hfits.reversed_eq]
    exact List.mem_append_right dropped hc
  rcases demands_of_hissing stem hfits.stem_mem with rfl | hdemands
  · have hendings : hissingRule.endings = ["es", ""] := rfl
    have hending := hfits.ending_mem
    have hdropped := hfits.dropped_same
    simp only [hendings, List.mem_cons, List.not_mem_nil, or_false] at hending
    rcases hending with rfl | rfl
    · have he : 'e' ∈ "es".toList.reverse := by decide
      rcases Outcome.exists_mem_of_forall₂ hdropped he with ⟨c, hc, hsame⟩
      have hc' : c ∈ reversed := by
        rw [hfits.reversed_eq]
        exact List.mem_append_left rest hc
      rw [hother c hc' 'e' (by decide)] at hsame
      cases hsame
    · have hempty : "".toList.reverse = [] := by decide
      rw [hempty, List.forall₂_nil_left_iff] at hdropped
      have hwhole := hfits.reversed_eq
      rw [hdropped, List.nil_append] at hwhole
      rw [hwhole, doubled_iff.mpr (doubled_iff.mp hfits.stem_fits)] at hplain
      cases hplain
  · rcases exists_of_demands hdemands hfits.stem_fits with ⟨c, hc, l, hfurther, hsame⟩
    rw [hother c (hrest c hc) l hfurther] at hsame
    cases hsame

theorem singular?_hissingRule {s e a b : Char} (more : List Char) (hs : sameLetter 's' s = true)
    (he : sameLetter 'e' e = true) (ha : sameLetter 's' a = true) (hb : sameLetter 's' b = true) :
    hissingRule.singular? (s :: e :: a :: b :: more) = some (more.reverse ++ [b, a]) := by
  have hendings : hissingRule.endings = ["es", ""] := rfl
  have hreplacement : hissingRule.replacement = "" := rfl
  have hdrop : dropEnding "es".toList.reverse (s :: e :: a :: b :: more) none =
      some (a :: b :: more, some e) := by
    simp [dropEnding, hs, he]
  have hstems : hissingRule.stems.any
      (fun stem => endsWithPieces stem.reverse (a :: b :: more) (some e)) = true := by
    rw [List.any_eq_true]
    refine ⟨wordStem "ss", ?_, doubled_iff.mpr ⟨a, b, more, rfl, ha, hb⟩⟩
    rw [stems_hissingRule]
    exact List.mem_append_right _ List.mem_cons_self
  rw [SingularRule.singular?, hendings, List.findSome?_cons, hdrop, Option.bind_some]
  dsimp only
  rw [if_pos hstems, hreplacement]
  simp

theorem silent_of_fades {word : List Char} (hfades : Fades word) : Silent (singularChars word) := by
  cases hfades with
  | plural silent hsilent hlast =>
      have hreversed : (silent ++ ['s']).reverse = 's' :: silent.reverse := by simp
      have hother : ∀ c ∈ 's' :: silent.reverse, ∀ l, isFurther [] l = true →
          sameLetter l c = false := by
        intro c hc l hfurther
        rcases List.mem_cons.mp hc with rfl | hc
        · exact not_sameLetter_of_mem (by decide) hfurther
        · exact not_sameLetter_of_silent (hsilent c (List.mem_reverse.mp hc)) hfurther
      have hplain : endsWithPieces (wordStem "ss").reverse ('s' :: silent.reverse) none = false := by
        rw [Bool.eq_false_iff]
        intro hdoubled
        rcases doubled_iff.mp hdoubled with ⟨a, b, more, hsplit, -, hb⟩
        rw [List.cons.injEq] at hsplit
        have hmem : b ∈ silent := by
          rw [← List.mem_reverse, hsplit.2]
          exact List.mem_cons_self
        apply hlast
        rw [← List.head?_reverse, hsplit.2, eq_long_of_silent hb (hsilent b hmem)]
        rfl
      have hleading := findSome?_eq_none
        (fun rule hrule => requires_of_mem (List.mem_append_left middleRules hrule)) hother
      have hmiddle := findSome?_eq_none
        (fun rule hrule => requires_of_mem (List.mem_append_right leadingRules hrule)) hother
      have hhissing := singular?_hissingRule_eq_none hother hplain
      have hdoubled : doubledRule.singular? ('s' :: silent.reverse) = none := by
        rw [singular?_doubledRule, hplain]
        rfl
      rw [singularChars_eq hreversed, if_neg (by decide), findSome?_singularRules, hleading,
        hmiddle, hhissing, hdoubled, singular?_pluralRule, if_pos (by decide)]
      simpa using hsilent
  | hissing silent e s hsilent he hs =>
      have hreversed : (silent ++ ['ſ', 'ſ', e, s]).reverse =
          s :: e :: 'ſ' :: 'ſ' :: silent.reverse := by simp
      have hother : ∀ c ∈ s :: e :: 'ſ' :: 'ſ' :: silent.reverse, ∀ l, isFurther ['e'] l = true →
          sameLetter l c = false := by
        intro c hc l hfurther
        simp only [List.mem_cons, List.mem_reverse] at hc
        rcases hc with rfl | rfl | rfl | rfl | hc
        · rcases hs with rfl | rfl
          · exact not_sameLetter_of_mem (by decide) hfurther
          · exact not_sameLetter_of_silent (by decide) hfurther
        · rcases he with rfl | rfl <;> exact not_sameLetter_of_mem (by decide) hfurther
        · exact not_sameLetter_of_silent (by decide) hfurther
        · exact not_sameLetter_of_silent (by decide) hfurther
        · exact not_sameLetter_of_silent (hsilent c hc) hfurther
      have hleading := findSome?_eq_none (fun rule => requires_of_mem_leading) hother
      have hlast : ¬ (isAsciiUpper s || isAsciiDigit s) = true := by
        rcases hs with rfl | rfl <;> decide
      have hhissing : hissingRule.singular? (s :: e :: 'ſ' :: 'ſ' :: silent.reverse) =
          some (silent ++ ['ſ', 'ſ']) := by
        have hs' : sameLetter 's' s = true := sameLetter_s_iff.mpr (hs.imp_right .inr)
        have hlong : sameLetter 's' 'ſ' = true := by decide
        have hresult := singular?_hissingRule silent.reverse hs' (sameLetter_e_iff.mpr he) hlong
          hlong
        rwa [List.reverse_reverse] at hresult
      rw [singularChars_eq hreversed, if_neg hlast, findSome?_singularRules, hleading, hhissing]
      intro c hc
      simp only [Option.none_or, Option.some_or, Option.getD_some, List.mem_append,
        List.mem_cons, List.not_mem_nil, or_false, or_self] at hc
      rcases hc with hc | rfl
      · exact hsilent c hc
      · decide

/-- A key with something to keep loses it in the singular in two cases only. -/
theorem silent_singularChars_iff {word : List Char} (hword : ¬ Silent word) :
    Silent (singularChars word) ↔ Fades word :=
  ⟨fades_of_silent hword, silent_of_fades⟩

example : singular "_s" = "_" ∧ singular "ſſes" = "ſſ" := by decide +kernel

end Naming
end WireSchema
