import WireSchema.Naming.Identifier

/-!
# Names of joined keys

An underscore is a boundary that is itself left out of an identifier.  What stands before it and
what stands behind it become names on their own, and so the type name of a key that is marked as that
of a message is the name of the key, and `Message`.
-/

namespace WireSchema
namespace Naming

/-- What stands behind a mark that is no lower-case letter is capitalised on its own. -/
theorem capitaliseWords_append (case : NameCase) {mark : Char} (hmark : isAsciiLower mark = false)
    (front back : List Char) :
    capitaliseWords case (front ++ mark :: back) =
      capitaliseWords case front ++ capitaliseWords case (mark :: back) := by
  fun_induction capitaliseWords case front with
  | case1 => rfl
  | case2 c =>
      have hplain : ¬ (isBoundary case c && isAsciiLower mark) = true := by
        simp [hmark]
      rw [List.singleton_append, capitaliseWords, if_neg hplain]
      rfl
  | case3 c next rest hcapital ih =>
      rw [List.cons_append, List.cons_append, capitaliseWords, if_pos hcapital, ih]
      rfl
  | case4 c next rest hplain ih =>
      rw [List.cons_append, List.cons_append, capitaliseWords, if_neg hplain]
      exact congrArg (List.cons c) ih

theorem capitaliseWords_underscore (back : List Char) :
    capitaliseWords .type ('_' :: back) = '_' :: capitalise .type back := by
  cases back with
  | nil => rfl
  | cons c rest =>
      have hboundary : isBoundary .type '_' = true := by decide
      cases hlower : isAsciiLower c <;> simp [capitaliseWords, capitalise, hboundary, hlower]

theorem capitalise_joined (front back : List Char) :
    capitalise .type (front ++ '_' :: back) =
      capitalise .type front ++ '_' :: capitalise .type back := by
  have hmark : isAsciiLower '_' = false := by decide
  rw [← capitaliseWords_underscore]
  cases front with
  | nil => simp [capitalise, hmark]
  | cons c rest =>
      cases hlower : isAsciiLower c
      · have hplain := capitaliseWords_append .type hmark (c :: rest) back
        simpa [capitalise, hlower] using hplain
      · simp [capitalise, hlower, capitaliseWords_append .type hmark]

theorem dropWhile_append_cons {p : Char → Bool} {mark : Char} (hmark : p mark = false)
    (front back : List Char) :
    (front ++ mark :: back).dropWhile p = front.dropWhile p ++ mark :: back := by
  induction front with
  | nil => simp [hmark]
  | cons c rest ih => cases hc : p c <;> simp [hc, ih]

/-- An ordinal ends before a mark that is neither a digit nor a question mark. -/
theorem dropOrdinal_append {mark : Char} (hdigit : isAsciiDigit mark = false) (hmark : mark ≠ '?')
    (front back : List Char) :
    dropOrdinal (front ++ mark :: back) = dropOrdinal front ++ mark :: back := by
  have hdrop (chars : List Char) : (chars ++ mark :: back).dropWhile isAsciiDigit =
      chars.dropWhile isAsciiDigit ++ mark :: back := dropWhile_append_cons hdigit chars back
  cases front with
  | nil => simp [dropOrdinal, hmark, hdigit]
  | cons first rest =>
      by_cases hfirst : first = '?'
      · subst hfirst
        cases rest with
        | nil => simp [dropOrdinal, hdigit]
        | cons d more =>
            cases hd : isAsciiDigit d
            · simp [dropOrdinal, hd]
            · have hrest := hdrop (d :: more)
              simpa [dropOrdinal, hd] using hrest
      · have hall := hdrop (first :: rest)
        simpa [dropOrdinal, hfirst] using hall

/-- The type name of a marked key is that of the key, followed by what the letters of the mark would
be called if nothing were dropped from their front. -/
theorem identifier_marked (key : String) {mark word : String} (hmark : mark.toList.head? = some '_')
    (hword : (capitalise .type mark.toList.tail).filter
      (fun c => isAsciiLetter c || isAsciiDigit c) = word.toList) :
    identifier .type (key ++ mark) = identifier .type key ++ word := by
  have hparts : mark.toList = '_' :: mark.toList.tail := by
    rcases List.head?_eq_some_iff.mp hmark with ⟨letters, hletters⟩
    rw [hletters, List.tail_cons]
  have hleft : (isAsciiLetter '_' || isAsciiDigit '_') = false := by decide
  rw [identifier, identifierChars, String.toList_append, hparts, capitalise_joined,
    dropOrdinal_append (by decide) (by decide), List.filter_append, List.filter_cons, hleft,
    if_neg Bool.false_ne_true, hword, String.ofList_append, String.ofList_toList]
  rfl

example : identifier .type "?3d_view" = "DView" := by decide +kernel

end Naming
end WireSchema
