import WireSchema.Naming.Identifier
import WireSchema.Text.WordCharacter

/-!
# English singulars

The elements of an array of embedded objects are named after the singular of the field's key
(`items` has elements `item`).  The singular follows an ordered list of rules; the first rule
that fits the end of the word decides.  A rule replaces an ending by another text, provided that
what stands before the ending fits one of the rule's stems.  Letters are compared without regard
to case, in the sense of simple case folding.
-/

namespace WireSchema
namespace Naming

/-- What a stem demands of one place in the word. -/
inductive StemPiece where
  | letter (c : Char)
  | oneOf (letters : List Char)
  | noneOf (letters : List Char)
  /-- A character that is no word character. -/
  | separator
  /-- The start of the word. -/
  | start
  /-- A change between word characters and anything else, or an end of a word. -/
  | boundary
  deriving Repr

/-- Letter equality under simple case folding, for a lower-case ASCII letter: besides its own
capital, `s` has the long s and `k` the Kelvin sign. -/
def sameLetter (letter c : Char) : Bool :=
  c = letter || c = letter.toUpper || (letter = 's' && c = 'ſ') || (letter = 'k' && c = '\u212a')

/-- Whether the boundary lies between the characters before a place (nearest first) and the
character after it. -/
def atBoundary (before : List Char) (after : Option Char) : Bool :=
  before.head?.any Text.isWordCharacter != after.any Text.isWordCharacter

/-- Whether the characters before a place (nearest first) end with the pieces (last first).
`after` is the character that follows the place. -/
def endsWithPieces : List StemPiece → List Char → Option Char → Bool
  | [], _, _ => true
  | .start :: pieces, before, after => before.isEmpty && endsWithPieces pieces before after
  | .boundary :: pieces, before, after =>
    atBoundary before after && endsWithPieces pieces before after
  | .letter l :: pieces, c :: before, _ =>
    sameLetter l c && endsWithPieces pieces before (some c)
  | .oneOf ls :: pieces, c :: before, _ =>
    ls.any (sameLetter · c) && endsWithPieces pieces before (some c)
  | .noneOf ls :: pieces, c :: before, _ =>
    !ls.any (sameLetter · c) && endsWithPieces pieces before (some c)
  | .separator :: pieces, c :: before, _ =>
    !Text.isWordCharacter c && endsWithPieces pieces before (some c)
  | _ :: _, [], _ => false

/-- A rule: one of the stems, then one of the endings, which is replaced. -/
structure SingularRule where
  stems : List (List StemPiece)
  endings : List String
  replacement : String

/-- The pieces of a stem that is a plain word. -/
def wordStem (word : String) : List StemPiece := word.toList.map .letter

def wordStems (words : List String) : List (List StemPiece) := words.map wordStem

/-- A word at the start of which a word boundary lies. -/
def boundedStems (words : List String) : List (List StemPiece) :=
  words.map fun word => .boundary :: wordStem word

def vowels : List Char := ['a', 'e', 'i', 'o', 'u']

/-- The stem `[^aou]us`. -/
def usStem : List StemPiece := .noneOf ['a', 'o', 'u'] :: wordStem "us"

def singularRules : List SingularRule :=
  [⟨[[]], ["men"], "man"⟩,
   ⟨wordStems ["eau"], ["x", ""], ""⟩,
   ⟨wordStems ["child"], ["ren"], ""⟩,
   ⟨wordStems ["pe"], ["rson", "ople"], "rson"⟩,
   ⟨wordStems ["matr", "append"], ["ices"], "ix"⟩,
   ⟨wordStems ["cod", "mur", "sil", "vert", "ind"], ["ices"], "ex"⟩,
   ⟨wordStems ["alumn", "alg", "vertebr"], ["ae"], "a"⟩,
   ⟨wordStems ["apheli", "hyperbat", "periheli", "asyndet", "noumen", "phenomen", "criteri",
      "organ", "prolegomen", "hedr", "automat"], ["a"], "on"⟩,
   ⟨wordStems ["agend", "addend", "millenni", "dat", "extrem", "bacteri", "desiderat", "strat",
      "candelabr", "errat", "ov", "symposi", "curricul", "quor"], ["a"], "um"⟩,
   ⟨wordStems ["alumn", "syllab", "vir", "radi", "nucle", "fung", "cact", "stimul", "termin",
      "bacill", "foc", "uter", "loc", "strat"], ["us", "i"], "us"⟩,
   ⟨wordStems ["test"], ["is", "es"], "is"⟩,
   ⟨wordStems ["movie", "twelve", "abuse", "emu", "enu"], ["s"], ""⟩,
   ⟨wordStems ["analy", "diagno", "parenthe", "progno", "synop", "the", "empha", "cri", "ne"],
      ["sis", "ses"], "sis"⟩,
   ⟨wordStems ["x", "ch", "ss", "sh", "zz", "tto", "go", "cho", "alias"] ++ [usStem] ++
      wordStems ["tlas", "tmas", "gas", "hero", "ato", "gro"] ++
      [.oneOf vowels :: wordStem "ris"], ["es", ""], ""⟩,
   ⟨wordStems ["seraph", "cherub"], ["im"], ""⟩,
   ⟨boundedStems ["titm", "m", "l"], ["ice"], "ouse"⟩,
   ⟨boundedStems ["mon", "smil"], ["ies"], "ey"⟩,
   ⟨boundedStems ["l", "neckt", "crosst", "hogt", "aunt", "t", "coll", "faer", "food", "gen",
      "goon", "group", "hipp", "junk", "vegg", "porkp", "p", "charl", "calor", "cut"], ["ies"],
      "ie"⟩,
   ⟨wordStems ["dg", "ss", "ois", "lk", "ok", "wn", "mb", "th", "ch", "ec", "oal", "is", "ck",
      "ix", "sser", "ts", "wb"], ["ies"], "ie"⟩,
   ⟨[[]], ["ies"], "y"⟩,
   ⟨wordStems ["ar", "wol", "al", "el", "ea", "eo", "oa", "oo"], ["ves"], "f"⟩,
   ⟨wordStems ["wi", "kni", "afterli", "halfli", "highli", "lowli", "midli", "nonli", "nightli"] ++
      [.separator :: wordStem "li", .start :: wordStem "li"], ["ves"], "fe"⟩,
   ⟨wordStems ["ss"], [""], ""⟩,
   ⟨[[]], ["s"], ""⟩]

/-- The rest of a reversed word before an ending (reversed too), if the word has it.  The
character that follows the rest is given beside it. -/
def dropEnding : List Char → List Char → Option Char → Option (List Char × Option Char)
  | [], rest, after => some (rest, after)
  | e :: ending, c :: rest, _ => if sameLetter e c then dropEnding ending rest (some c) else none
  | _ :: _, [], _ => none

/-- The word with its ending replaced, if the rule fits.  The word is given reversed. -/
def SingularRule.singular? (rule : SingularRule) (reversed : List Char) : Option (List Char) :=
  rule.endings.findSome? fun ending =>
    (dropEnding ending.toList.reverse reversed none).bind fun (rest, after) =>
      if rule.stems.any fun stem => endsWithPieces stem.reverse rest after then
        some (rest.reverse ++ rule.replacement.toList)
      else none

/-- The singular of a word.  A word that ends in a capital or a digit is taken for an
abbreviation and kept, and so is a word that no rule fits. -/
def singularChars (word : List Char) : List Char :=
  let reversed := word.reverse
  match reversed.head? with
  | some last =>
    if isAsciiUpper last || isAsciiDigit last then word
    else (singularRules.findSome? (·.singular? reversed)).getD word
  | none => word

def singular (word : String) : String := String.ofList (singularChars word.toList)

example : singular "items" = "item" := by decide +kernel

example : singular "IDs" = "ID" ∧ singular "URLS" = "URLS" := by decide +kernel

example : singular "knives" = "knife" ∧ singular "mice" = "mouse" := by decide +kernel

end Naming
end WireSchema
