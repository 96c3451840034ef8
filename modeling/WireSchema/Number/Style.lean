import WireSchema.Number.Shortest

/-!
# Texts of floating-point numbers

One function writes a number from its shortest decimal; how it looks is a record.  Three records
are in use: numbers shown to people are always written out, numbers in descriptions of values and
numbers in JSON have an exponent when they are very large or very small.
-/

namespace WireSchema
namespace Number

/-- How a number is written.  A number is written out while the exponent of its first digit is at
least `leastPlain` and less than `plainBound`; a missing bound does not limit. -/
structure FloatStyle where
  leastPlain : Option Int
  plainBound : Option Int
  /-- Whether a number without fraction ends in `.0` when written out. -/
  keepPoint : Bool
  /-- Whether an exponent that is not negative has a plus sign. -/
  plusSign : Bool
  tie : Tie
  deriving Repr

namespace FloatStyle

/-- Numbers shown to people. -/
def shown : FloatStyle := ⟨none, none, false, false, .up⟩

/-- Numbers in descriptions of values. -/
def described : FloatStyle := ⟨some (-4), some 16, true, false, .up⟩

/-- Numbers in JSON texts. -/
def json : FloatStyle := ⟨some (-5), some 16, true, true, .even⟩

def isPlain (style : FloatStyle) (exponent : Int) : Bool :=
  style.leastPlain.all (· ≤ exponent) && style.plainBound.all (exponent < ·)

def plain (style : FloatStyle) (digits : String) (exponent : Int) : String :=
  match exponent with
  | .ofNat e =>
    digits ++ String.ofList (List.replicate e '0') ++ (if style.keepPoint then ".0" else "")
  | .negSucc e =>
    let places := e + 1
    let chars := digits.toList
    if places < chars.length then
      String.ofList (chars.take (chars.length - places)) ++ "." ++
        String.ofList (chars.drop (chars.length - places))
    else "0." ++ String.ofList (List.replicate (places - chars.length) '0') ++ digits

/-- A decimal with one digit before the point, and the exponent of that digit. -/
def scientific (style : FloatStyle) (digits : String) (exponent : Int) : String :=
  let chars := digits.toList
  let rest := chars.drop 1
  String.ofList (chars.take 1) ++ (if rest.isEmpty then "" else "." ++ String.ofList rest) ++ "e" ++
    (if style.plusSign && 0 ≤ exponent then "+" else "") ++ toString exponent

def decimalText (style : FloatStyle) (decimal : Decimal) : String :=
  let digits := toString decimal.digits
  let leading := decimal.exponent + (digits.length : Int) - 1
  if style.isPlain leading then style.plain digits decimal.exponent
  else style.scientific digits leading

def text (style : FloatStyle) (format : FloatFormat) (bits : Nat) : String :=
  let sign (negative : Bool) : String := if negative then "-" else ""
  match format.classify bits with
  | .nan => "NaN"
  | .infinite negative => sign negative ++ "inf"
  | .finite negative 0 _ _ => sign negative ++ (if style.keepPoint then "0.0" else "0")
  | .finite negative significand exponent atBinade =>
    let interval := RoundingInterval.ofFinite significand exponent atBinade
    sign negative ++ style.decimalText (interval.shortest style.tie)

def text32 (style : FloatStyle) (x : Binary32) : String := style.text .single x.bits.toNat

def text64 (style : FloatStyle) (x : Binary64) : String := style.text .double x.bits.toNat

example : described.text64 ⟨0x3fb999999999999a⟩ = "0.1" := by decide +kernel

example : shown.text64 ⟨0x8000000000000000⟩ = "-0" := by decide +kernel

example : json.text64 ⟨0x7fefffffffffffff⟩ = "1.7976931348623157e+308" := by decide +kernel

example : described.text32 ⟨0x4b800001⟩ = "16777218.0" := by decide +kernel

end FloatStyle
end Number
end WireSchema
