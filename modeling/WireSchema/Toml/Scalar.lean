import WireSchema.Toml.Text
import WireSchema.Toml.Value

/-!
# Numbers and dates of configuration texts

Integers have 64 bits; they are decimal with a sign, or hexadecimal, octal or binary.  A number
with a fraction or an exponent is a floating-point number, and so are the words for infinity and
for what is no number.  Underscores stand between digits.  Dates and times are checked against the
calendar.
-/

namespace WireSchema
namespace Toml

/-- Digits, between which underscores may stand one at a time; at least one digit. -/
def readDigits (isDigit : Char → Bool) : (afterDigit : Bool) → (sofar : List Char) → List Char →
    List Char × List Char
  | _, sofar, [] => (sofar.reverse, [])
  | afterDigit, sofar, c :: rest =>
    if isDigit c then readDigits isDigit true (c :: sofar) rest
    else if c = '_' && afterDigit && rest.head?.any isDigit then
      readDigits isDigit false sofar rest
    else (sofar.reverse, c :: rest)

def digits? (isDigit : Char → Bool) (chars : List Char) : Option (List Char × List Char) :=
  let (digits, rest) := readDigits isDigit false [] chars
  if digits.isEmpty then none else some (digits, rest)

def isDecimal (c : Char) : Bool := c.isDigit

def isHexadecimal (c : Char) : Bool := (Json.hexValue? c).isSome

def isOctal (c : Char) : Bool := '0' ≤ c && c ≤ '7'

def isBinary (c : Char) : Bool := c = '0' || c = '1'

def digitsValue (base : Nat) (digits : List Char) : Nat :=
  digits.foldl (fun value c => value * base + (Json.hexValue? c).getD 0) 0

/-- A sign, and whether it is a minus. -/
def readSign : List Char → Bool × List Char
  | '+' :: rest => (false, rest)
  | '-' :: rest => (true, rest)
  | chars => (false, chars)

/-- The digits of a decimal integer: a zero alone, or digits of which the first is not zero. -/
def wholeDigits? : List Char → Option (List Char × List Char)
  | '0' :: rest => some (['0'], rest)
  | chars => digits? isDecimal chars

/-- Integers are below this bound, and not below its negative. -/
def integerBound : Nat := 0x8000000000000000

/-- An integer with a prefix for its base. -/
def basedInteger? (base : Nat) (isDigit : Char → Bool) (chars : List Char) :
    Option (Value × List Char) :=
  match digits? isDigit chars with
  | some (digits, rest) =>
    let value := digitsValue base digits
    if value < integerBound then some (.integer value, rest) else none
  | none => none

def decimalInteger? (chars : List Char) : Option (Value × List Char) :=
  let (negative, unsigned) := readSign chars
  match wholeDigits? unsigned with
  | some (digits, rest) =>
    let value := digitsValue 10 digits
    if negative then
      if value ≤ integerBound then some (.integer (-(value : Int)), rest) else none
    else if value < integerBound then some (.integer value, rest) else none
  | none => none

def integer? (chars : List Char) : Option (Value × List Char) :=
  match chars with
  | '0' :: 'x' :: rest => basedInteger? 16 isHexadecimal rest
  | '0' :: 'o' :: rest => basedInteger? 8 isOctal rest
  | '0' :: 'b' :: rest => basedInteger? 2 isBinary rest
  | _ => decimalInteger? chars

/-! ## Floating-point numbers -/

/-- The digits after a point, if there is one. -/
def fraction? : List Char → Option (List Char × List Char)
  | '.' :: rest => digits? isDecimal rest
  | _ => none

def exponent? : List Char → Option (Int × List Char)
  | c :: rest =>
    if c = 'e' || c = 'E' then
      let (negative, unsigned) := readSign rest
      (digits? isDecimal unsigned).map fun (digits, after) =>
        let value : Int := digitsValue 10 digits
        (if negative then -value else value, after)
    else none
  | [] => none

/-- Decimal exponents beyond this are infinity or zero for any number of these many digits. -/
def exponentReach (digits : Nat) : Int := 400 + digits

/-- The number nearest to `significand * 10 ^ exponent`, of which the significand has the given
number of digits. -/
def nearest (digits significand : Nat) (exponent : Int) : Number.Binary64 :=
  if significand = 0 then .ofNat 0
  else if exponentReach digits < exponent then ⟨UInt64.ofNat Number.FloatFormat.double.infinityBits⟩
  else if exponent < -exponentReach digits then .ofNat 0
  else
    match exponent with
    | .ofNat e => .ofQuotient (significand * Nat.pow 10 e) 1
    | .negSucc e => .ofQuotient significand (Nat.pow 10 (e + 1))

/-- A decimal number with a fraction, an exponent or both.  A positive number too large is
refused. -/
def decimalReal? (chars : List Char) : Option (Value × List Char) := do
  let (negative, unsigned) := readSign chars
  let (whole, afterWhole) ← wholeDigits? unsigned
  let (fraction, afterFraction) :=
    match fraction? afterWhole with
    | some (digits, rest) => (digits, rest)
    | none => ([], afterWhole)
  let (exponent, rest) ←
    match exponent? afterFraction with
    | some (exponent, rest) => some (exponent, rest)
    | none => if fraction.isEmpty then none else some (0, afterFraction)
  let digits := whole ++ fraction
  let magnitude :=
    nearest digits.length (digitsValue 10 digits) (exponent - (fraction.length : Int))
  if negative then return (.real magnitude.neg, rest)
  else if magnitude.isInfinite then none
  else return (.real magnitude, rest)

/-- The words for infinity and for what is no number. -/
def specialReal? (chars : List Char) : Option (Value × List Char) :=
  let (negative, unsigned) := readSign chars
  let signed (x : Number.Binary64) : Number.Binary64 := if negative then x.neg else x
  match unsigned with
  | 'i' :: 'n' :: 'f' :: rest =>
    some (.real (signed ⟨UInt64.ofNat Number.FloatFormat.double.infinityBits⟩), rest)
  | 'n' :: 'a' :: 'n' :: rest => some (.real (signed ⟨0x7ff8000000000000⟩), rest)
  | _ => none

/-! ## Dates and times -/

def fixedDigits? (count : Nat) (chars : List Char) : Option (Nat × List Char) :=
  let digits := chars.take count
  if digits.length = count && digits.all isDecimal then
    some (digitsValue 10 digits, chars.drop count)
  else none

def symbol? (symbol : Char) : List Char → Option (List Char)
  | c :: rest => if c = symbol then some rest else none
  | [] => none

def isLeapYear (year : Nat) : Bool := year % 4 = 0 && (year % 100 ≠ 0 || year % 400 = 0)

def daysInMonth (year month : Nat) : Nat :=
  if month = 2 then (if isLeapYear year then 29 else 28)
  else if month = 4 || month = 6 || month = 9 || month = 11 then 30
  else 31

def skipDate? (chars : List Char) : Option (List Char) := do
  let (year, rest) ← fixedDigits? 4 chars
  let rest ← symbol? '-' rest
  let (month, rest) ← fixedDigits? 2 rest
  let rest ← symbol? '-' rest
  let (day, rest) ← fixedDigits? 2 rest
  guard (1 ≤ month && month ≤ 12 && 1 ≤ day && day ≤ daysInMonth year month)
  return rest

/-- What is left after a time; a second may be a leap second. -/
def skipTime? (chars : List Char) : Option (List Char) := do
  let (hour, rest) ← fixedDigits? 2 chars
  let rest ← symbol? ':' rest
  let (minute, rest) ← fixedDigits? 2 rest
  let rest ← symbol? ':' rest
  let (second, rest) ← fixedDigits? 2 rest
  guard (hour ≤ 23 && minute ≤ 59 && second ≤ 60)
  match rest with
  | '.' :: after =>
    let digits := after.takeWhile isDecimal
    if digits.isEmpty then return rest else return after.drop digits.length
  | _ => return rest

/-- What is left after an offset from universal time, if there is one. -/
def skipOffset (chars : List Char) : List Char :=
  let numeric (rest : List Char) : Option (List Char) := do
    let (hour, rest) ← fixedDigits? 2 rest
    let rest ← symbol? ':' rest
    let (minute, rest) ← fixedDigits? 2 rest
    guard (hour ≤ 23 && minute ≤ 59)
    return rest
  match chars with
  | c :: rest =>
    if c = 'Z' || c = 'z' then rest
    else if c = '+' || c = '-' then (numeric rest).getD chars
    else chars
  | [] => []

/-- What is left after a date, a date and a time, or a time. -/
def skipDateTime? (chars : List Char) : Option (List Char) :=
  match skipDate? chars with
  | some rest =>
    match rest with
    | c :: after =>
      if c = 'T' || c = 't' || c = ' ' then
        match skipTime? after with
        | some rest => some (skipOffset rest)
        | none => some rest
      else some rest
    | [] => some rest
  | none => skipTime? chars

def datetime? (chars : List Char) : Option (Value × List Char) :=
  (skipDateTime? chars).map fun rest =>
    (.datetime (String.ofList (chars.take (chars.length - rest.length))), rest)

def readNumeric (chars : List Char) : Option (Value × List Char) :=
  datetime? chars <|> decimalReal? chars <|> specialReal? chars <|> integer? chars

end Toml
end WireSchema
