import TokenGame.Count
import TokenGame.Double
import TokenGame.Json.Basic

/-! JSON numbers: an optional minus sign, an integer without leading zeros, and
optionally a fraction and an exponent. -/
namespace TokenGame.Json.Number

/-- The parts of a number, as they are written. -/
structure Lexeme where
  negative : Bool
  integer : List Char
  fraction : Option (List Char)
  exponentNegative : Bool
  exponent : Option (List Char)
  deriving DecidableEq, Repr

/-- The digits at the front of a text, and what follows them. -/
def digits (chars : List Char) : List Char × List Char := chars.span Char.isDigit

/-- An integer without leading zeros. -/
def isInteger : List Char → Bool
  | [] => false
  | ['0'] => true
  | '0' :: _ => false
  | _ => true

def sign : List Char → Bool × List Char
  | '-' :: rest => (true, rest)
  | '+' :: rest => (false, rest)
  | rest => (false, rest)

/-- The exponent, if the text is one or is empty. -/
def exponent? : List Char → Option (Bool × Option (List Char))
  | [] => some (false, none)
  | e :: rest =>
    if e = 'e' ∨ e = 'E' then
      let (negative, rest) := sign rest
      match digits rest with
      | (d :: ds, []) => some (negative, some (d :: ds))
      | _ => none
    else none

/-- The fraction if there is one, and what follows it. -/
def fraction? : List Char → Option (Option (List Char) × List Char)
  | '.' :: rest =>
    match digits rest with
    | ([], _) => none
    | (ds, rest) => some (some ds, rest)
  | rest => some (none, rest)

/-- The parts of a text that is a number as a whole. -/
def lexeme? (chars : List Char) : Option Lexeme := do
  let (negative, chars) := match chars with
    | '-' :: rest => (true, rest)
    | chars => (false, chars)
  let (integer, chars) := digits chars
  if !isInteger integer then none
  let (fraction, chars) ← fraction? chars
  let (exponentNegative, exponent) ← exponent? chars
  return { negative, integer, fraction, exponentNegative, exponent }

/-- The value of decimal digits. -/
def value (digits : List Char) : Nat := Nat.ofDigitChars 10 digits 0

/-- The document that a number stands for. -/
def ofText? (chars : List Char) : Option Json :=
  (lexeme? chars).map fun l =>
    if l.negative || l.fraction.isSome || l.exponent.isSome then .decimal (String.ofList chars)
    else .natural (value l.integer)

/-- Appends digits to a significand as long as it stays a 64-bit word; gives the
digits that no longer fit. -/
def extend (significand : Nat) : List Char → Nat × List Char
  | [] => (significand, [])
  | d :: rest =>
    let next := significand * 10 + (d.toNat - '0'.toNat)
    if next < Count.limit then extend next rest else (significand, d :: rest)

/-- The significand and the power of ten that a number is computed from. Digits that
do not fit the significand count only by their place. -/
def scaled (l : Lexeme) : Nat × Int :=
  let (whole, dropped) := extend 0 l.integer
  let fraction := l.fraction.getD []
  let (significand, ignored) := extend whole fraction
  let power : Int := value (l.exponent.getD [])
  let shift : Int := dropped.length + ignored.length - fraction.length
  (significand, if l.exponentNegative then shift - power else shift + power)

/-- Whether a number comes out infinite: the product of the significand and the power
of ten, both taken to the nearest double, is too large. -/
def overflows (l : Lexeme) : Bool :=
  let (significand, exponent) := scaled l
  if significand = 0 ∨ exponent < 0 then false
  else if 308 < exponent then true
  else Double.limit ≤ Double.nearest significand * Double.nearest (Nat.pow 10 exponent.toNat)

/-- Whether a number is none because it comes out infinite. -/
def isHuge : Json → Bool
  | .natural n => ((lexeme? (Nat.toDigits 10 n)).map overflows).getD false
  | .decimal lexeme => ((lexeme? lexeme.toList).map overflows).getD false
  | _ => false

end TokenGame.Json.Number
