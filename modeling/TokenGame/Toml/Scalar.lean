import TokenGame.Json.Number
import TokenGame.Toml.Basic

/-! Booleans, numbers and dates of TOML, each from the run of characters that makes
it up. -/
namespace TokenGame.Toml.Scalar

/-- Characters of scalars that are not in quotes. -/
def isScalarChar (c : Char) : Bool := c.isAlphanum || "_+-.:".toList.contains c

def hexValue? (c : Char) : Option Nat :=
  if '0' ≤ c ∧ c ≤ '9' then some (c.toNat - '0'.toNat)
  else if 'a' ≤ c ∧ c ≤ 'f' then some (c.toNat - 'a'.toNat + 10)
  else if 'A' ≤ c ∧ c ≤ 'F' then some (c.toNat - 'A'.toNat + 10)
  else none

/-- Digits in a base, where underscores stand only between two digits. -/
def digits? (base : Nat) (chars : List Char) : Option (List Nat) := go false chars
where
  /-- `after` says that a digit comes before. -/
  go (after : Bool) : List Char → Option (List Nat)
    | [] => if after then some [] else none
    | '_' :: rest => if after then go false rest else none
    | c :: rest => do
      let digit ← hexValue? c
      if digit < base then return digit :: (← go true rest) else none

def number (base : Nat) (digits : List Nat) : Nat := digits.foldl (fun n d => n * base + d) 0

def natural? (base : Nat) (chars : List Char) : Option Nat := (digits? base chars).map (number base)

/-- Decimal digits without leading zeros. -/
def decimal? (chars : List Char) : Option Nat :=
  match chars with
  | '0' :: _ :: _ => none
  | _ => natural? 10 chars

def sign : List Char → Bool × List Char
  | '-' :: rest => (true, rest)
  | '+' :: rest => (false, rest)
  | rest => (false, rest)

def integer? (chars : List Char) : Option Int :=
  match chars with
  | '0' :: 'x' :: rest => (natural? 16 rest).map Int.ofNat
  | '0' :: 'o' :: rest => (natural? 8 rest).map Int.ofNat
  | '0' :: 'b' :: rest => (natural? 2 rest).map Int.ofNat
  | chars =>
    let (negative, magnitude) := sign chars
    (decimal? magnitude).map fun n => if negative then -(n : Int) else n

/-- Whether a number is one of the special values, or is written with a fraction or
an exponent. -/
def isFloat (chars : List Char) : Bool :=
  let (_, chars) := sign chars
  if chars = "inf".toList ∨ chars = "nan".toList then true
  else
    let (mantissa, power) := chars.span fun c => c != 'e' && c != 'E'
    let (whole, fraction) := mantissa.span (· != '.')
    let powerFits := match power with
      | [] => true
      | _ :: rest => (digits? 10 (sign rest).2).isSome
    let fractionFits := match fraction with
      | [] => true
      | _ :: rest => (digits? 10 rest).isSome
    (decimal? whole).isSome && powerFits && fractionFits && !(power.isEmpty && fraction.isEmpty)

/-- Whether a decimal number is beyond the double precision range. Numbers with more
than 400 digits before the point are, and those below one are not; powers of ten
are only computed in between. -/
def exceeds (l : Json.Number.Lexeme) : Bool :=
  let fraction := l.fraction.getD []
  let significand := Json.Number.value (l.integer ++ fraction)
  let exponent := Json.Number.value (l.exponent.getD [])
  let digitCount := (Nat.toDigits 10 significand).length
  if significand = 0 then false
  else if l.exponentNegative then
    let places := fraction.length + exponent
    if digitCount ≤ places then false
    else Double.limit * Nat.pow 10 places ≤ significand
  else if 400 + fraction.length < digitCount + exponent then true
  else Double.limit * Nat.pow 10 fraction.length ≤ significand * Nat.pow 10 exponent

/-- Whether a double holds a float. -/
def fits (chars : List Char) : Bool :=
  let (_, chars) := sign (chars.filter (· != '_'))
  ((Json.Number.lexeme? chars).map fun l => !exceeds l).getD true

/-! ### Dates -/

/-- A number of exactly so many digits. -/
def fixed? (count : Nat) (chars : List Char) : Option Nat :=
  if chars.length = count ∧ chars.all Char.isDigit then
    some (number 10 (chars.map fun c => c.toNat - '0'.toNat))
  else none

def isLeapYear (year : Nat) : Bool := year % 4 = 0 && (year % 100 != 0 || year % 400 = 0)

def daysIn (year month : Nat) : Nat :=
  if month = 2 then if isLeapYear year then 29 else 28
  else if [4, 6, 9, 11].contains month then 30
  else 31

def isDate (chars : List Char) : Bool :=
  let fields := do
    let year ← fixed? 4 (chars.take 4)
    let month ← fixed? 2 ((chars.drop 5).take 2)
    let day ← fixed? 2 ((chars.drop 8).take 2)
    return (year, month, day)
  chars.length = 10 && chars[4]? = some '-' && chars[7]? = some '-' &&
    match fields with
    | some (year, month, day) =>
      1 ≤ month && month ≤ 12 && 1 ≤ day && day ≤ daysIn year month
    | none => false

/-- Hours and minutes with a colon between them. -/
def isClock (chars : List Char) : Bool :=
  chars.length = 5 && chars[2]? = some ':' &&
    match fixed? 2 (chars.take 2), fixed? 2 (chars.drop 3) with
    | some hour, some minute => hour ≤ 23 && minute ≤ 59
    | _, _ => false

/-- Seconds, which may have a fraction. -/
def isSeconds (chars : List Char) : Bool :=
  let (whole, fraction) := chars.span (· != '.')
  ((fixed? 2 whole).map fun s => decide (s ≤ 60)).getD false &&
    match fraction with
    | [] => true
    | _ :: digits => !digits.isEmpty && digits.all Char.isDigit

/-- A time of day, whose seconds may be left out. -/
def isTime (chars : List Char) : Bool :=
  isClock (chars.take 5) &&
    match chars.drop 5 with
    | [] => true
    | ':' :: seconds => isSeconds seconds
    | _ => false

def isOffset (chars : List Char) : Bool :=
  match chars with
  | ['Z'] | ['z'] => true
  | '+' :: clock | '-' :: clock => isClock clock
  | _ => false

/-- A time of day that may be followed by an offset. -/
def isOffsetTime (chars : List Char) : Bool :=
  let (time, offset) := chars.span fun c => c.isDigit || c = ':' || c = '.'
  isTime time && (offset.isEmpty || isOffset offset)

def isDateTime (chars : List Char) : Bool :=
  isDate chars || isTime chars ||
    (isDate (chars.take 10) &&
      match chars.drop 10 with
      | 'T' :: time | 't' :: time | ' ' :: time => isOffsetTime time
      | _ => false)

/-- The value of a run of characters. -/
def ofChars? (chars : List Char) : Option Toml :=
  if chars = "true".toList then some (.bool true)
  else if chars = "false".toList then some (.bool false)
  else
    match integer? chars with
    | some n => some (.integer n)
    | none =>
      if isFloat chars then some (.float (fits chars))
      else if isDateTime chars then some .date
      else none

/-- The scalar at the front of a text, and what follows it. A date may be joined
to its time by a blank. -/
def parse? (chars : List Char) : Option (Toml × List Char) :=
  let (run, rest) := chars.span isScalarChar
  match rest with
  | ' ' :: d :: more =>
    if isDate run ∧ d.isDigit then
      let (time, rest) := (d :: more).span isScalarChar
      (ofChars? (run ++ ' ' :: time)).map (·, rest)
    else (ofChars? run).map (·, rest)
  | rest => (ofChars? run).map (·, rest)

end TokenGame.Toml.Scalar
