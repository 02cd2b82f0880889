import TokenGame.Ron.Basic

/-! RON numbers. Integers are decimal or have a base prefix, underscores may stand
between the digits, and the width may follow as a suffix. -/
namespace TokenGame.Ron.Number

def hexValue? (c : Char) : Option Nat :=
  if '0' ≤ c ∧ c ≤ '9' then some (c.toNat - '0'.toNat)
  else if 'a' ≤ c ∧ c ≤ 'f' then some (c.toNat - 'a'.toNat + 10)
  else if 'A' ≤ c ∧ c ≤ 'F' then some (c.toNat - 'A'.toNat + 10)
  else none

def isIntegerChar (c : Char) : Bool := (hexValue? c).isSome || c = '_'

def isFloatChar (c : Char) : Bool :=
  c.isDigit || c = 'e' || c = 'E' || c = '.' || c = '+' || c = '-' || c = '_'

/-- Whether a character can stand inside a number of any kind. -/
def isNumberChar (c : Char) : Bool := c.isAlphanum || c = '_' || c = '.' || c = '+' || c = '-'

def isNumberStart (c : Char) : Bool := c.isDigit || c = '+' || c = '-' || c = '.'

def sign : List Char → Bool × List Char
  | '-' :: rest => (true, rest)
  | '+' :: rest => (false, rest)
  | rest => (false, rest)

def base : List Char → Nat × List Char
  | '0' :: 'b' :: rest => (2, rest)
  | '0' :: 'o' :: rest => (8, rest)
  | '0' :: 'x' :: rest => (16, rest)
  | rest => (10, rest)

/-- The value of digits in a base; underscores are passed over. -/
def digits? (base : Nat) (digits : List Char) : Option Nat :=
  digits.foldlM
    (fun value c =>
      if c = '_' then some value
      else do
        let digit ← hexValue? c
        if digit < base then some (value * base + digit) else none)
    0

/-- The magnitude of an integer without sign and suffix. -/
def magnitude? (body : List Char) : Option Nat :=
  let (base, digits) := base body
  match digits with
  | [] => none
  | '_' :: _ => none
  | digits => digits? base digits

/-- The widths of integers: suffix, greatest value, and the magnitude of the
least. -/
def widths : List (List Char × Nat × Nat) :=
  [("i8".toList, Nat.pow 2 7 - 1, Nat.pow 2 7), ("i16".toList, Nat.pow 2 15 - 1, Nat.pow 2 15),
    ("i32".toList, Nat.pow 2 31 - 1, Nat.pow 2 31), ("i64".toList, Nat.pow 2 63 - 1, Nat.pow 2 63),
    ("u8".toList, Nat.pow 2 8 - 1, 0), ("u16".toList, Nat.pow 2 16 - 1, 0),
    ("u32".toList, Nat.pow 2 32 - 1, 0), ("u64".toList, Nat.pow 2 64 - 1, 0)]

/-- Splits a suffix off an integer. A base prefix whose mark is no digit hides it. -/
def suffix (body : List Char) : List Char × List Char :=
  let (digits, rest) := body.span isIntegerChar
  match rest with
  | 'i' :: _ | 'u' :: _ => (digits, rest)
  | _ => (body, [])

/-- The value of a number that is an unsigned 64-bit integer. -/
def word? (lexeme : String) : Option Nat :=
  let (negative, body) := sign lexeme.toList
  let (digits, width) := suffix body
  if width = [] ∨ width = "u64".toList then
    (magnitude? digits).bind fun n =>
      if n < UInt64.size ∧ (negative → n = 0) then some n else none
  else none

/-- Whether a text is an integer of the width its suffix names, or of some width. -/
def isInteger (body : List Char) : Bool :=
  let (negative, body) := sign body
  let (digits, width) := suffix body
  let (greatest, least) :=
    if width = [] then (Nat.pow 2 64 - 1, Nat.pow 2 63)
    else ((widths.find? (·.1 == width)).map (·.2)).getD (0, 0)
  let known := width = [] || widths.any (·.1 == width)
  match magnitude? digits with
  | some n => known && (if negative then n ≤ least else n ≤ greatest)
  | none => false

/-- Underscores may stand in a float after a digit or an exponent mark. -/
def dropUnderscores? : (allowed : Bool) → List Char → Option (List Char)
  | _, [] => some []
  | allowed, '_' :: rest => if allowed then dropUnderscores? allowed rest else none
  | allowed, c :: rest =>
    let allowed := if c.isDigit || c = 'e' || c = 'E' then true else if c = '.' then false
      else allowed
    (dropUnderscores? allowed rest).map (c :: ·)

/-- Digits with at most one point among them and at least one digit. -/
def isSignificand (body : List Char) : Bool :=
  let (integer, rest) := body.span Char.isDigit
  match rest with
  | [] => !integer.isEmpty
  | '.' :: fraction =>
    fraction.all Char.isDigit && !(integer.isEmpty && fraction.isEmpty)
  | _ => false

def isDecimal (body : List Char) : Bool :=
  let (_, body) := sign body
  let (significand, rest) := body.span fun c => c != 'e' && c != 'E'
  isSignificand significand &&
    match rest with
    | [] => true
    | _ :: exponent =>
      let (_, digits) := sign exponent
      !digits.isEmpty && digits.all Char.isDigit

/-- A float's text without the suffix that gives its width. -/
def floatBody (body : List Char) : List Char :=
  let (digits, rest) := body.span isFloatChar
  if rest = "f32".toList ∨ rest = "f64".toList then digits else body

def isFloat (body : List Char) : Bool :=
  let (_, unsigned) := sign body
  if ["inf", "inff32", "inff64", "NaN", "NaNf32", "NaNf64"].contains (String.ofList unsigned) then
    true
  else ((dropUnderscores? false (floatBody body)).map isDecimal).getD false

/-- Whether a text is a number of any kind. -/
def isNumber (body : List Char) : Bool :=
  let (_, unsigned) := sign body
  if (unsigned.takeWhile isIntegerChar).length < (unsigned.takeWhile isFloatChar).length then
    isFloat body
  else isInteger body || isFloat body

end TokenGame.Ron.Number
