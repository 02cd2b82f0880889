import TokenGame.Json.Number

/-! The tokens of a JSON text. The scanner reads one character at a time; words and
numbers end where a character comes that cannot continue them. -/
namespace TokenGame.Json

inductive Token where
  | openBrace
  | closeBrace
  | openBracket
  | closeBracket
  | comma
  | colon
  /-- A literal or a number. -/
  | scalar (value : Json)
  | text (value : Option String)
  deriving Repr

namespace Token

/-- Where the scanner is inside a text. -/
inductive Phase where
  | plain
  | escape
  /-- Inside a `\u` escape: how many digits are missing, and the value so far. -/
  | hex (missing value : Nat)
  deriving DecidableEq, Repr

/-- A text that is being read. `high` is a leading surrogate that waits for its
other half. -/
structure TextScan where
  /-- The characters so far, the last one first. -/
  chars : List Char := []
  broken : Bool := false
  high : Option Nat := none
  phase : Phase := .plain
  deriving DecidableEq, Repr

namespace TextScan

/-- Adds a character; a leading surrogate before it has no other half. -/
def add (t : TextScan) (c : Char) : TextScan :=
  { chars := c :: t.chars, broken := t.broken || t.high.isSome }

/-- Adds the code unit of a `\u` escape. -/
def addUnit (t : TextScan) (unit : Nat) : TextScan :=
  if 0xD800 ≤ unit ∧ unit < 0xDC00 then
    { t with broken := t.broken || t.high.isSome, high := some unit, phase := .plain }
  else if 0xDC00 ≤ unit ∧ unit < 0xE000 then
    match t.high with
    | some high =>
      let code := 0x10000 + (high - 0xD800) * 0x400 + (unit - 0xDC00)
      { t with chars := Char.ofNat code :: t.chars, high := none, phase := .plain }
    | none => { t with broken := true, phase := .plain }
  else t.add (Char.ofNat unit)

def value (t : TextScan) : Option String :=
  if t.broken || t.high.isSome then none else some (String.ofList t.chars.reverse)

/-- The character that follows a backslash, except for `u`. -/
def escaped? : Char → Option Char
  | '"' => some '"'
  | '\\' => some '\\'
  | '/' => some '/'
  | 'b' => some '\x08'
  | 'f' => some '\x0c'
  | 'n' => some '\n'
  | 'r' => some '\r'
  | 't' => some '\t'
  | _ => none

def hexValue? (c : Char) : Option Nat :=
  if '0' ≤ c ∧ c ≤ '9' then some (c.toNat - '0'.toNat)
  else if 'a' ≤ c ∧ c ≤ 'f' then some (c.toNat - 'a'.toNat + 10)
  else if 'A' ≤ c ∧ c ≤ 'F' then some (c.toNat - 'A'.toNat + 10)
  else none

end TextScan

inductive Mode where
  | between
  | word (reversed : List Char)
  | number (reversed : List Char)
  | text (scan : TextScan)
  deriving DecidableEq, Repr

/-- The tokens so far, the last one first, and what is being read. -/
structure Scan where
  tokens : List Token := []
  mode : Mode := .between
  deriving Repr

def isBlank (c : Char) : Bool := c = ' ' || c = '\t' || c = '\n' || c = '\r'

def isWordChar (c : Char) : Bool := 'a' ≤ c && c ≤ 'z'

def isNumberStart (c : Char) : Bool := c.isDigit || c = '-'

def isNumberChar (c : Char) : Bool :=
  c.isDigit || c = '-' || c = '+' || c = '.' || c = 'e' || c = 'E'

def punctuation? : Char → Option Token
  | '{' => some .openBrace
  | '}' => some .closeBrace
  | '[' => some .openBracket
  | ']' => some .closeBracket
  | ',' => some .comma
  | ':' => some .colon
  | _ => none

def word? : List Char → Option Token
  | ['t', 'r', 'u', 'e'] => some (.scalar (.bool true))
  | ['f', 'a', 'l', 's', 'e'] => some (.scalar (.bool false))
  | ['n', 'u', 'l', 'l'] => some (.scalar .null)
  | _ => none

/-- Reads a character that stands between tokens. -/
def begin? (tokens : List Token) (c : Char) : Option Scan :=
  if isBlank c then some ⟨tokens, .between⟩
  else if c = '"' then some ⟨tokens, .text {}⟩
  else if isNumberStart c then some ⟨tokens, .number [c]⟩
  else if isWordChar c then some ⟨tokens, .word [c]⟩
  else (punctuation? c).map fun t => ⟨t :: tokens, .between⟩

/-- Reads a character inside a text. -/
def stepText? (tokens : List Token) (t : TextScan) (c : Char) : Option Scan :=
  match t.phase with
  | .plain =>
    if c = '"' then some ⟨.text t.value :: tokens, .between⟩
    else if c = '\\' then some ⟨tokens, .text { t with phase := .escape }⟩
    else if c.toNat < 0x20 then none
    else some ⟨tokens, .text (t.add c)⟩
  | .escape =>
    if c = 'u' then some ⟨tokens, .text { t with phase := .hex 4 0 }⟩
    else (TextScan.escaped? c).map fun c => ⟨tokens, .text (t.add c)⟩
  | .hex missing value => do
    let digit ← TextScan.hexValue? c
    let value := value * 16 + digit
    if missing ≤ 1 then return ⟨tokens, .text (t.addUnit value)⟩
    else return ⟨tokens, .text { t with phase := .hex (missing - 1) value }⟩

/-- The tokens after a word or number that ends here. -/
def close? (s : Scan) : Option (List Token) :=
  match s.mode with
  | .between => some s.tokens
  | .word reversed => (word? reversed.reverse).map (· :: s.tokens)
  | .number reversed => (Number.ofText? reversed.reverse).map (.scalar · :: s.tokens)
  | .text _ => none

def step? (s : Scan) (c : Char) : Option Scan :=
  match s.mode with
  | .between => begin? s.tokens c
  | .word reversed =>
    if isWordChar c then some { s with mode := .word (c :: reversed) }
    else (close? s).bind (begin? · c)
  | .number reversed =>
    if isNumberChar c then some { s with mode := .number (c :: reversed) }
    else (close? s).bind (begin? · c)
  | .text t => stepText? s.tokens t c

/-- The tokens of a text, if it is made of tokens. -/
def scan? (text : String) : Option (List Token) := do
  let s ← text.toList.foldlM step? {}
  let tokens ← close? s
  return tokens.reverse

end Token

end TokenGame.Json
