import TokenGame.Toml.Scalar

/-! The texts of TOML: with escapes between double quotes, without any between
single ones, and on several lines between three of either. -/
namespace TokenGame.Toml.Quoted

/-- Characters that may stand in a text or comment as they are. -/
def isPlain (c : Char) : Bool := c = '\t' || (0x20 ≤ c.toNat && c.toNat != 0x7f)

def escaped? : Char → Option Char
  | 'b' => some '\x08'
  | 't' => some '\t'
  | 'n' => some '\n'
  | 'f' => some '\x0c'
  | 'e' => some '\x1b'
  | 'r' => some '\r'
  | '"' => some '"'
  | '\\' => some '\\'
  | _ => none

/-- The character that so many hexadecimal digits name. -/
def codePoint? (count : Nat) (chars : List Char) : Option (Char × List Char) := do
  let digits ← (chars.take count).mapM Scalar.hexValue?
  let code := Scalar.number 16 digits
  if digits.length = count ∧ code.isValidChar then
    some (Char.ofNat code, chars.drop count)
  else none

/-- The character of an escape, after its backslash. -/
def escape? : List Char → Option (Char × List Char)
  | 'x' :: rest => codePoint? 2 rest
  | 'u' :: rest => codePoint? 4 rest
  | 'U' :: rest => codePoint? 8 rest
  | c :: rest => (escaped? c).map (·, rest)
  | [] => none

def isBlank (c : Char) : Bool := c = ' ' || c = '\t'

/-- A line break at the front of a text, as it is written, and what follows it. -/
def newline? : List Char → Option (List Char × List Char)
  | '\n' :: rest => some (['\n'], rest)
  | '\r' :: '\n' :: rest => some (['\r', '\n'], rest)
  | _ => none

/-- A line break at the front of a text is dropped. -/
def dropNewline? (chars : List Char) : Option (List Char) := (newline? chars).map (·.2)

/-- Blanks and line breaks are dropped. -/
def skipSpace : List Char → List Char
  | '\r' :: '\n' :: rest => skipSpace rest
  | c :: rest => if isBlank c || c = '\n' then skipSpace rest else c :: rest
  | [] => []

/-- After a backslash at the end of a line: what follows the blanks and line
breaks, if there is a line break before anything else. -/
def continuation? (chars : List Char) : Option (List Char) :=
  (dropNewline? (chars.dropWhile isBlank)).map skipSpace

/-- Prepends a character to the text of the rest. -/
def push (c : Char) : Option (List Char × List Char) → Option (List Char × List Char) :=
  Option.map fun (body, rest) => (c :: body, rest)

/-- The rest of a text between double quotes. -/
def basic : (rounds : Nat) → List Char → Option (List Char × List Char)
  | 0, _ | _, [] => none
  | rounds + 1, c :: rest =>
    if c = '"' then some ([], rest)
    else if c = '\\' then (escape? rest).bind fun (c, rest) => push c (basic rounds rest)
    else if isPlain c then push c (basic rounds rest)
    else none

/-- The rest of a text between single quotes. -/
def literal : List Char → Option (List Char × List Char)
  | [] => none
  | c :: rest =>
    if c = '\'' then some ([], rest) else if isPlain c then push c (literal rest) else none

/-- Three quotes end a text; up to two more of them before those belong to it. -/
def closing? (quote : Char) (chars : List Char) : Option (List Char × List Char) :=
  let count := (chars.takeWhile (· = quote)).length
  if 3 ≤ count then
    let kept := min (count - 3) 2
    some (chars.take kept, chars.drop (kept + 3))
  else none

/-- The rest of a text on several lines. -/
def multiline (quote : Char) : (rounds : Nat) → List Char → Option (List Char × List Char)
  | 0, _ | _, [] => none
  | rounds + 1, c :: rest =>
    match closing? quote (c :: rest) with
    | some result => some result
    | none =>
      if c = '\\' ∧ quote = '"' then
        match continuation? rest with
        | some rest => multiline quote rounds rest
        | none => (escape? rest).bind fun (c, rest) => push c (multiline quote rounds rest)
      else
        match newline? (c :: rest) with
        | some (newline, rest) =>
          (multiline quote rounds rest).map fun (body, rest) => (newline ++ body, rest)
        | none => if isPlain c then push c (multiline quote rounds rest) else none

/-- The text at the front of the characters, if it is one on one line. -/
def line? (chars : List Char) : Option (String × List Char) :=
  match chars with
  | '"' :: rest => (basic (rest.length + 1) rest).map fun (s, rest) => (String.ofList s, rest)
  | '\'' :: rest => (literal rest).map fun (s, rest) => (String.ofList s, rest)
  | _ => none

/-- A line break right after the opening quotes is not part of the text. -/
def block (quote : Char) (chars : List Char) : Option (String × List Char) :=
  let body := (dropNewline? chars).getD chars
  (multiline quote (body.length + 1) body).map fun (s, rest) => (String.ofList s, rest)

/-- The text at the front of the characters. -/
def parse? : List Char → Option (String × List Char)
  | '"' :: '"' :: '"' :: rest => block '"' rest
  | '\'' :: '\'' :: '\'' :: rest => block '\'' rest
  | chars => line? chars

end TokenGame.Toml.Quoted
