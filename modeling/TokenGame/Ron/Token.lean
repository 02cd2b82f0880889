import TokenGame.Ron.Number
import TokenGame.Text.Identifier

/-! The tokens of a RON text. The scanner reads one character at a time; names and
numbers end where a character comes that cannot continue them. -/
namespace TokenGame.Ron

inductive Token where
  /-- A bracket, comma, colon, or a sign of the extension line. -/
  | mark (c : Char)
  /-- An opening parenthesis, with the text after it. -/
  | opening (after : List Char)
  /-- A name; one written after `r#` is never a keyword. -/
  | name (value : String) (raw : Bool)
  | number (lexeme : String)
  | text (value : String)
  | char (value : Char)
  | bytes (value : List Nat)
  /-- Parentheses with not even a blank between them. -/
  | unit
  deriving DecidableEq, Repr

namespace Token

def isBlank (c : Char) : Bool :=
  [' ', '\t', '\n', '\r', '\x0b', '\x0c', '\u0085', '\u200e', '\u200f', '\u2028',
    '\u2029'].contains c

def isMark (c : Char) : Bool :=
  [')', '[', ']', '{', '}', ',', ':', '#', '!'].contains c

/-- Characters of names after `r#`. -/
def isRawNameChar (c : Char) : Bool := Identifier.isPart c || c = '.' || c = '+' || c = '-'

/-- The character that some bytes encode in UTF-8, if they encode exactly one. -/
def ofUtf8? (bytes : List Nat) : Option Char :=
  match String.fromUTF8? (ByteArray.mk (bytes.map Nat.toUInt8).toArray) with
  | some s =>
    match s.toList with
    | [c] => some c
    | _ => none
  | none => none

/-- Which quotes surround a text: they decide what its escapes may say. -/
inductive Quotes where
  | text
  | bytes
  /-- A single character; it ends after one. -/
  | char
  /-- A single byte. -/
  | byte
  deriving DecidableEq, Repr

namespace Quotes

def closing : Quotes → Char
  | .text | .bytes => '"'
  | .char | .byte => '\''

def isSingle : Quotes → Bool
  | .char | .byte => true
  | .text | .bytes => false

end Quotes

inductive Phase where
  | plain
  | escape
  /-- Inside a `\x` escape: the bytes before it, and its first digit. -/
  | byte (bytes : List Nat) (high : Option Nat)
  /-- Between the `\x` escapes of one character: whether the backslash was read. -/
  | more (bytes : List Nat) (backslash : Bool)
  /-- Before the brace of a `\u` escape. -/
  | brace
  | hex (count value : Nat)
  deriving DecidableEq, Repr

/-- The bytes that encode a character in UTF-8. -/
def utf8 (c : Char) : List Nat := (String.singleton c).toUTF8.toList.map UInt8.toNat

/-- A text that is being read, the last character first. In binary texts
characters stand for bytes. -/
structure TextScan where
  quotes : Quotes
  chars : List Char := []
  phase : Phase := .plain
  deriving DecidableEq, Repr

namespace TextScan

def add (t : TextScan) (c : Char) : TextScan := { t with chars := c :: t.chars, phase := .plain }

/-- Adds a character that stands for itself. A single byte has to be ASCII, and a
binary text takes the bytes that encode the character. -/
def addPlain? (t : TextScan) (c : Char) : Option TextScan :=
  match t.quotes with
  | .text | .char => some (t.add c)
  | .byte => if c.toNat < 0x80 then some (t.add c) else none
  | .bytes => some ((utf8 c).foldl (fun t b => t.add (Char.ofNat b)) t)

def escaped? : Char → Option Char
  | '\'' => some '\''
  | '"' => some '"'
  | '\\' => some '\\'
  | 'n' => some '\n'
  | 'r' => some '\r'
  | 't' => some '\t'
  | '0' => some '\x00'
  | _ => none

/-- The text after a `\x` escape is complete. Bytes of a character beyond ASCII
have to follow each other. -/
def addByte? (t : TextScan) (bytes : List Nat) : Option TextScan :=
  match t.quotes with
  | .bytes | .byte => some (t.add (Char.ofNat (bytes.getLastD 0)))
  | .char => (ofUtf8? bytes).map t.add
  | .text =>
    match ofUtf8? bytes with
    | some c => some (t.add c)
    | none => if bytes.length < 4 then some { t with phase := .more bytes false } else none

def stepEscape? (t : TextScan) (c : Char) : Option TextScan :=
  if c = 'x' then some { t with phase := .byte [] none }
  else if c = 'u' then if t.quotes = .byte then none else some { t with phase := .brace }
  else (escaped? c).map t.add

def stepByte? (t : TextScan) (bytes : List Nat) (high : Option Nat) (c : Char) :
    Option TextScan := do
  let digit ← Number.hexValue? c
  match high with
  | none => return { t with phase := .byte bytes (some digit) }
  | some high => t.addByte? (bytes ++ [high * 16 + digit])

def stepMore? (t : TextScan) (bytes : List Nat) (backslash : Bool) (c : Char) : Option TextScan :=
  if backslash then if c = 'x' then some { t with phase := .byte bytes none } else none
  else if c = '\\' then some { t with phase := .more bytes true } else none

/-- A `\u` escape has one to six digits and names a character. -/
def stepHex? (t : TextScan) (count value : Nat) (c : Char) : Option TextScan :=
  if c = '}' ∧ 0 < count then
    if value.isValidChar then t.addPlain? (Char.ofNat value) else none
  else if count < 6 then
    (Number.hexValue? c).map fun digit => { t with phase := .hex (count + 1) (value * 16 + digit) }
  else none

/-- Reads a character inside quotes, other than one that closes them. -/
def step? (t : TextScan) (c : Char) : Option TextScan :=
  match t.phase with
  | .plain => if c = '\\' then some { t with phase := .escape } else t.addPlain? c
  | .escape => t.stepEscape? c
  | .byte earlier high => t.stepByte? earlier high c
  | .more earlier backslash => t.stepMore? earlier backslash c
  | .brace => if c = '{' then some { t with phase := .hex 0 0 } else none
  | .hex count value => t.stepHex? count value c

/-- Whether a character closes the quotes. A quote may be the character itself
between single quotes. -/
def closes (t : TextScan) (c : Char) : Bool :=
  t.phase = .plain && c = t.quotes.closing && (!t.quotes.isSingle || !t.chars.isEmpty)

def token? (t : TextScan) : Option Token :=
  match t.quotes, t.chars with
  | .text, chars => some (.text (String.ofList chars.reverse))
  | .bytes, chars => some (.bytes (chars.reverse.map Char.toNat))
  | .char, [c] => some (.char c)
  | .byte, [c] => some (.number (Nat.repr c.toNat ++ "u8"))
  | _, _ => none

end TextScan

/-- Where in a comment a character comes. -/
inductive Comment where
  /-- After the first slash. -/
  | start
  | line
  /-- Inside comments that are nested to a depth, after a character that may be
  half of a comment mark. -/
  | block (depth : Nat) (half : Option Char)
  deriving DecidableEq, Repr

namespace Comment

def stepBlock (depth : Nat) (half : Option Char) (c : Char) : Option Comment :=
  match half, c with
  | some '/', '*' => some (.block (depth + 1) none)
  | some '*', '/' => if depth ≤ 1 then none else some (.block (depth - 1) none)
  | _, c => some (.block depth (if c = '/' ∨ c = '*' then some c else none))

/-- Reads a character of a comment, which may be its last one. -/
def step? : Comment → Char → Option (Option Comment)
  | .start, c =>
    if c = '/' then some (some .line)
    else if c = '*' then some (some (.block 1 none))
    else none
  | .line, c => some (if c = '\n' then none else some .line)
  | .block depth half, c => some (stepBlock depth half c)

end Comment

inductive Mode where
  | between
  /-- Right after an opening parenthesis. -/
  | opened
  | comment (state : Comment)
  | name (reversed : List Char)
  | rawName (reversed : List Char)
  | number (reversed : List Char)
  | quoted (scan : TextScan)
  /-- After `r` or `br` and some number signs. -/
  | rawStart (binary : Bool) (signs : Nat)
  /-- Inside a raw text; `closing` counts the signs after a quote that may end it. -/
  | rawText (binary : Bool) (signs : Nat) (reversed : List Char) (closing : Option Nat)
  deriving DecidableEq, Repr

/-- The tokens so far, the last one first, and what is being read. -/
structure Scan where
  tokens : List Token := []
  mode : Mode := .between
  deriving DecidableEq, Repr

/-- Reads a character that stands between tokens. -/
def begin? (tokens : List Token) (c : Char) (after : List Char) : Option Scan :=
  if isBlank c then some ⟨tokens, .between⟩
  else if c = '(' then some ⟨.opening after :: tokens, .opened⟩
  else if isMark c then some ⟨.mark c :: tokens, .between⟩
  else if c = '"' then some ⟨tokens, .quoted { quotes := .text }⟩
  else if c = '\'' then some ⟨tokens, .quoted { quotes := .char }⟩
  else if c = '/' then some ⟨tokens, .comment .start⟩
  else if Number.isNumberStart c then some ⟨tokens, .number [c]⟩
  else if Identifier.isStart c then some ⟨tokens, .name [c]⟩
  else none

/-- The tokens after a name or number that ends here. -/
def close? (s : Scan) : Option (List Token) :=
  match s.mode with
  | .between | .opened | .comment .line => some s.tokens
  | .name reversed => some (.name (String.ofList reversed.reverse) false :: s.tokens)
  | .rawName reversed => some (.name (String.ofList reversed.reverse) true :: s.tokens)
  | .number reversed =>
    if Number.isNumber reversed.reverse then
      some (.number (String.ofList reversed.reverse) :: s.tokens)
    else none
  | .comment _ | .quoted _ | .rawStart .. | .rawText .. => none

/-- What a quote or number sign after a name starts: the name may be the mark of
a raw or binary text. -/
def mark? (reversed : List Char) (c : Char) : Option Mode :=
  match reversed, c with
  | ['r'], '"' => some (.rawText false 0 [] none)
  | ['r'], '#' => some (.rawStart false 1)
  | ['b'], '"' => some (.quoted { quotes := .bytes })
  | ['b'], '\'' => some (.quoted { quotes := .byte })
  | ['r', 'b'], '"' => some (.rawText true 0 [] none)
  | ['r', 'b'], '#' => some (.rawStart true 1)
  | _, _ => none

/-- Ends the token that is being read and begins the next one. -/
def next? (s : Scan) (c : Char) (after : List Char) : Option Scan :=
  (close? s).bind (begin? · c after)

def stepName? (s : Scan) (reversed : List Char) (c : Char) (after : List Char) : Option Scan :=
  if Identifier.isPart c then some { s with mode := .name (c :: reversed) }
  else
    match mark? reversed c with
    | some mode => some { s with mode }
    | none => next? s c after

def stepRawStart? (s : Scan) (binary : Bool) (signs : Nat) (c : Char) : Option Scan :=
  if c = '"' then some { s with mode := .rawText binary signs [] none }
  else if c = '#' then some { s with mode := .rawStart binary (signs + 1) }
  else if !binary && signs = 1 && isRawNameChar c then some { s with mode := .rawName [c] }
  else none

/-- `reversed` holds everything after the opening quote. -/
def stepRawText (s : Scan) (binary : Bool) (signs : Nat) (reversed : List Char)
    (closing : Option Nat) (c : Char) : Scan :=
  let reversed := c :: reversed
  let closing :=
    if c = '"' then some 0
    else if c = '#' then closing.map (· + 1)
    else none
  if closing = some signs then
    let content := (reversed.drop (signs + 1)).reverse
    let token := if binary then .bytes (content.flatMap utf8) else .text (String.ofList content)
    ⟨token :: s.tokens, .between⟩
  else { s with mode := .rawText binary signs reversed closing }

def step? (s : Scan) (c : Char) (after : List Char) : Option Scan :=
  match s.mode with
  | .between => begin? s.tokens c after
  | .opened =>
    if c = ')' then some ⟨.unit :: s.tokens.drop 1, .between⟩ else begin? s.tokens c after
  | .comment state =>
    (state.step? c).map fun next => { s with mode := (next.map .comment).getD .between }
  | .name reversed => stepName? s reversed c after
  | .rawName reversed =>
    if isRawNameChar c then some { s with mode := .rawName (c :: reversed) } else next? s c after
  | .number reversed =>
    if Number.isNumberChar c then some { s with mode := .number (c :: reversed) }
    else next? s c after
  | .quoted t =>
    if t.closes c then t.token?.map fun token => ⟨token :: s.tokens, .between⟩
    else (t.step? c).map fun t => { s with mode := .quoted t }
  | .rawStart binary signs => stepRawStart? s binary signs c
  | .rawText binary signs reversed closing => some (stepRawText s binary signs reversed closing c)

def scanFrom? (s : Scan) : List Char → Option Scan
  | [] => some s
  | c :: after => (step? s c after).bind (scanFrom? · after)

/-- The tokens of a text, if it is made of tokens. -/
def scan? (text : String) : Option (List Token) := do
  let s ← scanFrom? {} text.toList
  let tokens ← close? s
  return tokens.reverse

end Token

end TokenGame.Ron
