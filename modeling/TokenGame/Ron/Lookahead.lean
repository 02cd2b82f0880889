import TokenGame.Ron.Token

/-! Looking ahead in a RON text. Where nothing else says what the parentheses of
`Some` hold, the text up to the closing one decides. It is looked through character by
character: quoted texts are skipped where a step begins, and so are blanks and comments
before them, but not after them. -/
namespace TokenGame.Ron.Lookahead

open Token (Comment TextScan)

/-- What parentheses hold. -/
inductive Holding where
  | nothing
  | fields
  | one
  | several
  deriving DecidableEq, Repr

/-- The text after blanks and comments, if every comment is well formed. -/
def skip? : Option Comment → List Char → Option (List Char)
  | none, [] | some .line, [] => some []
  | some _, [] => none
  | none, c :: rest =>
    if Token.isBlank c then skip? none rest
    else if c = '/' then skip? (some .start) rest
    else some (c :: rest)
  | some comment, c :: rest => (comment.step? c).bind (skip? · rest)

/-- The text after the quotes that are open. -/
def closed? (t : TextScan) : List Char → Option (List Char)
  | [] => none
  | c :: rest =>
    if t.closes c then t.token?.map fun _ => rest else (t.step? c).bind (closed? · rest)

/-- The text after a quote that is followed by so many number signs. -/
def closedRaw? (signs : List Char) : List Char → Option (List Char)
  | [] => none
  | c :: rest =>
    if c = '"' && signs.isPrefixOf rest then some (rest.drop signs.length)
    else closedRaw? signs rest

/-- The text after a raw text, whose `r` has been read. -/
def afterRaw? (chars : List Char) : Option (List Char) :=
  match chars.span (· = '#') with
  | (signs, '"' :: rest) => closedRaw? signs rest
  | _ => none

def afterChar? : List Char → Option (List Char)
  | '\'' :: rest => closed? { quotes := .char } rest
  | _ => none

def afterText? : List Char → Option (List Char)
  | '"' :: rest => closed? { quotes := .text } rest
  | 'r' :: rest => afterRaw? rest
  | _ => none

def afterBytes? : List Char → Option (List Char)
  | 'b' :: '"' :: rest => closed? { quotes := .bytes } rest
  | 'b' :: 'r' :: rest => afterRaw? rest
  | _ => none

/-- The text after a character, a text and bytes, each of which may be missing. -/
def skipQuoted (chars : List Char) : List Char :=
  [afterChar?, afterText?, afterBytes?].foldl (fun chars after? => (after? chars).getD chars) chars

/-- The text after a name, unless it is the mark of a raw or binary text. -/
def afterName? : List Char → Option (List Char)
  | 'b' :: '"' :: _ | 'b' :: '\'' :: _ | 'b' :: 'r' :: '"' :: _ | 'b' :: 'r' :: '#' :: _ => none
  | 'r' :: '"' :: _ => none
  | 'r' :: '#' :: c :: rest =>
    if Token.isRawNameChar c then some (rest.dropWhile Token.isRawNameChar) else none
  | c :: rest => if Identifier.isStart c then some (rest.dropWhile Identifier.isPart) else none
  | [] => none

/-- What a comma says: more is held unless nothing but the end follows it. -/
def afterComma? (chars : List Char) : Option Holding :=
  (skip? none chars).map fun
    | ')' :: _ => .one
    | _ => .several

/-- Looks for a comma, or for the end of so many brackets. Every round takes a
character. -/
def count? : (rounds depth : Nat) → List Char → Option Holding
  | 0, _, _ => none
  | rounds + 1, depth, chars => do
    match skipQuoted (← skip? none chars) with
    | [] => none
    | c :: rest =>
      if c = '(' ∨ c = '[' ∨ c = '{' then count? rounds (depth + 1) rest
      else if c = ')' ∨ c = ']' ∨ c = '}' then
        if depth ≤ 1 then some .one else count? rounds (depth - 1) rest
      else if c = ',' ∧ depth = 1 then afterComma? rest
      else count? rounds depth rest

/-- What the parentheses before a text hold. A name at the front may be that of a
field. -/
def holding? (chars : List Char) : Option Holding := do
  match ← skip? none chars with
  | ')' :: _ => some .nothing
  | chars =>
    match afterName? chars with
    | none => count? (chars.length + 1) 1 chars
    | some rest =>
      match ← skip? none rest with
      | ':' :: _ => some .fields
      | rest => count? (rest.length + 1) 1 rest

/-- Whether parentheses that hold `content` look like it. -/
def fits : Option Holding → Ron → Bool
  | some .nothing, .tuple _ [] | some .fields, .struct _ _ => true
  | some .one, .tuple _ [_] | some .several, .tuple _ _ => true
  | _, _ => false

end TokenGame.Ron.Lookahead
