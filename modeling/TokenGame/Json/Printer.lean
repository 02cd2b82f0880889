import TokenGame.Json.Basic

/-! Writing JSON texts, on one line or with one item to a line. -/
namespace TokenGame.Json

def hexDigit (n : Nat) : Char := Nat.digitChar (n % 16)

/-- How a character is written inside quotes: quotes, backslashes and control
characters are escaped, everything else stands for itself. -/
def escapeChar (c : Char) : List Char :=
  if c = '"' then ['\\', '"']
  else if c = '\\' then ['\\', '\\']
  else if c = '\x08' then ['\\', 'b']
  else if c = '\x0c' then ['\\', 'f']
  else if c = '\n' then ['\\', 'n']
  else if c = '\r' then ['\\', 'r']
  else if c = '\t' then ['\\', 't']
  else if c.toNat < 0x20 then ['\\', 'u', '0', '0', hexDigit (c.toNat / 16), hexDigit c.toNat]
  else [c]

def quote (s : String) : String :=
  String.ofList ('"' :: s.toList.flatMap escapeChar ++ ['"'])

/-- A text that denotes nothing is written as half of a surrogate pair. -/
def quoteText : Option String → String
  | some s => quote s
  | none => "\"\\ud800\""

/-! ### On one line -/

mutual

def compact : Json → String
  | .null => "null"
  | .bool b => if b then "true" else "false"
  | .natural n => Nat.repr n
  | .decimal lexeme => lexeme
  | .text t => quoteText t
  | .list items => "[" ++ compactItems items ++ "]"
  | .object fields => "\x7b" ++ compactFields fields ++ "\x7d"

def compactItems : List Json → String
  | [] => ""
  | [v] => compact v
  | v :: rest => compact v ++ "," ++ compactItems rest

def compactFields : List (Option String × Json) → String
  | [] => ""
  | [(key, v)] => quoteText key ++ ":" ++ compact v
  | (key, v) :: rest => quoteText key ++ ":" ++ compact v ++ "," ++ compactFields rest

end

/-! ### One item to a line -/

/-- A line break and the indentation of a nesting depth, two blanks to a level. -/
def newline (depth : Nat) : String := String.ofList ('\n' :: List.replicate (2 * depth) ' ')

mutual

def prettyAt (depth : Nat) : Json → String
  | .null => "null"
  | .bool b => if b then "true" else "false"
  | .natural n => Nat.repr n
  | .decimal lexeme => lexeme
  | .text t => quoteText t
  | .list [] => "[]"
  | .object [] => "\x7b\x7d"
  | .list (v :: rest) => "[" ++ prettyItems (depth + 1) (v :: rest) ++ newline depth ++ "]"
  | .object (f :: rest) =>
    "\x7b" ++ prettyFields (depth + 1) (f :: rest) ++ newline depth ++ "\x7d"

def prettyItems (depth : Nat) : List Json → String
  | [] => ""
  | [v] => newline depth ++ prettyAt depth v
  | v :: rest => newline depth ++ prettyAt depth v ++ "," ++ prettyItems depth rest

def prettyFields (depth : Nat) : List (Option String × Json) → String
  | [] => ""
  | [(key, v)] => newline depth ++ quoteText key ++ ": " ++ prettyAt depth v
  | (key, v) :: rest =>
    newline depth ++ quoteText key ++ ": " ++ prettyAt depth v ++ "," ++ prettyFields depth rest

end

def pretty (v : Json) : String := prettyAt 0 v

end TokenGame.Json
