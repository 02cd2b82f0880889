import TokenGame.Toml.Quoted
import TokenGame.Toml.Table

/-! Reading TOML texts, line by line: a header opens a table, and a key with its
value adds to the table that was opened last. -/
namespace TokenGame.Toml

def isBareChar (c : Char) : Bool := c.isAlphanum || c = '_' || c = '-'

def skipBlanks (chars : List Char) : List Char := chars.dropWhile Quoted.isBlank

/-- One part of a key, bare or in quotes. -/
def keyPart? (chars : List Char) : Option (String × List Char) :=
  match chars with
  | '"' :: _ | '\'' :: _ => Quoted.line? chars
  | _ =>
    match chars.span isBareChar with
    | ([], _) => none
    | (part, rest) => some (String.ofList part, rest)

/-- The parts of a dotted key. -/
def key? : (rounds : Nat) → List Char → Option (List String × List Char)
  | 0, _ => none
  | rounds + 1, chars => do
    let (part, rest) ← keyPart? (skipBlanks chars)
    match skipBlanks rest with
    | '.' :: rest => (key? rounds rest).map fun (parts, rest) => (part :: parts, rest)
    | rest => some ([part], rest)

/-- A comment ends before the line break. -/
def skipComment? (chars : List Char) : Option (List Char) :=
  match chars with
  | '#' :: rest =>
    match rest.dropWhile Quoted.isPlain with
    | [] => some []
    | '\n' :: rest => some ('\n' :: rest)
    | '\r' :: '\n' :: rest => some ('\r' :: '\n' :: rest)
    | _ => none
  | chars => some chars

/-- The end of a line: blanks, a comment, and a line break or the end of the text. -/
def endLine? (chars : List Char) : Option (List Char) := do
  match ← skipComment? (skipBlanks chars) with
  | [] => some []
  | rest => Quoted.dropNewline? rest

/-- Blanks, comments and line breaks. -/
def skipLines? : (rounds : Nat) → List Char → Option (List Char)
  | 0, _ => none
  | rounds + 1, chars => do
    let rest ← skipComment? (skipBlanks chars)
    match Quoted.dropNewline? rest with
    | some rest => skipLines? rounds rest
    | none => some rest

/-- Arrays and inline tables are nested at most this deep, and a dotted key has at
most so many parts. -/
def depthLimit : Nat := 80

/-- Splits a dotted key into the tables it passes through and the last part. -/
def splitKey? (parts : List String) : Option (List String × String) :=
  if parts.length ≤ depthLimit then parts.getLast?.map fun last => (parts.dropLast, last)
  else none

/-- What may stand around the parts of an entry: blanks, and inside braces also
comments and line breaks. -/
def skipGap? (inline : Bool) (chars : List Char) : Option (List Char) :=
  if inline then skipLines? (chars.length + 1) chars else some (skipBlanks chars)

mutual

/-- The value at the front of the characters; it may be nested as deep as `depth`. -/
def value? : (rounds depth : Nat) → List Char → Option (Toml × List Char)
  | 0, _, _ => none
  | rounds + 1, depth, chars =>
    match chars with
    | '"' :: _ | '\'' :: _ => (Quoted.parse? chars).map fun (s, rest) => (.text s, rest)
    | '[' :: rest =>
      match depth with
      | 0 => none
      | depth + 1 => (items? rounds depth rest).map fun (vs, rest) => (.array vs, rest)
    | '{' :: rest =>
      match depth with
      | 0 => none
      | depth + 1 =>
        (fields? rounds depth (Table.empty .header) rest).map fun (t, rest) => (t.toToml, rest)
    | chars => Scalar.parse? chars

/-- The items of an array up to its bracket; a comma may follow the last one. -/
def items? : (rounds depth : Nat) → List Char → Option (List Toml × List Char)
  | 0, _, _ => none
  | rounds + 1, depth, chars => do
    match ← skipLines? (chars.length + 1) chars with
    | ']' :: rest => some ([], rest)
    | chars =>
      let (v, rest) ← value? rounds depth chars
      match ← skipLines? (rest.length + 1) rest with
      | ',' :: rest => (items? rounds depth rest).map fun (vs, rest) => (v :: vs, rest)
      | ']' :: rest => some ([v], rest)
      | _ => none

/-- The entries of an inline table up to its brace; a comma may follow the last one. -/
def fields? : (rounds depth : Nat) → Table → List Char → Option (Table × List Char)
  | 0, _, _, _ => none
  | rounds + 1, depth, t, chars => do
    match ← skipGap? true chars with
    | '}' :: rest => some (t, rest)
    | chars =>
      let (path, key, v, rest) ← keyValue? rounds depth true chars
      let t ← t.insertAt? path key v
      match ← skipGap? true rest with
      | ',' :: rest => fields? rounds depth t rest
      | '}' :: rest => some (t, rest)
      | _ => none

/-- A key, an equals sign and a value. -/
def keyValue? : (rounds depth : Nat) → (inline : Bool) → List Char →
    Option (List String × String × Toml × List Char)
  | 0, _, _, _ => none
  | rounds + 1, depth, inline, chars => do
    let (parts, rest) ← key? (chars.length + 1) chars
    let (path, key) ← splitKey? parts
    match ← skipGap? inline rest with
    | '=' :: rest =>
      let (v, rest) ← value? rounds depth (← skipGap? inline rest)
      return (path, key, v, rest)
    | _ => none

end

/-- The document so far, and the path of the table that was opened last. -/
structure Assembly where
  root : Table := .empty .header
  current : List String := []

/-- The path of a header up to its brackets. -/
def header? (close chars : List Char) : Option (List String × String × List Char) := do
  let (parts, rest) ← key? (chars.length + 1) chars
  let (path, key) ← splitKey? parts
  if rest.take close.length = close then some (path, key, rest.drop close.length) else none

/-- Reads a line that is not empty, and gives what follows it on the line. -/
def line? (rounds : Nat) (a : Assembly) (chars : List Char) : Option (Assembly × List Char) :=
  match chars with
  | '[' :: '[' :: rest => do
    let (path, key, rest) ← header? [']', ']'] rest
    let root ← a.root.update? false (Table.openTables? key) path
    return ({ root, current := path ++ [key] }, rest)
  | '[' :: rest => do
    let (path, key, rest) ← header? [']'] rest
    let root ← a.root.update? false (Table.openTable? key) path
    return ({ root, current := path ++ [key] }, rest)
  | chars => do
    let (path, key, v, rest) ← keyValue? rounds depthLimit false chars
    let root ← a.root.update? false (Table.insertAt? path key v) a.current
    return ({ a with root }, rest)

/-- Reads lines until the text ends. Each round reads one. -/
def lines? : (rounds : Nat) → Assembly → List Char → Option Assembly
  | 0, _, _ => none
  | rounds + 1, a, chars => do
    match ← skipLines? (chars.length + 1) chars with
    | [] => some a
    | chars =>
      let (a, rest) ← line? (2 * chars.length + 2) a chars
      lines? rounds a (← endLine? rest)

/-- The document that a text holds; a byte order mark may come first. -/
def parse? (text : String) : Option Toml :=
  let chars := match text.toList with
    | '\ufeff' :: rest => rest
    | chars => chars
  (lines? (chars.length + 1) {} chars).map fun a => a.root.toToml

end TokenGame.Toml
