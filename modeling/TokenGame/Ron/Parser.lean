import TokenGame.Ron.Lookahead

/-! Reading RON texts. A text may switch on extensions and then holds one document.
Containers may be nested to a limited depth. -/
namespace TokenGame.Ron

/-- A parser gives the value at the front of the tokens and the tokens after it. -/
abbrev Parser (α : Type) := List Token → Option (α × List Token)

/-- Items up to a closing mark, with commas between them; a comma may follow the
last one. No more rounds are needed than there are tokens. -/
def separated (item : Parser α) (close : Char) : (rounds : Nat) → Parser (List α)
  | 0, _ => none
  | rounds + 1, tokens =>
    match tokens with
    | .mark c :: rest =>
      if c = close then some ([], rest) else next rounds (item tokens)
    | tokens => next rounds (item tokens)
where
  /-- What may follow an item. -/
  next (rounds : Nat) : Option (α × List Token) → Option (List α × List Token)
    | some (a, .mark c :: rest) =>
      if c = ',' then (separated item close rounds rest).map fun (items, rest) => (a :: items, rest)
      else if c = close then some ([a], rest)
      else none
    | _ => none

def items (item : Parser α) (close : Char) : Parser (List α) := fun tokens =>
  separated item close (tokens.length + 1) tokens

/-- A name, a colon and a value. -/
def field (value : Parser α) : Parser (String × α)
  | .name n _ :: .mark ':' :: rest => (value rest).map fun (v, rest) => ((n, v), rest)
  | _ => none

/-- Two values with a colon between them. -/
def entry (value : Parser α) : Parser (α × α) := fun tokens =>
  match value tokens with
  | some (key, .mark ':' :: rest) => (value rest).map fun (v, rest) => ((key, v), rest)
  | _ => none

/-- Fields or items up to a closing parenthesis. -/
def content (value : Parser Ron) (name : Option String) : Parser Ron
  | .name n raw :: .mark ':' :: rest =>
    (items (field value) ')' (.name n raw :: .mark ':' :: rest)).map fun (fields, rest) =>
      (.struct name fields, rest)
  | tokens => (items value ')' tokens).map fun (vs, rest) => (.tuple name vs, rest)

/-- What follows the name of a structure, or stands for a nameless one. -/
def body (value : Parser Ron) (name : Option String) : Parser Ron
  | .unit :: rest => some (.tuple name [], rest)
  | .opening _ :: rest => content value name rest
  | _ => none

/-- The value inside `Some`, which may be followed by a comma. -/
def someBody (value : Parser Ron) : Parser Ron := fun tokens =>
  match value tokens with
  | some (v, .mark ')' :: rest) | some (v, .mark ',' :: .mark ')' :: rest) =>
    some (.option (some v), rest)
  | _ => none

/-- The values that hold no others. -/
def scalar : Parser Ron
  | .number lexeme :: rest => some (.number lexeme, rest)
  | .text s :: rest => some (.text s, rest)
  | .char c :: rest => some (.char c, rest)
  | .bytes b :: rest => some (.bytes b, rest)
  | .name "true" false :: rest => some (.bool true, rest)
  | .name "false" false :: rest => some (.bool false, rest)
  | .name "None" false :: rest => some (.option none, rest)
  | .name n false :: rest =>
    if Number.isFloat n.toList then some (.number n, rest) else none
  | _ => none

/-- The values that nest nothing: scalars, names that stand alone, and parentheses
right next to each other. -/
def leaf (tokens : List Token) : Option (Ron × List Token) :=
  match scalar tokens, tokens with
  | some result, _ => some result
  | none, .unit :: rest => some (.tuple none [], rest)
  | none, .name "Some" false :: _ => none
  | none, .name _ _ :: .opening _ :: _ | none, .name _ _ :: .unit :: _ => none
  | none, .name n _ :: rest => some (.unit n, rest)
  | none, _ => none

/-- What the parentheses of `Some` hold where it may lend them, and how that looks
from outside. -/
def sharedBody (value : Parser Ron) (held : Option Lookahead.Holding) : Parser Ron := fun tokens =>
  (content value none tokens).map fun (v, rest) => (.shared v (Lookahead.fits held v), rest)

/-- A value whose nesting fits a budget. A container takes one from it, and so do
`Some` and each value inside a container. -/
def value (e : Extensions) : (budget : Nat) → Parser Ron
  | 0, tokens => leaf tokens
  | budget + 1, tokens =>
    match leaf tokens with
    | some result => some result
    | none =>
      let inner : Parser Ron := match budget with
        | 0 => fun _ => none
        | budget + 1 => value e budget
      let shared (held : Option Lookahead.Holding) : Parser Ron := match held, budget with
        | some .fields, budget + 2 | some .several, budget + 2 => value e budget
        | some .fields, _ | some .several, _ => fun _ => none
        | _, budget => value e budget
      match tokens with
      | .name "Some" false :: .unit :: rest =>
        if e.mergedSome then some (.shared (.tuple none []) true, rest) else none
      | .name "Some" false :: .opening after :: rest =>
        if e.mergedSome then
          let held := Lookahead.holding? after
          sharedBody (shared held) held rest
        else someBody (value e budget) rest
      | .name "Some" false :: rest =>
        if e.implicitSome then
          (value e budget rest).map fun (v, rest) => (.option (some v), rest)
        else none
      | .name n _ :: rest => body inner (some n) rest
      | .opening after :: rest => body inner none (.opening after :: rest)
      | .mark '[' :: rest => (items inner ']' rest).map fun (vs, rest) => (.list vs, rest)
      | .mark '{' :: rest => (items (entry inner) '}' rest).map fun (es, rest) => (.map es, rest)
      | _ => none

/-- The names on an extension line, with commas between them. -/
def extensionNames (e : Extensions) : (rounds : Nat) → List Token → Option (Extensions × List Token)
  | 0, _ => none
  | rounds + 1, .name n _ :: rest => do
    let e ← e.enable? n
    match rest with
    | .mark ',' :: .mark ')' :: rest | .mark ')' :: rest => return (e, rest)
    | .mark ',' :: rest => extensionNames e rounds rest
    | _ => none
  | _ + 1, _ => none

/-- The extension lines at the front of a text. -/
def extensions (e : Extensions) : (rounds : Nat) → List Token → Option (Extensions × List Token)
  | 0, _ => none
  | rounds + 1, .mark '#' :: .mark '!' :: .mark '[' :: .name "enable" false :: .opening _ :: rest =>
    match extensionNames e rounds rest with
    | some (e, .mark ']' :: rest) => extensions e rounds rest
    | _ => none
  | _ + 1, tokens => some (e, tokens)

/-- How deep values may be nested. -/
def nestingBudget : Nat := 128

/-- The document that a text holds, and the extensions it was read under. -/
def parse? (text : String) : Option (Extensions × Ron) := do
  let tokens ← Token.scan? text
  let (e, tokens) ← extensions {} (tokens.length + 1) tokens
  match ← value e nestingBudget tokens with
  | (v, []) => some (e, v)
  | _ => none

end TokenGame.Ron
