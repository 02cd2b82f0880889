import TokenGame.Ron.Basic
import TokenGame.Text.Quoted

/-! Writing RON texts with one item to a line. -/
namespace TokenGame.Ron

def indent (depth : Nat) : String := String.ofList (List.replicate (4 * depth) ' ')

def nameText (name : Option String) : String := name.getD ""

/-- Both kinds of quotes are written with a backslash. -/
def escapeChar (c : Char) : List Char := if c = '\'' then ['\\', '\''] else Quoted.escapeChar c

def quote (s : String) : String := String.ofList ('"' :: s.toList.flatMap escapeChar ++ ['"'])

mutual

def prettyAt (depth : Nat) : Ron → String
  | .bool b => if b then "true" else "false"
  | .number lexeme => lexeme
  | .char c => String.ofList ('\'' :: escapeChar c ++ ['\''])
  | .text s => quote s
  | .bytes b => "b" ++ quote (String.ofList (b.map Char.ofNat))
  | .option none => "None"
  | .option (some v) => "Some(" ++ prettyAt depth v ++ ")"
  | .shared content _ => "Some" ++ prettyAt depth content
  | .unit n => n
  | .list [] => "[]"
  | .list (v :: rest) => "[\n" ++ prettyItems (depth + 1) (v :: rest) ++ indent depth ++ "]"
  | .map [] => "\x7b\x7d"
  | .map (e :: rest) =>
    "\x7b\n" ++ prettyEntries (depth + 1) (e :: rest) ++ indent depth ++ "\x7d"
  | .tuple name [] => nameText name ++ "()"
  | .tuple name (v :: rest) =>
    nameText name ++ "(\n" ++ prettyItems (depth + 1) (v :: rest) ++ indent depth ++ ")"
  | .struct name [] => nameText name ++ "()"
  | .struct name (f :: rest) =>
    nameText name ++ "(\n" ++ prettyFields (depth + 1) (f :: rest) ++ indent depth ++ ")"

def prettyItems (depth : Nat) : List Ron → String
  | [] => ""
  | v :: rest => indent depth ++ prettyAt depth v ++ ",\n" ++ prettyItems depth rest

def prettyEntries (depth : Nat) : List (Ron × Ron) → String
  | [] => ""
  | (k, v) :: rest =>
    indent depth ++ prettyAt depth k ++ ": " ++ prettyAt depth v ++ ",\n" ++
      prettyEntries depth rest

def prettyFields (depth : Nat) : List (String × Ron) → String
  | [] => ""
  | (n, v) :: rest =>
    indent depth ++ n ++ ": " ++ prettyAt depth v ++ ",\n" ++ prettyFields depth rest

end

def pretty (v : Ron) : String := prettyAt 0 v

end TokenGame.Ron
