import TokenGame.Json.Token

/-! Reading JSON texts. A text holds one document; only blanks may stand around it. -/
namespace TokenGame.Json

/-! The parsers take a bound on their nesting, counted in calls, and give the
document at the front of the tokens together with the tokens after it. -/

mutual

def parseValue : (bound : Nat) → List Token → Option (Json × List Token)
  | 0, _ => none
  | _ + 1, .scalar v :: rest => some (v, rest)
  | _ + 1, .text t :: rest => some (.text t, rest)
  | _ + 1, .openBracket :: .closeBracket :: rest => some (.list [], rest)
  | _ + 1, .openBrace :: .closeBrace :: rest => some (.object [], rest)
  | bound + 1, .openBracket :: rest =>
    (parseItems bound rest).map fun (items, rest) => (.list items, rest)
  | bound + 1, .openBrace :: rest =>
    (parseFields bound rest).map fun (fields, rest) => (.object fields, rest)
  | _ + 1, _ => none

/-- One or more values up to the closing bracket. -/
def parseItems : (bound : Nat) → List Token → Option (List Json × List Token)
  | 0, _ => none
  | bound + 1, tokens =>
    match parseValue bound tokens with
    | some (v, .closeBracket :: rest) => some ([v], rest)
    | some (v, .comma :: rest) =>
      (parseItems bound rest).map fun (items, rest) => (v :: items, rest)
    | _ => none

/-- One or more named values up to the closing brace. -/
def parseFields : (bound : Nat) → List Token → Option (List (Option String × Json) × List Token)
  | 0, _ => none
  | bound + 1, .text key :: .colon :: tokens =>
    match parseValue bound tokens with
    | some (v, .closeBrace :: rest) => some ([(key, v)], rest)
    | some (v, .comma :: rest) =>
      (parseFields bound rest).map fun (fields, rest) => ((key, v) :: fields, rest)
    | _ => none
  | _ + 1, _ => none

end

/-- The document that a text holds. Every two calls use up a token. -/
def parse? (text : String) : Option Json := do
  let tokens ← Token.scan? text
  match ← parseValue (2 * tokens.length + 1) tokens with
  | (v, []) => some v
  | _ => none

end TokenGame.Json
