/-! Media types: a type, a subtype that may end in a suffix after a plus sign, and
parameters, which are checked for form only. Names are compared without regard to
case. -/
namespace TokenGame

structure MediaType where
  type : String
  subtype : String
  suffix : Option String
  deriving DecidableEq, Repr

namespace MediaType

def isTokenChar (c : Char) : Bool := c.isAlphanum || "!#$%&'*+-.^_`|~".toList.contains c

/-- Characters that may stand between quotes. -/
def isQuotedChar (c : Char) : Bool := 0x20 ≤ c.toNat && c.toNat < 0x7f

/-- A subtype up to the last plus sign, and the suffix after it. A plus sign at the
front begins no suffix. -/
def splitSuffix (chars : List Char) : List Char × Option (List Char) :=
  let suffix := (chars.reverse.takeWhile (· != '+')).reverse
  let stem := chars.take (chars.length - suffix.length - 1)
  if stem.isEmpty then (chars, none) else (stem, some suffix)

/-- What follows a text in quotes, after its opening quote. It holds a character
at least. -/
def skipQuoted? : List Char → Option (List Char)
  | c :: rest =>
    if isQuotedChar c then
      match rest.dropWhile fun c => c != '"' && isQuotedChar c with
      | '"' :: rest => some rest
      | _ => none
    else none
  | [] => none

/-- Whether a text is a list of parameters with semicolons between them. Each
round reads one parameter or blank. -/
def areParameters : (rounds : Nat) → List Char → Bool
  | 0, chars => chars.isEmpty
  | rounds + 1, chars =>
    match chars with
    | [] => true
    | ' ' :: rest => areParameters rounds rest
    | chars =>
      match chars.span isTokenChar with
      | (_ :: _, '=' :: '"' :: rest) =>
        match (skipQuoted? rest).map (·.dropWhile (· = ' ')) with
        | some [] => true
        | some (';' :: rest) => areParameters rounds rest
        | _ => false
      | (_ :: _, '=' :: rest) =>
        match rest.span isTokenChar with
        | (_, []) => true
        | (_ :: _, ';' :: rest) => areParameters rounds rest
        | _ => false
      | _ => false

def lower (chars : List Char) : String := String.ofList (chars.map Char.toLower)

def ofText? (text : String) : Option MediaType :=
  match text.toList.span isTokenChar with
  | (t :: type, '/' :: rest) =>
    let (name, rest) := rest.span isTokenChar
    let (subtype, suffix) := splitSuffix name
    let media := { type := lower (t :: type), subtype := lower subtype, suffix := suffix.map lower }
    match rest with
    | [] => some media
    | ';' :: rest =>
      if !name.isEmpty && areParameters rest.length rest then some media else none
    | _ => none
  | _ => none

def isJson (m : MediaType) : Bool :=
  m.type == "application" && (m.subtype == "json" || m.suffix == some "json")

end MediaType

end TokenGame
