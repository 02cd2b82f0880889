/-! Request targets. A target is a path with or without a query, a star, an authority
alone, or an address with a scheme and an authority before the path. Requests are
routed by the path; the other parts only have to be well formed. -/
namespace TokenGame.Http.Target

/-- Targets are at most this long, in bytes. -/
def maxLength : Nat := 65534

def maxSchemeLength : Nat := 64

def isSchemeChar (c : Char) : Bool := c.isAlphanum || "+-.~".toList.contains c

/-- Characters of an authority, apart from the percent sign. -/
def isAuthorityChar (c : Char) : Bool := c.isAlphanum || "!$&'()*+,-.:;=@[]_~".toList.contains c

/-- Blanks and control characters of ASCII are not visible. -/
def isVisible (c : Char) : Bool := 0x21 ≤ c.toNat && c.toNat != 0x7f

/-- A path may hold every visible character but angle brackets and the backtick;
number sign and question mark end it. -/
def isPathChar (c : Char) : Bool := isVisible c && !"#<>?`".toList.contains c

/-- A query may hold every visible character but angle brackets and double quotes; a
number sign ends it. -/
def isQueryChar (c : Char) : Bool := isVisible c && !"\"#<>".toList.contains c

def endsAuthority (c : Char) : Bool := c = '/' || c = '?' || c = '#'

/-- What has been seen of an authority. User data before an at sign may hold colons
and percent signs, and so may an address in brackets. -/
structure Authority where
  colons : Nat := 0
  opened : Bool := false
  closed : Bool := false
  percent : Bool := false
  /-- The last character is an at sign. -/
  atSign : Bool := false
  deriving DecidableEq, Repr

namespace Authority

def step? (a : Authority) (c : Char) : Option Authority :=
  if c = ':' then
    if a.colons < 8 then some { a with colons := a.colons + 1, atSign := false } else none
  else if c = '[' then
    if a.percent || a.opened then none else some { a with opened := true, atSign := false }
  else if c = ']' then
    if a.opened && !a.closed then
      some { a with closed := true, colons := 0, percent := false, atSign := false }
    else none
  else if c = '@' then some { a with colons := 0, percent := false, atSign := true }
  else if c = '%' then some { a with percent := true, atSign := false }
  else if isAuthorityChar c then some { a with atSign := false }
  else none

/-- Whether the authority may end here. Outside user data and brackets it has at most
one colon. -/
def isComplete (a : Authority) : Bool :=
  a.opened = a.closed && a.colons ≤ 1 && !a.atSign && !a.percent

def isValid (chars : List Char) : Bool := ((chars.foldlM step? {}).map isComplete).getD false

end Authority

/-- The path of a path with an optional query and fragment. -/
def plainPath? (chars : List Char) : Option (List Char) :=
  let (path, rest) := chars.span fun c => c != '?' && c != '#'
  let query := match rest with
    | '?' :: rest => rest.takeWhile (· != '#')
    | _ => []
  if path.all isPathChar && query.all isQueryChar then some path else none

/-- The path of an address, after its scheme. A path that is left out is the root. -/
def addressPath? (chars : List Char) : Option (List Char) := do
  let (authority, rest) := chars.span fun c => !endsAuthority c
  if authority.isEmpty || !Authority.isValid authority then none
  match ← plainPath? rest with
  | [] => some ['/']
  | path => some path

/-- The path by which a target is routed, if the target is well formed. An authority
alone has an empty path. -/
def path? (target : String) : Option String :=
  if maxLength < target.utf8ByteSize then none
  else
    match target.toList with
    | [] => none
    | ['*'] => some "*"
    | '/' :: rest => (plainPath? ('/' :: rest)).map String.ofList
    | chars =>
      match chars.span isSchemeChar with
      | (scheme, ':' :: '/' :: '/' :: rest) =>
        if maxSchemeLength < scheme.length then none else (addressPath? rest).map String.ofList
      | _ =>
        if chars.any endsAuthority || !Authority.isValid chars then none else some ""

end TokenGame.Http.Target
