import ProviderScout.Text.Percent

namespace ProviderScout.Http

/-- The path and the query of a request. -/
structure Target where
  path : String
  /-- What follows the question mark, empty if there is none. -/
  query : String
deriving DecidableEq

namespace Target

def maxLength : Nat := 65534

def maxSchemeLength : Nat := 64

def maxColons : Nat := 8

def isQueryChar (c : Char) : Bool :=
  '!' ≤ c && !(c == '"' || c == '#' || c == '<' || c == '>' || c == '\x7f')

def isPathChar (c : Char) : Bool :=
  isQueryChar c && c != '?' && c.toNat != 0x60 || c == '"'

def isSchemeChar (c : Char) : Bool :=
  c.isAlphanum || c == '+' || c == '-' || c == '.' || c == '~'

def endsAuthority (c : Char) : Bool := c == '/' || c == '?' || c == '#'

def isAuthorityChar (c : Char) : Bool := c.isAlphanum || "!$%&'()*+,-.:;=@[]_~".toList.contains c

/-- What has been seen of an authority, apart from what belongs to the name of a user or stands in
brackets. -/
structure AuthorityState where
  colons : Nat
  escaped : Bool
  opened : Bool
  closed : Bool

/-- Goes on to the next character of an authority. -/
def AuthorityState.next (s : AuthorityState) (c : Char) : Option AuthorityState :=
  if !isAuthorityChar c then none
  else match c with
    | ':' => if s.colons < maxColons then some { s with colons := s.colons + 1 } else none
    | '[' => if s.escaped || s.opened then none else some { s with opened := true }
    | ']' =>
      if s.opened && !s.closed then some { s with closed := true, colons := 0, escaped := false }
      else none
    | '@' => some { s with colons := 0, escaped := false }
    | '%' => some { s with escaped := true }
    | _ => some s

/-- Whether a text names a server, with or without a user and a port. -/
def isAuthority (cs : List Char) : Bool :=
  match cs.foldlM AuthorityState.next ⟨0, false, false, false⟩ with
  | none => false
  | some s => s.opened == s.closed && s.colons ≤ 1 && !s.escaped && cs.getLast? != some '@'

/-- Reads a path with a query. An empty path is that to the root. -/
def ofPath? (cs : List Char) : Option Target :=
  let cs := cs.takeWhile (· != '#')
  let path := cs.takeWhile (· != '?')
  let query := (cs.dropWhile (· != '?')).drop 1
  if path.all isPathChar && query.all isQueryChar then
    some ⟨if path.isEmpty then "/" else String.ofList path, String.ofList query⟩
  else none

/-- Splits off a scheme. A text without one stays whole; a scheme that is too long is refused. -/
def afterScheme? (cs : List Char) : Option (Bool × List Char) :=
  let scheme := cs.takeWhile isSchemeChar
  match cs.drop scheme.length with
  | ':' :: '/' :: '/' :: rest =>
    if scheme.length ≤ maxSchemeLength then some (true, rest) else none
  | _ => some (false, cs)

/-- Reads a target that does not begin with its path. -/
def ofAddress? (cs : List Char) : Option Target := do
  let (hasScheme, rest) ← afterScheme? cs
  let authority := rest.takeWhile fun c => !endsAuthority c
  if authority.isEmpty || !isAuthority authority then none
  else if hasScheme then ofPath? (rest.drop authority.length)
  else if authority.length == rest.length then some ⟨"", ""⟩
  else none

def ofText? (s : String) : Option Target :=
  if s.utf8ByteSize > maxLength then none
  else if s == "*" then some ⟨"*", ""⟩
  else match s.toList with
    | '/' :: rest => ofPath? ('/' :: rest)
    | cs => ofAddress? cs

/-- The names and values of the query. -/
def parameters (t : Target) : List (String × String) := Text.formFields t.query

end Target

end ProviderScout.Http
