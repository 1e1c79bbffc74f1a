import ProviderScout.Http.Target

namespace ProviderScout.Http

/-- A request. Names of headers are in lower case. -/
structure Request where
  method : String
  target : Target
  headers : List (String × String)

namespace Request

def isTokenChar (c : Char) : Bool := c.isAlphanum || "!#$%&'*+-.^_`|~".toList.contains c

def isToken (s : String) : Bool := !s.isEmpty && s.toList.all isTokenChar

/-- Whether a text is the value of a header: it holds no control character but the tab. -/
def isHeaderValue (s : String) : Bool :=
  s.toList.all fun c => c == '\t' || ' ' ≤ c && c.toNat != 127

/-- Puts a request together, if its parts are well formed. -/
def ofParts? (method target : String) (headers : List (String × String)) : Option Request :=
  if isToken method && headers.all fun h => isToken h.1 && isHeaderValue h.2 then
    (Target.ofText? target).map fun t =>
      ⟨method, t, headers.map fun h => (String.ofList (h.1.toList.map Char.toLower), h.2)⟩
  else none

def header? (r : Request) (name : String) : Option String :=
  (r.headers.find? fun h => h.1 == name).map (·.2)

end Request

end ProviderScout.Http
