import ProviderScout.Http.Document
import ProviderScout.Json.Basic

namespace ProviderScout.Http

/-- The content of an answer. -/
inductive Body where
  | empty
  | json (v : Json)
  | text (s : String)
  /-- The description of an interface, in JSON. -/
  | document (d : Document)
  /-- A page or script whose content is not this library's. -/
  | asset

/-- An answer to a request. Names of headers are in lower case. -/
structure Response where
  status : Nat
  headers : List (String × String)
  body : Body

namespace Response

def json (status : Nat) (v : Json) : Response :=
  ⟨status, [("content-type", "application/json")], .json v⟩

def document (d : Document) : Response :=
  ⟨200, [("content-type", "application/json")], .document d⟩

def text (status : Nat) (s : String) : Response :=
  ⟨status, [("content-type", "text/plain; charset=utf-8")], .text s⟩

def empty (status : Nat) : Response := ⟨status, [], .empty⟩

def header? (r : Response) (name : String) : Option String :=
  (r.headers.find? fun h => h.1 == name).map (·.2)

def withHeaders (r : Response) (headers : List (String × String)) : Response :=
  { r with headers := r.headers ++ headers }

def withoutBody (r : Response) : Response := { r with body := .empty }

end Response

end ProviderScout.Http
