import ProviderScout.Http.Request
import ProviderScout.Http.Response

namespace ProviderScout.Http

/-- The origins whose pages may read answers. -/
inductive Origins where
  | any
  | only (origins : List String)

namespace Origins

/-- The origins of a list. An empty list and one with `*` stand for all; a text that cannot be the
value of a header is none. -/
def ofList (origins : List String) : Origins :=
  if origins.isEmpty || origins.contains "*" then .any
  else .only (origins.filter Request.isHeaderValue)

def allowed? (o : Origins) (r : Request) : Option String :=
  match o with
  | any => some "*"
  | only origins => (r.header? "origin").filter origins.contains

def varying : String := "origin, access-control-request-method, access-control-request-headers"

/-- The headers that every answer to a request has. -/
def headers (o : Origins) (r : Request) : List (String × String) :=
  let allowed := match o.allowed? r with
    | none => []
    | some origin => [("access-control-allow-origin", origin)]
  ("vary", varying) :: allowed

/-- The headers that allow a request of any kind. -/
def permissions : List (String × String) :=
  [("access-control-allow-methods", "*"), ("access-control-allow-headers", "*")]

end Origins

end ProviderScout.Http
