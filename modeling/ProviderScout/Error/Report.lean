import ProviderScout.Error.Basic
import ProviderScout.Http.Response
import ProviderScout.Json.Embedded
import ProviderScout.Json.Record

namespace ProviderScout

/-- What a client is told of an error. -/
structure ErrorReport where
  code : String
  message : String
  details : Option Json

namespace ErrorReport

def ofError (e : Error) : ErrorReport where
  code := e.code
  message := e.message
  details := match e with
    | .config _ (some key) => some (.object [("key", .string key)])
    | _ => none

def notFound (resource : String) : ErrorReport := ⟨"not_found", resource ++ " not found", none⟩

def internal (message : String) : ErrorReport := ⟨"internal_error", message, none⟩

/-- A report is wrapped in an object with this one field. -/
def outerFieldNames : List String := ["error"]

def fieldNames : List String := ["code", "message", "details"]

def toJson (r : ErrorReport) : Json :=
  let details := match r.details with
    | none => []
    | some v => [("details", v)]
  let fields := [("code", .string r.code), ("message", .string r.message)] ++ details
  .object [("error", .object fields)]

/-- How deep the details of a report may nest: two levels less than a whole text. -/
def detailsDepth : Nat := 125

/-- Details are taken over whole, with the fields of objects in order; null stands for none. `mark`
is the name that marks an object as standing for the JSON text that it holds. -/
def details? (mark : String) (v : Json) : Option Json :=
  if v.isWhole detailsDepth then (v.settled? mark).map Json.sorted else none

def ofJson? (mark : String) (v : Json) : Option ErrorReport := do
  let outer ← Record.ofJson? outerFieldNames v
  let r ← (outer.slot "error").required (Record.ofJson? fieldNames)
  return {
    code := ← (r.slot "code").required Json.string?
    message := ← (r.slot "message").required Json.string?
    details := ← (r.slot "details").optional (details? mark) }

/-- The answer to a request that ends with this report and says nothing of a status. -/
def response (r : ErrorReport) : Http.Response := .json 500 r.toJson

end ErrorReport

/-- The answer to a request that failed. -/
def Error.response (e : Error) : Http.Response := .json e.status (ErrorReport.ofError e).toJson

end ProviderScout
