import ProviderScout.Http.Response

/-!
What can be asked over HTTP. Paths are compared as they are written; the name of a job is the only
part that is decoded.
-/

namespace ProviderScout.Api

/-- A file of the pages for browsing the interface. -/
structure Page where
  name : String
  mediaType : String

/-- What a path leads to. -/
inductive Route where
  /-- Usage within a window. -/
  | statistics
  /-- What was learnt for a job, by its name as it stands in the path. -/
  | job (segment : String)
  | benchmarks
  | health
  | document
  /-- The directory of the pages without the slash at its end. -/
  | pages
  /-- A file of the pages, by its name as it stands in the path. -/
  | page (tail : String)

namespace Page

def all : List Page := [
  ⟨"index.html", "text/html"⟩, ⟨"oauth2-redirect.html", "text/html"⟩,
  ⟨"index.css", "text/css"⟩, ⟨"swagger-ui.css", "text/css"⟩,
  ⟨"swagger-initializer.js", "text/javascript"⟩, ⟨"swagger-ui.js", "text/javascript"⟩,
  ⟨"swagger-ui-bundle.js", "text/javascript"⟩,
  ⟨"swagger-ui-standalone-preset.js", "text/javascript"⟩,
  ⟨"swagger-ui-es-bundle.js", "text/javascript"⟩,
  ⟨"swagger-ui-es-bundle-core.js", "text/javascript"⟩,
  ⟨"swagger-ui.css.map", "text/plain"⟩, ⟨"swagger-ui.js.map", "text/plain"⟩,
  ⟨"swagger-ui-bundle.js.map", "text/plain"⟩,
  ⟨"swagger-ui-standalone-preset.js.map", "text/plain"⟩,
  ⟨"swagger-ui-es-bundle.js.map", "text/plain"⟩,
  ⟨"swagger-ui-es-bundle-core.js.map", "text/plain"⟩,
  ⟨"favicon-16x16.png", "image/png"⟩, ⟨"favicon-32x32.png", "image/png"⟩]

/-- The page with a name. No name, a slash or bytes that are no text stand for the first one. -/
def ofName? (name : Option String) : Option Page :=
  let name := match name with
    | none | some "" | some "/" => "index.html"
    | some name => name
  all.find? fun p => p.name == name

end Page

namespace Route

def jobsPath : String := "/provider-stats/jobs/"

def pagesPath : String := "/swagger-ui/"

/-- What follows the beginning of a path, if the path begins so. -/
def below? (start path : String) : Option String :=
  if start.toList.isPrefixOf path.toList then
    some (String.ofList (path.toList.drop start.length))
  else none

/-- The name of a job at the end of a path: one part that is not empty. -/
def jobSegment? (path : String) : Option String :=
  (below? jobsPath path).filter fun name => name != "" && !name.toList.contains '/'

/-- What a path leads to, without the pages. -/
def ofPlainPath? (path : String) : Option Route :=
  match path with
  | "/provider-stats" => some statistics
  | "/provider-stats/benchmarks/refresh" => some benchmarks
  | "/health" => some health
  | "/openapi.json" => some document
  | _ => (jobSegment? path).map job

/-- What a path leads to, if anything. The pages and the document beside them are there only if they
are wanted. -/
def ofPath? (withPages : Bool) (path : String) : Option Route :=
  match ofPlainPath? path with
  | some r => some r
  | none =>
    if !withPages then none
    else match path with
      | "/swagger-ui" => some pages
      | "/api/v1/openapi.json" => some document
      | _ => (below? pagesPath path).map page

def methods : Route → List String
  | statistics => ["GET", "HEAD", "DELETE"]
  | benchmarks => ["POST"]
  | _ => ["GET", "HEAD"]

def allow (r : Route) : String × String := ("allow", ",".intercalate r.methods)

end Route

end ProviderScout.Api
