import ProviderScout.Api.Document
import ProviderScout.Api.Route
import ProviderScout.Http.Origin
import ProviderScout.Service.Basic
import ProviderScout.Text.Blank

namespace ProviderScout.Api

/-- The window that is answered for when none is asked for, in hours. -/
def defaultWindow : Int64 := 24

/-- The window that a parameter asks for. A text that is no whole number stands for 0. -/
def windowHours : Option String → Int64
  | none => defaultWindow
  | some text => (Text.column? (Text.trim text.toList)).getD 0

/-- The value of a parameter that may be given once. -/
def parameter? (name : String) (parameters : List (String × String)) :
    Except Http.Response (Option String) :=
  match parameters.filter fun p => p.1 == name with
  | [] => .ok none
  | [p] => .ok (some p.2)
  | _ => .error (.text 400 ("Failed to deserialize query string: duplicate field `" ++ name ++ "`"))

variable {σ : Type}

/-- The usage within a window; without a bucket for it, none at all. -/
def bucket (hours : Int64) (now : Instant) (s : Service σ) : StatsBucket :=
  (s.aggregator.cached? hours).getD (.empty hours now)

def statistics (hours : Option String) (now : Instant) (s : Service σ) : Http.Response :=
  .json 200 (bucket (windowHours hours) now s).toJson

def job (name : String) (s : Service σ) : Option Http.Response :=
  (s.engine.jobReport? name s.config.providers.length).map fun
    | none => (Error.notFound ("provider stats for job " ++ name)).response
    | some r => .json 200 r.toJson

/-- The same for a name as it stands in the path. -/
def jobSegment (segment : String) (s : Service σ) : Option Http.Response :=
  match Text.ofBytes? (Text.unescape (Text.bytes segment)) with
  | none => some (.text 400 "Invalid URL: Invalid UTF-8 in `job`")
  | some name => job name s

def health (s : Service σ) : Http.Response :=
  .json 200 (.object [
    ("status", .string (if s.isShuttingDown then "shutting_down" else "ok")),
    ("version", .string version),
    ("affinity_enabled", .bool s.config.affinity.enabled),
    ("affinity_loaded", .bool s.engine.loaded),
    ("usage_tracking", .bool s.config.usage.enabled)])

/-- The answer to who asks for a page by its name as it stands in the path. -/
def page (tail : String) : Http.Response :=
  match Page.ofName? (Text.ofBytes? (Text.unescape (Text.bytes tail))) with
  | none => .empty 404
  | some p => ⟨200, [("content-type", p.mediaType)], .asset⟩

/-- The answer to a request that only reads. The route of the benchmarks cannot be read. -/
def read (route : Route) (r : Http.Request) (now : Instant) (s : Service σ) :
    Option Http.Response :=
  match route with
  | .statistics => match parameter? "hours" r.target.parameters with
    | .error answer => some answer
    | .ok hours => some (statistics hours now s)
  | .job segment => jobSegment segment s
  | .health => some (health s)
  | .document => some (.document document)
  | .pages => some ⟨303, [("location", Route.pagesPath)], .empty⟩
  | .page tail => some (page tail)
  | .benchmarks => some (.empty 405)

variable [ModelStore σ] [EventStore σ]

/-- Forgets a job, or all jobs, on request. A job without a name stands for all. -/
def forget (name : Option String) (s : Service σ) : Http.Response × Service σ :=
  if s.isShuttingDown then (Error.shuttingDown.response, s)
  else match s.reset (name.filter fun name => name != "") with
    | (.error e, s) => (e.response, s)
    | (.ok deleted, s) => (.json 200 (.object [("deleted", .int deleted)]), s)

def refreshBenchmarks (now : Instant) (s : Service σ) : Http.Response × Service σ :=
  match s.refreshBenchmarks now with
  | (.error e, s) => (e.response, s)
  | (.ok providers, s) =>
    (.json 200 (.object [
      ("providers", .ofNat providers),
      ("max_speed_mbps", .ofFloat s.engine.benchmarks.fastest)]), s)

def perform (route : Route) (r : Http.Request) (now : Instant) (s : Service σ) :
    Option Http.Response × Service σ :=
  match r.method with
  | "DELETE" => match parameter? "job" r.target.parameters with
    | .error answer => (some answer, s)
    | .ok name =>
      let (answer, s) := forget name s
      (some answer, s)
  | "POST" =>
    let (answer, s) := refreshBenchmarks now s
    (some answer, s)
  | "HEAD" => ((read route r now s).map Http.Response.withoutBody, s)
  | _ => (read route r now s, s)

def dispatch (r : Http.Request) (now : Instant) (s : Service σ) :
    Option Http.Response × Service σ :=
  match Route.ofPath? s.config.api.swaggerUi r.target.path with
  | none => (some (.empty 404), s)
  | some route =>
    if route.methods.contains r.method then perform route r now s
    else (some ((Http.Response.empty 405).withHeaders [route.allow]), s)

/-- The answer to a browser that asks whether a request is allowed. -/
def preflight (r : Http.Request) (s : Service σ) : Http.Response :=
  let allow := (Route.ofPath? s.config.api.swaggerUi r.target.path).map Route.allow
  (Http.Response.empty 200).withHeaders (Http.Origins.permissions ++ allow.toList)

/-- The answer to a request, if there is one, and the service afterwards. -/
def answer (r : Http.Request) (now : Instant) (s : Service σ) :
    Option Http.Response × Service σ :=
  if s.config.api.corsEnabled then
    let (a, s) := if r.method == "OPTIONS" then (some (preflight r s), s) else dispatch r now s
    (a.map fun a => a.withHeaders ((Http.Origins.ofList s.config.api.corsOrigins).headers r), s)
  else dispatch r now s

/-- How serving at an address ends once the service has stopped. It fails at once at an address that
someone else uses. -/
def serve (inUse : SocketAddress → Bool) (config : Config) : Except Error Unit :=
  if inUse config.api.bindAddress then
    .error (.io .addressInUse "Address already in use (os error 98)")
  else .ok ()

end ProviderScout.Api
