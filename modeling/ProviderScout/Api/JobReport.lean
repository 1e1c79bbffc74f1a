import ProviderScout.Engine.Basic

namespace ProviderScout

/-- What was learnt for a job. -/
structure JobReport where
  job : String
  /-- The performance of each provider, by index. -/
  providers : List PerformanceReport
  /-- The providers that fail the job too often, by index. -/
  lowSuccess : List Nat
  /-- The providers that are known well enough, best first. -/
  ranking : List (Scored Float)

namespace JobReport

/-- The samples from which on a provider can count as failing too often. -/
def lowSuccessSamples : Nat := 10

def lowSuccessRate : Float := 30.0

def fieldNames : List String :=
  ["job_name", "providers", "low_success_rate_providers", "ranking"]

def toJson (r : JobReport) : Json :=
  .object [
    ("job_name", .string r.job),
    ("providers", .array (r.providers.map PerformanceReport.toJson)),
    ("low_success_rate_providers", .ofNats r.lowSuccess),
    ("ranking", .array (r.ranking.map Scored.toJson))]

end JobReport

/-- What was learnt for a job, if anything. `total` is how many providers there are. There is no
answer if the providers cannot be ranked. -/
def Engine.jobReport? (e : Engine) (job : String) (total : Nat) : Option (Option JobReport) :=
  let reports := e.jobReports job
  if reports.isEmpty then some none
  else (e.ranking job total).map fun ranking => some {
    job := job
    providers := reports
    lowSuccess := e.lowSuccess job JobReport.lowSuccessSamples JobReport.lowSuccessRate
    ranking := ranking }

end ProviderScout
