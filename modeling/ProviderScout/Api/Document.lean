import ProviderScout.Api.JobReport
import ProviderScout.Error.Report
import ProviderScout.Http.Document
import ProviderScout.Statistics.Bucket

namespace ProviderScout.Api

def version : String := "0.1.0"

def statisticsTag : Http.Described where
  name := "provider-stats"
  description := "Provider statistics - Usage windows, per-job affinity and resets"

def systemTag : Http.Described where
  name := "system"
  description := "System endpoints - Health checks and OpenAPI spec"

def refreshFieldNames : List String := ["providers", "max_speed_mbps"]

def operations : List Http.Operation := [
  ⟨"/api/v1/provider-stats", "get", statisticsTag.name, "get_provider_stats",
    [⟨"hours", "query", false⟩], [200]⟩,
  ⟨"/api/v1/provider-stats", "delete", statisticsTag.name, "reset_provider_stats",
    [⟨"job", "query", false⟩], [200, 500, 503]⟩,
  ⟨"/api/v1/provider-stats/jobs/\x7bjob\x7d", "get", statisticsTag.name, "get_job_affinity",
    [⟨"job", "path", true⟩], [200, 404]⟩,
  ⟨"/api/v1/provider-stats/benchmarks/refresh", "post", statisticsTag.name, "refresh_benchmarks",
    [], [200, 500]⟩,
  ⟨"/api/v1/health", "get", systemTag.name, "health_check", [], [200]⟩,
  ⟨"/api/v1/openapi.json", "get", systemTag.name, "openapi_spec", [], [200]⟩]

/-- The kinds of values that are asked with and answered. -/
def schemas : List Http.Schema := [
  .ofNames "UsageType" (UsageKind.all.map UsageKind.name),
  .ofFields "ProviderPerformance" PerformanceReport.fieldNames,
  .ofFields "BenchmarkSpeed" BenchmarkSpeed.fieldNames,
  .ofFields "ProviderUsageSummary" UsageSummary.fieldNames,
  .ofFields "ProviderStatsBucket" StatsBucket.fieldNames,
  .ofFields "ScoredProvider" Scored.fieldNames,
  .ofNames "ProviderType" (Role.all.map Role.name),
  ⟨"ProviderStatsQuery", ["hours"], [], none⟩,
  ⟨"ResetStatsQuery", ["job"], [], none⟩,
  .ofFields "ResetStatsResponse" ["deleted"],
  .ofFields "JobAffinityResponse" JobReport.fieldNames,
  .ofFields "BenchmarkRefreshResponse" refreshFieldNames,
  .ofFields "ApiError" ErrorReport.outerFieldNames,
  ⟨"ErrorDetail", ErrorReport.fieldNames, ["code", "message"], none⟩]

def document : Http.Document where
  title := "usenet-affinity REST API"
  version := version
  description := "Provider usage statistics and per-job provider affinity diagnostics"
  contact := "usenet-affinity contributors"
  licence := "MIT OR Apache-2.0"
  servers := [⟨"http://localhost:6790/api/v1", "Local development server"⟩]
  operations := operations
  schemas := schemas
  tags := [statisticsTag, systemTag]

end ProviderScout.Api
