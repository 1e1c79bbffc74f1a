import ProviderScout.Api.Answer
import ProviderScout.Proofs.Text.Escapes

namespace ProviderScout.Api

namespace Route

end Route

section

variable {σ : Type} [ModelStore σ] {r : Http.Request}

/-- A request that only reads is answered with what is read, and leaves the service as it is. -/
theorem answer_of_get {s : Service σ} {route : Route} (hmethod : r.method = "GET")
    (hroute : Route.ofPath? s.config.api.swaggerUi r.target.path = some route)
    (hallowed : "GET" ∈ route.methods) (now : Instant) :
    (answer r now s).1.map (fun a => (a.status, a.body)) =
        (read route r now s).map (fun a => (a.status, a.body)) ∧
      (answer r now s).2 = s := by
  have hdispatch : dispatch r now s = (read route r now s, s) := by
    rw [dispatch, hroute]
    dsimp only
    rw [hmethod, if_pos (List.contains_iff_mem.2 hallowed), perform.eq_def, hmethod]
    rfl
  rw [answer]
  split
  · rw [hmethod, if_neg (by decide), hdispatch]
    exact ⟨Option.map_map .., rfl⟩
  · rw [hdispatch]
    exact ⟨rfl, rfl⟩

end

end ProviderScout.Api
