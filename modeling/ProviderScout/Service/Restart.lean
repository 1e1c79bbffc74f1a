import ProviderScout.Service.Basic
import ProviderScout.Store.Database

namespace ProviderScout.Service

/-- Stops the service, opens its database anew and starts with the same settings. Whether the last
save succeeds does not matter. -/
def restart (draw : Nat → Float) (now : Instant) (s : Service Database) :
    Except StartFault (Service Database) :=
  let (_, s) := s.shutDown now
  match Database.openSchema s.store.schema with
  | (.error e, _) => .error (.error e)
  | (.ok d, _) => (start s.config now d).map fun s => (s.setUpConsumer).loadPast draw now

end ProviderScout.Service
