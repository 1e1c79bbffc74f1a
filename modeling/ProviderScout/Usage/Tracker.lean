import ProviderScout.Usage.Event

/-!
The queue between those who report operations and the one who stores them. Reporting never waits and
never fails; what is reported to a closed queue is lost.
-/

namespace ProviderScout

/-- Events that wait to be stored, oldest first. -/
structure EventQueue where
  waiting : List UsageEvent
  isOpen : Bool

namespace EventQueue

def empty : EventQueue := ⟨[], true⟩

instance : Inhabited EventQueue := ⟨empty⟩

def send (e : UsageEvent) (q : EventQueue) : EventQueue :=
  if q.isOpen then { q with waiting := q.waiting ++ [e] } else q

/-- Refuses events from now on. Those that wait can still be taken. -/
def close (q : EventQueue) : EventQueue := { q with isOpen := false }

/-- Throws away what waits and refuses events from now on. -/
def discard (_ : EventQueue) : EventQueue := ⟨[], false⟩

def receive? (q : EventQueue) : Option (UsageEvent × EventQueue) :=
  match q.waiting with
  | [] => none
  | e :: rest => some (e, { q with waiting := rest })

/-- Reports an operation, if tracking is enabled. -/
def track (enabled : Bool) (e : UsageEvent) (q : EventQueue) : EventQueue :=
  if enabled then q.send e else q

end EventQueue

end ProviderScout
