import ProviderScout.Json.Record

namespace ProviderScout

/-- The part a provider plays in selection. -/
inductive Role where
  /-- Explored and preferred. -/
  | pooled
  /-- A backup that still collects statistics and may be preferred. -/
  | backupAndStats
  /-- A last resort, never selected. -/
  | backupOnly
deriving DecidableEq

namespace Role

instance : Inhabited Role := ⟨.pooled⟩

def all : List Role := [.pooled, .backupAndStats, .backupOnly]

/-- Whether selection may answer a provider of this role. -/
def isSelectable : Role → Bool
  | .pooled | .backupAndStats => true
  | .backupOnly => false

def name : Role → String
  | .pooled => "Pooled"
  | .backupAndStats => "BackupAndStats"
  | .backupOnly => "BackupOnly"

def ofName? (s : String) : Option Role := all.find? fun r => r.name == s

theorem ofName?_name (r : Role) : ofName? r.name = some r := by
  cases r <;> decide +kernel

def ofJson? : Json → Option Role := Json.choice? ofName?

def toJson (r : Role) : Json := .string r.name

end Role

end ProviderScout
