namespace ProviderScout

/-- What went wrong in an operation of the system on files or sockets. -/
inductive IoKind where
  | notFound | permissionDenied | connectionRefused | connectionReset | hostUnreachable
  | networkUnreachable | connectionAborted | notConnected | addressInUse | addressNotAvailable
  | networkDown | brokenPipe | alreadyExists | wouldBlock | notADirectory | isADirectory
  | directoryNotEmpty | readOnly | staleHandle | invalidInput | invalidData | timedOut | writeZero
  | storageFull | notSeekable | quotaExceeded | fileTooLarge | resourceBusy | executableBusy
  | deadlock | crossesDevices | tooManyLinks | argumentsTooLong | interrupted | unsupported
  | unexpectedEnd | outOfMemory | other
deriving DecidableEq

def IoKind.all : List IoKind := [
  .notFound, .permissionDenied, .connectionRefused, .connectionReset, .hostUnreachable,
  .networkUnreachable, .connectionAborted, .notConnected, .addressInUse, .addressNotAvailable,
  .networkDown, .brokenPipe, .alreadyExists, .wouldBlock, .notADirectory, .isADirectory,
  .directoryNotEmpty, .readOnly, .staleHandle, .invalidInput, .invalidData, .timedOut, .writeZero,
  .storageFull, .notSeekable, .quotaExceeded, .fileTooLarge, .resourceBusy, .executableBusy,
  .deadlock, .crossesDevices, .tooManyLinks, .argumentsTooLong, .interrupted, .unsupported,
  .unexpectedEnd, .outOfMemory, .other]

/-- Whether the operation may succeed a little later. -/
def IoKind.isTransient : IoKind → Bool
  | .timedOut | .connectionRefused | .connectionReset | .interrupted | .wouldBlock => true
  | _ => false

/-- What went wrong between the program and its database. -/
inductive ConnectionFault where
  | poolTimedOut
  | poolClosed
  | rowNotFound
  | workerCrashed
  | columnNotFound (name : String)
  | protocol (message : String)
  | io (kind : IoKind) (message : String)
deriving DecidableEq

namespace ConnectionFault

def message : ConnectionFault → String
  | .poolTimedOut => "pool timed out while waiting for an open connection"
  | .poolClosed => "attempted to acquire a connection on a closed pool"
  | .rowNotFound => "no rows returned by a query that expected to return at least one row"
  | .workerCrashed => "attempted to communicate with a crashed background worker"
  | .columnNotFound name => "no column found for name: " ++ name
  | .protocol message => "encountered unexpected or invalid data: " ++ message
  | .io _ message => "error communicating with database: " ++ message

def isTransient : ConnectionFault → Bool
  | .poolTimedOut | .io .. => true
  | _ => false

end ConnectionFault

/-- What went wrong inside the database. -/
inductive DatabaseFault where
  | connectionFailed
  | migrationFailed
  | queryFailed
  | notFound
  | constraintViolation
deriving DecidableEq

def DatabaseFault.message : DatabaseFault → String
  | .connectionFailed => "failed to connect to database"
  | .migrationFailed => "failed to run migrations"
  | .queryFailed => "query failed"
  | .notFound => "record not found"
  | .constraintViolation => "constraint violation"

/-- Why an operation failed. -/
inductive Error where
  /-- A setting is not acceptable; `key` names it. -/
  | config (message : String) (key : Option String)
  | database (fault : DatabaseFault) (detail : String)
  | connection (fault : ConnectionFault)
  | io (kind : IoKind) (message : String)
  | notFound (what : String)
  | shuttingDown
  /-- A text is not JSON. -/
  | serialization (message : String)
  | server (message : String)
  | other (message : String)
deriving DecidableEq

namespace Error

def message : Error → String
  | .config message _ => "configuration error: " ++ message
  | .database fault detail => "database error: " ++ fault.message ++ ": " ++ detail
  | .connection fault => "database error: " ++ fault.message
  | .io _ message => "I/O error: " ++ message
  | .notFound what => "not found: " ++ what
  | .shuttingDown => "shutdown in progress"
  | .serialization message => "serialization error: " ++ message
  | .server message => "API server error: " ++ message
  | .other message => message

def status : Error → Nat
  | .config .. => 400
  | .notFound _ | .database .notFound _ => 404
  | .database .constraintViolation _ => 409
  | .shuttingDown => 503
  | .database .. | .connection _ | .io .. | .serialization _ | .server _ | .other _ => 500

/-- The code that programs tell errors apart by. -/
def code : Error → String
  | .config .. => "config_error"
  | .notFound _ | .database .notFound _ => "not_found"
  | .database .constraintViolation _ => "conflict"
  | .database .. | .connection _ => "database_error"
  | .io .. => "io_error"
  | .shuttingDown => "shutting_down"
  | .serialization _ => "serialization_error"
  | .server _ => "api_server_error"
  | .other _ => "internal_error"

def occursIn (part : List Char) : List Char → Bool
  | [] => part.isEmpty
  | c :: rest => part.isPrefixOf (c :: rest) || occursIn part rest

/-- Words in the text of a failed query that tell of a database in use. -/
def busyWords : List String := ["locked", "busy", "timed out"]

/-- Whether the operation is worth trying again. -/
def isRetryable : Error → Bool
  | .database .connectionFailed _ => true
  | .database .queryFailed detail => busyWords.any fun w => occursIn w.toList detail.toList
  | .connection fault => fault.isTransient
  | .io kind _ => kind.isTransient
  | _ => false

end Error

end ProviderScout
