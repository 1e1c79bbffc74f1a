import ProviderScout.Error.Basic

namespace ProviderScout

/-- Why the database engine refuses a statement. -/
inductive SqlFault where
  | noSuchTable (name : String)
  | tableExists (name : String)
  | indexExists (name : String)
  /-- A table is to be made and an index has its name. -/
  | nameIsIndex (name : String)
  | noSuchColumn (name : String)
  | columnMissing (table column : String)
  | notUnique (column : String)
  | isNull (column : String)
  /-- A rule of the table forbids the row. -/
  | refused (reason : String)
  | notADatabase
  | malformed
  | unsupportedFormat
  | cannotOpen
  | readFailed
  | deleteFailed
  | lockFailed
  | locked
  | readOnly
  /-- An unfinished change is to be taken back in a file that is only read. -/
  | readOnlyJournal
  | noSuchFileSystem (name : String)
  /-- Each number that a row can have is taken. -/
  | full
deriving DecidableEq

namespace SqlFault

def code : SqlFault → Nat
  | .noSuchTable _ | .tableExists _ | .indexExists _ | .nameIsIndex _ | .noSuchColumn _
  | .columnMissing _ _ | .noSuchFileSystem _ | .unsupportedFormat => 1
  | .notUnique _ => 1555
  | .isNull _ => 1299
  | .refused _ => 1811
  | .notADatabase => 26
  | .malformed => 11
  | .cannotOpen => 14
  | .readFailed => 266
  | .deleteFailed => 2570
  | .lockFailed => 3850
  | .locked => 5
  | .readOnly => 8
  | .readOnlyJournal => 776
  | .full => 13

def text : SqlFault → String
  | .noSuchTable name => "no such table: " ++ name
  | .tableExists name => "table " ++ name ++ " already exists"
  | .indexExists name => "index " ++ name ++ " already exists"
  | .nameIsIndex name => "there is already an index named " ++ name
  | .noSuchColumn name => "no such column: " ++ name
  | .columnMissing table column => "table " ++ table ++ " has no column named " ++ column
  | .notUnique column => "UNIQUE constraint failed: " ++ column
  | .isNull column => "NOT NULL constraint failed: " ++ column
  | .refused reason => reason
  | .notADatabase => "file is not a database"
  | .malformed => "database disk image is malformed"
  | .unsupportedFormat => "unsupported file format"
  | .cannotOpen => "unable to open database file"
  | .readFailed | .deleteFailed | .lockFailed => "disk I/O error"
  | .locked => "database is locked"
  | .readOnly | .readOnlyJournal => "attempt to write a readonly database"
  | .noSuchFileSystem name => "no such vfs: " ++ name
  | .full => "database or disk is full"

def message (f : SqlFault) : String :=
  "error returned from database: (code: " ++ toString f.code ++ ") " ++ f.text

end SqlFault

/-- Why a query has no answer. -/
inductive QueryFault where
  | closed
  | sql (fault : SqlFault)
deriving DecidableEq

namespace QueryFault

def message : QueryFault → String
  | .closed => ConnectionFault.poolClosed.message
  | .sql fault => fault.message

/-- The error of a failed query; `task` tells what was tried. -/
def error (task : String) (f : QueryFault) : Error :=
  .database .queryFailed ("Failed to " ++ task ++ ": " ++ f.message)

end QueryFault

end ProviderScout
