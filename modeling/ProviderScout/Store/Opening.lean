import ProviderScout.Store.Database
import ProviderScout.Store.OpenOptions
import ProviderScout.Store.PageFile

/-!
Opening a database by its path. The directories above the file are made if they are missing, and
the file is made unless it is only read. Changes to the file are kept in a log beside it where that
is possible, and otherwise prepared in a journal. What is left beside the file from earlier is
cleared away or stands in the way.
-/

namespace ProviderScout

/-- Something done with files. What was done before a fault stays done. -/
abbrev Access (α : Type) := ExceptT SqlFault (StateM FileTree) α

/-- A file that is being opened. -/
structure OpenFile where
  place : List String
  system : FileSystem
  readOnly : Bool
  node : FileNode

/-- A database as a connection finds it. -/
structure Opening where
  schema : Schema
  /-- What every change meets with, if none can be made. -/
  fault : Option SqlFault
  /-- Whether a log is kept beside the file. -/
  logged : Bool

namespace FileNode

def isEmpty : FileNode → Bool
  | plain bytes => (PageFile.mk bytes).isEmpty
  | _ => false

def isLogged : FileNode → Bool
  | plain bytes => (PageFile.mk bytes).isLogged
  | database _ logged => logged
  | directory => false

/-- Whether a database in it may be written by its version. -/
def isWritable : FileNode → Bool
  | plain bytes => (PageFile.mk bytes).isWritable
  | _ => true

/-- The first byte of what is in it, if it can be read and is not 0. -/
def startsFilled : FileNode → Bool
  | plain bytes => bytes.head? != some 0
  | _ => true

/-- Why a file with pages is not a database of a known version. -/
def versionFault? : FileNode → Option SqlFault
  | plain bytes => if (PageFile.mk bytes).isEmpty then none else (PageFile.mk bytes).versionFault?
  | _ => none

/-- Why a file with pages, of a known version, cannot be read. -/
def readFault? : FileNode → Option SqlFault
  | plain bytes => if (PageFile.mk bytes).isEmpty then none else (PageFile.mk bytes).readFault?
  | _ => none

/-- Why no table can be made in a file with pages that can be read. -/
def tableFault? : FileNode → Option SqlFault
  | plain bytes => if (PageFile.mk bytes).isEmpty then none else (PageFile.mk bytes).tableFault?
  | _ => none

def schema : FileNode → Schema
  | database c _ => c
  | _ => .empty

end FileNode

namespace OpenFile

def check (fault : Option SqlFault) : Access Unit :=
  match fault with
  | none => pure ()
  | some f => throw f

/-- What is kept beside the file under an addition to its name, if anything is in it. -/
def beside (f : OpenFile) (suffix : String) : Access (Option FileNode) := do
  return ((← get).get? (FileTree.beside f.place suffix)).filter FileNode.isFilled

def deleteBeside (f : OpenFile) (suffix : String) : Access Unit :=
  modify fun t => t.remove (FileTree.beside f.place suffix)

/-- Whether a file can be kept beside the file under an addition to its name. -/
def canKeep (f : OpenFile) (suffix : String) : Access Bool := do
  return FileTree.fitsBeside f.place suffix
    && !(← get).isDirectory (FileTree.beside f.place suffix)

/-- Takes the lock, where that is a directory beside the file. -/
def lock (f : OpenFile) : Access Unit := do
  if f.system = .lockDirectory then
    if !FileTree.fitsBeside f.place ".lock" then throw .lockFailed
    if ((← get).get? (FileTree.beside f.place ".lock")).isSome then throw .locked

/-- Clears away a journal from earlier. That of a file without pages is none of its own; any other
tells of an unfinished change, if it does not begin with 0. -/
def clearJournal (f : OpenFile) : Access Unit := do
  match ← f.beside "-journal" with
  | none => pure ()
  | some .directory => if !f.node.isEmpty then throw .readFailed
  | some journal =>
    if f.node.isEmpty then
      if !f.readOnly || f.system.lendsLocks then f.deleteBeside "-journal"
    else if journal.startsFilled then
      if f.readOnly then throw .readOnlyJournal
      f.deleteBeside "-journal"

/-- Takes a log from earlier into use and answers whether there is one. That of a file without
pages is none of its own. -/
def takeLog (f : OpenFile) : Access Bool := do
  match ← f.beside "-wal" with
  | none => return false
  | some log =>
    if f.node.isEmpty then
      if log.isDirectory then throw .deleteFailed
      f.deleteBeside "-wal"
      return false
    if !f.system.hasLog || log.isDirectory then throw .cannotOpen
    return true

/-- Begins a log for a file that asks for one. -/
def beginLog (f : OpenFile) : Access Unit := do
  if !f.system.hasLog || !(← f.canKeep "-wal") then throw .cannotOpen

/-- Writes a journal and deletes it when the change is done. -/
def useJournal (f : OpenFile) : Access Unit := do
  if !(← f.canKeep "-journal") then throw .cannotOpen
  f.deleteBeside "-journal"

/-- Whether the file can be written, apart from what is in it. -/
def isWritable (f : OpenFile) : Bool := !f.readOnly && f.node.isWritable

/-- Reads the file and makes it keep a log, where that is possible. Answers whether it does. -/
def startLog (f : OpenFile) : Access Bool := do
  let taken ← f.takeLog
  check f.node.versionFault?
  let logged := taken || f.node.isLogged
  if logged && !taken then f.beginLog
  check f.node.readFault?
  if logged || !f.system.hasLog then return logged
  if !f.isWritable then throw .readOnly
  f.useJournal
  modify fun t => t.put f.place (.database f.node.schema true)
  return true

/-- What the first change meets with: the file may be one that is only read, the index of its log
may be out of reach, and a journal may have no place. -/
def changeFault (f : OpenFile) (logged : Bool) : Access (Option SqlFault) := do
  if !f.isWritable then return some .readOnly
  if logged then
    let index := FileTree.beside f.place "-shm"
    if f.system = .locking && (← get).isDirectory index then return some .readOnly
  else
    if !(← f.canKeep "-journal") then return some .cannotOpen
    f.deleteBeside "-journal"
  return f.node.tableFault?

/-- Opens a file that others may use. -/
def connect (f : OpenFile) : Access Opening := do
  f.lock
  f.clearJournal
  let logged ← f.startLog
  return ⟨f.node.schema, ← f.changeFault logged, logged⟩

/-- Opens a file that nobody changes. What is beside it does not matter. -/
def connectImmutable (f : OpenFile) : Access Opening := do
  check f.node.versionFault?
  check f.node.readFault?
  return ⟨f.node.schema, some .readOnly, false⟩

end OpenFile

namespace OpenOptions

/-- The ends of names that a path has to leave room for. -/
def suffixRoom : Nat := 8

/-- Whether the whole path to a place is short enough. -/
def hasRoom (fs : FileSystem) (place : List String) : Bool :=
  FileTree.pathSize place + suffixRoom ≤ fs.pathLimit

/-- Goes on from a place to a name, which must not be too long or lie below a file. -/
def enter (t : FileTree) (place : List String) (name : String) : Option (List String) :=
  if name == ".." then some (FileTree.parent place)
  else if !FileTree.fits name then none
  else if (t.get? place).any fun node => !node.isDirectory then none
  else some (place ++ [name])

/-- The place of the file, if it can be looked for. -/
def place? (o : OpenOptions) (fs : FileSystem) (t : FileTree) : Option (List String) :=
  ((FileTree.names (beforeZero o.file)).foldlM (enter t) []).filter (hasRoom fs)

/-- What is at the place of the file. A missing file is made unless it is only read. -/
def findFile (o : OpenOptions) (place : List String) : Access FileNode := do
  match (← get).get? place with
  | some .directory => throw (if o.readOnly then .readFailed else .cannotOpen)
  | some node => return node
  | none =>
    if o.readOnly || !(← get).isDirectory (FileTree.parent place) then throw .cannotOpen
    modify fun t => t.put place (.plain [])
    return .plain []

/-- A database that is kept in memory. -/
def memoryOpening (o : OpenOptions) : Opening :=
  ⟨.empty, if o.readOnly then some .readOnly else none, false⟩

/-- Opens a database, and answers the place of its file if it has one. -/
def connect (o : OpenOptions) : Access (Opening × Option (List String)) := do
  let name := systemName (o.fileSystem.getD FileSystem.locking.name)
  match FileSystem.ofName? name with
  | none => throw (.noSuchFileSystem name)
  | some fs =>
    if o.inMemory then return (o.memoryOpening, none)
    if fs = .memory then
      if !hasRoom fs (FileTree.names (beforeZero o.file)) then throw .cannotOpen
      return ({ o with readOnly := o.readOnly || o.immutable }.memoryOpening, none)
    match o.place? fs (← get) with
    | none => throw .cannotOpen
    | some place =>
      let f : OpenFile := ⟨place, fs, o.readOnly, ← o.findFile place⟩
      return (← if o.immutable then f.connectImmutable else f.connect, some place)

end OpenOptions

/-- Why a database cannot be opened. -/
inductive OpenFault where
  | directory (fault : DirectoryFault)
  | options (fault : OptionFault)
  /-- The path to the file holds the character with number 0. -/
  | zeroInPath
  | sql (fault : SqlFault)

namespace OpenFault

def message : OpenFault → String
  | .directory fault => "Failed to create database directory: " ++ fault.message
  | .options fault =>
    "Failed to parse database path: error with configuration: " ++ fault.message
  | .zeroInPath =>
    let reason := "filename passed to SQLite must not contain nul bytes"
    "Failed to connect to database: " ++ (ConnectionFault.io .invalidData reason).message
  | .sql fault => "Failed to connect to database: " ++ fault.message

def error (f : OpenFault) : Error := .database .connectionFailed f.message

end OpenFault

namespace Opening

def update (a : Opening) : Except Error Unit × Schema :=
  match a.fault with
  | some f => (a.schema.checkUpdated f, a.schema)
  | none => a.schema.update

end Opening

namespace FileTree

/-- Opens a database as it is asked for. Where each connection has a memory of its own, those that
follow the first find nothing in it. -/
def openWith (o : OpenOptions) (t : FileTree) : Except Error Database × FileTree :=
  if o.file.toList.contains '\x00' && !o.isQualified then (.error OpenFault.zeroInPath.error, t)
  else match o.connect.run t with
    | (.error f, t) => (.error (OpenFault.sql f).error, t)
    | (.ok (a, place), t) =>
      let (r, c) := a.update
      let t := match place, a.fault with
        | some place, none => t.put place (.database c a.logged)
        | _, _ => t
      (r.map fun _ => ⟨if o.isCommon then c else .empty, true⟩, t)

def openDatabase (path : String) (t : FileTree) : Except Error Database × FileTree :=
  match t.makeParents path with
  | (.error f, t) => (.error (OpenFault.directory f).error, t)
  | (.ok (), t) => match OpenOptions.ofPath path with
    | .error f => (.error (OpenFault.options f).error, t)
    | .ok o => t.openWith o

end FileTree

end ProviderScout
