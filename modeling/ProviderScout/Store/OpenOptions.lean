import ProviderScout.Store.FileTree
import ProviderScout.Text.Percent
import ProviderScout.Text.Quoted

namespace ProviderScout

/-- A way to reach files. -/
inductive FileSystem where
  /-- Locks are kept by the system. -/
  | locking
  /-- There are no locks. -/
  | lockless
  /-- A directory beside the file is the lock. -/
  | lockDirectory
  /-- Locks are kept by the system against all other programs. -/
  | exclusive
  /-- Files are kept in memory. -/
  | memory
deriving DecidableEq

namespace FileSystem

def all : List FileSystem := [locking, lockless, lockDirectory, exclusive, memory]

def name : FileSystem → String
  | locking => "unix"
  | lockless => "unix-none"
  | lockDirectory => "unix-dotfile"
  | exclusive => "unix-excl"
  | memory => "memdb"

def ofName? (s : String) : Option FileSystem := all.find? fun f => f.name == s

def hasLog : FileSystem → Bool
  | locking | exclusive => true
  | _ => false

/-- Whether the right to change a file can be had by who only reads it. -/
def lendsLocks : FileSystem → Bool
  | lockless | lockDirectory => true
  | _ => false

/-- The most bytes of the path to a file, with the ends of the names of what is kept beside it. -/
def pathLimit : FileSystem → Nat
  | memory => 1024
  | _ => 512

end FileSystem

/-- How a database is opened. -/
structure OpenOptions where
  /-- The path to the file. -/
  file : String
  readOnly : Bool
  inMemory : Bool
  /-- Whether connections share what they keep in memory. -/
  shared : Bool
  /-- Whether the file is taken for one that nobody changes. -/
  immutable : Bool
  /-- The name of the way to reach files, if one is wanted. -/
  fileSystem : Option String

/-- Why a path with parameters cannot be read. -/
inductive OptionFault where
  | unknownValue (value key : String)
  | unknownParameter (key : String)
  /-- Bytes from an index on are no character; there is no number of them if the path ends within
  a character. -/
  | notText (start : Nat) (count : Option Nat)
deriving DecidableEq

def OptionFault.message : OptionFault → String
  | .unknownValue value key => "unknown value " ++ Text.quoted value ++ " for \x60" ++ key ++ "\x60"
  | .unknownParameter key =>
    "unknown query parameter \x60" ++ key ++ "\x60 while parsing connection URL"
  | .notText start (some count) => s!"invalid utf-8 sequence of {count} bytes from index {start}"
  | .notText start none => s!"incomplete utf-8 byte sequence from index {start}"

namespace OpenOptions

def ofFile (file : String) : OpenOptions := ⟨file, false, false, false, false, none⟩

def withParameter (o : OpenOptions) : String × String → Except OptionFault OpenOptions
  | ("mode", "ro") => .ok { o with readOnly := true }
  | ("mode", "rw") | ("mode", "rwc") => .ok o
  | ("mode", "memory") => .ok { o with inMemory := true, shared := true }
  | ("cache", "private") => .ok { o with shared := false }
  | ("cache", "shared") => .ok { o with shared := true }
  | ("immutable", "true") | ("immutable", "1") => .ok { o with immutable := true }
  | ("immutable", "false") | ("immutable", "0") => .ok { o with immutable := false }
  | ("vfs", name) => .ok { o with fileSystem := some name }
  | (key, value) =>
    if key == "mode" || key == "cache" || key == "immutable" then .error (.unknownValue value key)
    else .error (.unknownParameter key)

def ofPath (path : String) : Except OptionFault OpenOptions := do
  let cs := path.toList
  let file := Text.unescape (Text.bytes (String.ofList (cs.takeWhile (· != '?'))))
  let parameters := String.ofList ((cs.dropWhile (· != '?')).drop 1)
  match Text.ofBytes? file, Text.gap? 0 file with
  | some file, _ => (Text.formFields parameters).foldlM withParameter (.ofFile file)
  | none, some (start, count) => throw (.notText (FileTree.rootSize + start) count)
  | none, none => throw (.notText FileTree.rootSize none)

/-- Whether the path is given with parameters of its own, which are written anew. -/
def isQualified (o : OpenOptions) : Bool := o.immutable || o.fileSystem.isSome

/-- The part of a text before the character with number 0. -/
def beforeZero (s : String) : String := String.ofList (s.toList.takeWhile (· != '\x00'))

/-- The name of the way to reach files as it is looked up: blanks have become plus signs. -/
def systemName (name : String) : String :=
  beforeZero (String.ofList (name.toList.map fun c => if c == ' ' then '+' else c))

/-- Whether all connections work on the same tables. What is kept in memory is shared only by those
that name it with parameters. -/
def isCommon (o : OpenOptions) : Bool := !o.inMemory || (o.shared && o.isQualified)

end OpenOptions

end ProviderScout
