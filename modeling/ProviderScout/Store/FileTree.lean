import ProviderScout.Store.Schema

namespace ProviderScout

/-- What a path leads to. -/
inductive FileNode where
  | directory
  | plain (bytes : List UInt8)
  /-- A database, and whether a log is kept beside it. -/
  | database (schema : Schema) (logged : Bool)

/-- Directories and files by the names on the way to them. -/
structure FileTree where
  nodes : List (List String × FileNode)

/-- Why a directory cannot be made. -/
inductive DirectoryFault where
  /-- A file stands in its place. -/
  | fileExists
  /-- A file stands on the way to it. -/
  | notADirectory
  | nameTooLong
  /-- A name holds the character with number 0. -/
  | zeroInName
deriving DecidableEq

def DirectoryFault.message : DirectoryFault → String
  | .fileExists => "File exists (os error 17)"
  | .notADirectory => "Not a directory (os error 20)"
  | .nameTooLong => "File name too long (os error 36)"
  | .zeroInName => "file name contained an unexpected NUL byte"

namespace FileNode

def isDirectory : FileNode → Bool
  | directory => true
  | _ => false

/-- Whether there is anything in it; a directory always counts as filled. -/
def isFilled : FileNode → Bool
  | plain bytes => !bytes.isEmpty
  | _ => true

end FileNode

namespace FileTree

def empty : FileTree := ⟨[]⟩

def parent (place : List String) : List String := place.dropLast

/-- The place of a file whose name is that of another file and something more. -/
def beside (place : List String) (suffix : String) : List String :=
  parent place ++ [(place.getLast?.getD "") ++ suffix]

/-- What is at a place; the root is a directory. -/
def get? (t : FileTree) (place : List String) : Option FileNode :=
  if place.isEmpty then some .directory
  else (t.nodes.find? fun n => n.1 == place).map (·.2)

def isDirectory (t : FileTree) (place : List String) : Bool :=
  (t.get? place).any FileNode.isDirectory

def remove (t : FileTree) (place : List String) : FileTree :=
  ⟨t.nodes.filter fun n => n.1 != place⟩

def put (t : FileTree) (place : List String) (node : FileNode) : FileTree :=
  ⟨(t.remove place).nodes ++ [(place, node)]⟩

/-- Puts a file or a directory in a place and directories above it. -/
def plant (t : FileTree) (place : List String) (node : FileNode) : FileTree :=
  let above := (List.range place.length).filterMap fun n =>
    if n == 0 then none else some (place.take n)
  let t := above.foldl (fun t p => if (t.get? p).isSome then t else t.put p .directory) t
  t.put place node

def pathOf (n : List String × FileNode) : String :=
  let path := "/".intercalate n.1
  if n.2.isDirectory then path ++ "/" else path

def paths (t : FileTree) : List String := (t.nodes.map pathOf).mergeSort fun a b => a ≤ b

def nameLimit : Nat := 255

def fits (name : String) : Bool := name.utf8ByteSize ≤ nameLimit

/-- Whether there may be a file whose name is that of another file and something more. -/
def fitsBeside (place : List String) (suffix : String) : Bool :=
  fits ((place.getLast?.getD "") ++ suffix)

/-- The bytes of the path to the root, with the slash at its end. -/
def rootSize : Nat := 16

/-- The number of bytes of the whole path to a place. -/
def pathSize (place : List String) : Nat := rootSize + ("/".intercalate place).utf8ByteSize

/-- The first number of bytes that is too large for the path to a new directory. -/
def pathLimit : Nat := 4096

def names (path : String) : List String :=
  (path.splitOn "/").filter fun name => name != "" && name != "."

/-- The place that a path leads to, each `..` taking back the name before it. -/
def placeOf (path : String) : List String :=
  (names path).foldl (fun place name => if name == ".." then parent place else place ++ [name]) []

/-- Makes the directories along some names, starting from a place. What was made before a fault
stays. `made` tells whether anything has been made: if not, all names are looked up first. -/
def makeDirectories (t : FileTree) (place : List String) (made : Bool) :
    List String → Except DirectoryFault Unit × FileTree
  | [] => (.ok (), t)
  | ".." :: rest => t.makeDirectories (parent place) made rest
  | name :: rest =>
    let here := place ++ [name]
    if !fits name then (.error .nameTooLong, t)
    else match t.get? here with
      | none => (t.put here .directory).makeDirectories here true rest
      | some .directory => t.makeDirectories here made rest
      | some _ => (.error (if made || rest.isEmpty then .fileExists else .notADirectory), t)

/-- Makes the directories above the file that a path leads to. -/
def makeParents (t : FileTree) (path : String) : Except DirectoryFault Unit × FileTree :=
  let above := parent (names path)
  if above.any fun name => name.toList.contains '\x00' then (.error .zeroInName, t)
  else if pathLimit ≤ pathSize above then (.error .nameTooLong, t)
  else t.makeDirectories [] false above

end FileTree

end ProviderScout
