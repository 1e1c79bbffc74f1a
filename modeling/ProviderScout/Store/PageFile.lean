import ProviderScout.Store.Fault
import ProviderScout.Text.Utf8

/-!
The bytes of a file that may be a database: a header of 100 bytes and pages, on the first of which
the tables and indexes are listed. Only a list without entries is understood.
-/

namespace ProviderScout

/-- The bytes of a file. -/
structure PageFile where
  bytes : List UInt8

namespace PageFile

/-- With what each database begins. -/
def signature : List UInt8 := Text.bytes "SQLite format 3\x00"

/-- A byte; behind the end all bytes are 0. -/
def byte (f : PageFile) (n : Nat) : Nat := (f.bytes.getD n 0).toNat

/-- A number of two bytes, the higher first. -/
def pair (f : PageFile) (n : Nat) : Nat := f.byte n * 256 + f.byte (n + 1)

def quad (f : PageFile) (n : Nat) : Nat := f.pair n * 65536 + f.pair (n + 2)

/-- The size of the file. A single byte counts as none. -/
def size (f : PageFile) : Nat := if f.bytes.length = 1 then 0 else f.bytes.length

/-- Whether the file has no pages and so is a database without tables. -/
def isEmpty (f : PageFile) : Bool := f.size == 0

def writeVersion (f : PageFile) : Nat := f.byte 18

def readVersion (f : PageFile) : Nat := f.byte 19

/-- The last version that is known; from it on a log is kept beside the file. -/
def lastVersion : Nat := 2

def isLogged (f : PageFile) : Bool := f.readVersion == lastVersion

def isWritable (f : PageFile) : Bool := f.writeVersion ≤ lastVersion

def pageSizes : List Nat := [512, 1024, 2048, 4096, 8192, 16384, 32768, 65536]

def pageSize (f : PageFile) : Nat := f.byte 16 * 256 + f.byte 17 * 65536

/-- The part of a page that is used. -/
def usable (f : PageFile) : Nat := f.pageSize - f.byte 20

/-- The smallest part of a page that has to be used. -/
def leastUsable : Nat := 480

def pages (f : PageFile) : Nat := (f.size + f.pageSize - 1) / f.pageSize

/-- The number of pages that the header tells. It counts if the header was written together with
it. -/
def toldPages (f : PageFile) : Nat :=
  if f.quad 28 != 0 && f.quad 24 == f.quad 92 then f.quad 28 else f.pages

/-- The highest format of the list of tables that is known. -/
def lastFormat : Nat := 4

/-- Where the first page begins behind the header. -/
def firstPage : Nat := 100

/-- Whether the first page has the kind of one that lists entries and lists none. -/
def listsNothing (f : PageFile) : Bool := f.byte firstPage == 13 && f.pair (firstPage + 3) == 0

/-- Why a file is not taken for a database of a known version. -/
def versionFault? (f : PageFile) : Option SqlFault :=
  if f.bytes.take signature.length != signature || lastVersion < f.readVersion then
    some .notADatabase
  else none

/-- Why a file of a known version cannot be read. -/
def readFault? (f : PageFile) : Option SqlFault :=
  if !(f.byte 21 == 64 && f.byte 22 == 32 && f.byte 23 == 32) then some .notADatabase
  else if !pageSizes.contains f.pageSize then some .notADatabase
  else if f.pages < f.toldPages then some .malformed
  else if f.usable < leastUsable then some .notADatabase
  else if lastFormat < f.quad 44 % 256 then some .unsupportedFormat
  else if !f.listsNothing then some .malformed
  else none

/-- Where the entries of the first page begin, seen from the start of the file. -/
def entriesStart (f : PageFile) : Nat :=
  match f.pair (firstPage + 5) with
  | 0 => 65536
  | n => n

/-- Whether the first page has room where it says: no freed blocks, and entries that would begin
behind the list of entries and within the page. -/
def hasRoom (f : PageFile) : Bool :=
  let start := f.entriesStart + f.byte (firstPage + 7)
  f.pair (firstPage + 1) == 0 && firstPage + 8 ≤ start && start ≤ f.usable

/-- Why no table can be made in a file that can be read: pages are told to be free that are not
there, tables are told to lie behind the end, or the first page has no room. -/
def tableFault? (f : PageFile) : Option SqlFault :=
  if f.quad 36 != 0 || f.toldPages < f.quad 52 || !f.hasRoom then some .malformed else none

end PageFile

end ProviderScout
