import ProviderScout.Text.Digits

namespace ProviderScout

/-- An IP address. -/
inductive IpAddress where
  | v4 (a b c d : UInt8)
  /-- Eight groups and the number of the network interface, 0 for none. -/
  | v6 (groups : Vector UInt16 8) (scope : UInt32)
deriving DecidableEq

/-- An IP address and a port. -/
structure SocketAddress where
  ip : IpAddress
  port : UInt16
deriving DecidableEq

namespace IpAddress

open Text (ofDigits spanDigits)

def dotted (a b c d : UInt8) : String :=
  ".".intercalate ([a, b, c, d].map fun n => toString n.toNat)

/-- A run of zero groups. -/
structure ZeroRun where
  start : Nat
  size : Nat

/-- The first of the longest runs of zeros among groups, the first of which has number `i`;
`current` is the run that ends in front of them and `best` the best one so far. -/
def longestZeroRun (i : Nat) (current best : ZeroRun) : List UInt16 → ZeroRun
  | [] => best
  | g :: rest =>
    if g == 0 then
      let current := if current.size == 0 then ⟨i, 1⟩ else { current with size := current.size + 1 }
      longestZeroRun (i + 1) current (if best.size < current.size then current else best) rest
    else longestZeroRun (i + 1) ⟨0, 0⟩ best rest

def groupText (g : UInt16) : String := String.ofList (Nat.toDigits 16 g.toNat)

/-- The text of eight groups. The longest run of two or more zeros is left out, and an address
that embeds four octets shows them. -/
def groupsText (groups : List UInt16) : String :=
  match groups with
  | [0, 0, 0, 0, 0, 0xffff, high, low] =>
    "::ffff:" ++ dotted (high / 256).toUInt8 high.toUInt8 (low / 256).toUInt8 low.toUInt8
  | _ =>
    let run := longestZeroRun 0 ⟨0, 0⟩ ⟨0, 0⟩ groups
    let part (gs : List UInt16) := ":".intercalate (gs.map groupText)
    if 1 < run.size then
      part (groups.take run.start) ++ "::" ++ part (groups.drop (run.start + run.size))
    else part groups

/-- Reads a number below `bound` of at most `limit` digits. -/
def number (base limit bound : Nat) (cs : List Char) : Option (Nat × List Char) :=
  let (digits, rest) := spanDigits base cs.length cs
  let n := ofDigits base digits
  if digits.isEmpty || limit < digits.length || bound ≤ n then none else some (n, rest)

/-- Reads a number up to 255 that has no leading zero. -/
def octet (cs : List Char) : Option (UInt8 × List Char) :=
  match cs with
  | '0' :: d :: _ => if d.isDigit then none else some (0, cs.tail)
  | _ => (number 10 3 256 cs).map fun (n, rest) => (n.toUInt8, rest)

def token (c : Char) : List Char → Option (Unit × List Char)
  | d :: rest => if d == c then some ((), rest) else none
  | [] => none

def octets (cs : List Char) : Option ((UInt8 × UInt8 × UInt8 × UInt8) × List Char) := do
  let (a, cs) ← octet cs
  let (_, cs) ← token '.' cs
  let (b, cs) ← octet cs
  let (_, cs) ← token '.' cs
  let (c, cs) ← octet cs
  let (_, cs) ← token '.' cs
  let (d, cs) ← octet cs
  return ((a, b, c, d), cs)

/-- Reads up to `room` groups with colons between them. Where two groups have room, four octets may
stand for the last two. Answers also whether they did. -/
def groups (first : Bool) : Nat → List Char → (List UInt16 × Bool) × List Char
  | 0, cs => (([], false), cs)
  | room + 1, cs =>
    match if first then some ((), cs) else token ':' cs with
    | none => (([], false), cs)
    | some (_, behind) =>
      match if room = 0 then none else octets behind with
      | some ((a, b, c, d), rest) =>
        (([a.toUInt16 * 256 + b.toUInt16, c.toUInt16 * 256 + d.toUInt16], true), rest)
      | none =>
        match number 16 4 65536 behind with
        | none => (([], false), cs)
        | some (g, rest) =>
          let ((gs, embedded), rest) := groups false room rest
          ((g.toUInt16 :: gs, embedded), rest)

def ofGroups (gs : List UInt16) : Vector UInt16 8 := Vector.ofFn fun i => gs.getD i 0

/-- Reads eight groups, of which `::` may leave out any number of zeros but not none. -/
def eightGroups (cs : List Char) : Option (Vector UInt16 8 × List Char) :=
  match groups true 8 cs with
  | ((head, embedded), rest) =>
    if head.length = 8 then some (ofGroups head, rest)
    else if embedded then none
    else match rest with
      | ':' :: ':' :: rest =>
        let ((tail, _), rest) := groups true (7 - head.length) rest
        some (ofGroups (head ++ List.replicate (8 - head.length - tail.length) 0 ++ tail), rest)
      | _ => none

end IpAddress

namespace SocketAddress

open IpAddress (eightGroups number octets token)

def text (s : SocketAddress) : String :=
  match s.ip with
  | .v4 a b c d => IpAddress.dotted a b c d ++ ":" ++ toString s.port.toNat
  | .v6 groups scope =>
    let zone := if scope == 0 then "" else "%" ++ toString scope.toNat
    "[" ++ IpAddress.groupsText groups.toList ++ zone ++ "]:" ++ toString s.port.toNat

def portPart (cs : List Char) : Option (UInt16 × List Char) := do
  let (_, cs) ← token ':' cs
  let (n, cs) ← number 10 cs.length 65536 cs
  return (n.toUInt16, cs)

/-- Reads the number of an interface, 0 if there is none. -/
def scopePart (cs : List Char) : UInt32 × List Char :=
  match cs with
  | '%' :: rest => match number 10 rest.length 4294967296 rest with
    | some (n, rest) => (n.toUInt32, rest)
    | none => (0, cs)
  | _ => (0, cs)

def ofV4 (cs : List Char) : Option (SocketAddress × List Char) := do
  let ((a, b, c, d), cs) ← octets cs
  let (port, cs) ← portPart cs
  return (⟨.v4 a b c d, port⟩, cs)

def ofV6 (cs : List Char) : Option (SocketAddress × List Char) := do
  let (_, cs) ← token '[' cs
  let (groups, cs) ← eightGroups cs
  let (scope, cs) := scopePart cs
  let (_, cs) ← token ']' cs
  let (port, cs) ← portPart cs
  return (⟨.v6 groups scope, port⟩, cs)

def parse? (s : String) : Option SocketAddress :=
  let cs := s.toList
  match (ofV4 cs).or (ofV6 cs) with
  | some (a, []) => some a
  | _ => none

end SocketAddress

end ProviderScout
