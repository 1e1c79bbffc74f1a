/-!
Texts as bytes. Bytes that are not a text are read by leaving out what is wrong: each longest part
of a character that breaks off, and each other byte that fits nowhere, counts as one gap.
-/

namespace ProviderScout.Text

def bytes (s : String) : List UInt8 := s.toList.flatMap String.utf8EncodeChar

def isContinuation (b : UInt8) : Bool := 0x80 ≤ b && b ≤ 0xBF

/-- The bytes that may follow the first byte of a longer character, and how many more follow
them. -/
def leadRange (b : UInt8) : Option (UInt8 × UInt8 × Nat) :=
  if 0xC2 ≤ b && b ≤ 0xDF then some (0x80, 0xBF, 0)
  else if b == 0xE0 then some (0xA0, 0xBF, 1)
  else if b == 0xED then some (0x80, 0x9F, 1)
  else if 0xE1 ≤ b && b ≤ 0xEF then some (0x80, 0xBF, 1)
  else if b == 0xF0 then some (0x90, 0xBF, 2)
  else if b == 0xF4 then some (0x80, 0x8F, 2)
  else if 0xF1 ≤ b && b ≤ 0xF3 then some (0x80, 0xBF, 2)
  else none

/-- The number that the bytes of a character make. -/
def codePoint (lead : UInt8) (more : List UInt8) : Nat :=
  let high := match more.length with
    | 1 => lead.toNat % 32
    | 2 => lead.toNat % 16
    | _ => lead.toNat % 8
  more.foldl (fun n b => n * 64 + b.toNat % 64) high

/-- How many bytes behind a first byte belong to its character, and whether it is complete. -/
def tailLength (lead : UInt8) (rest : List UInt8) : Nat × Bool :=
  match leadRange lead, rest with
  | some (low, high, more), b :: rest =>
    if low ≤ b && b ≤ high then
      let found := ((rest.take more).takeWhile isContinuation).length
      (found + 1, found == more)
    else (0, false)
  | _, _ => (0, false)

/-- Reads bytes as characters; nothing stands for a gap. -/
def decode : List UInt8 → List (Option Char)
  | [] => []
  | b :: rest =>
    if b < 0x80 then some (Char.ofNat b.toNat) :: decode rest
    else
      let (size, complete) := tailLength b rest
      (if complete then some (Char.ofNat (codePoint b (rest.take size))) else none)
        :: decode (rest.drop size)
termination_by bs => bs.length
decreasing_by
  · simp only [List.length_cons]
    omega
  · simp only [List.length_cons, List.length_drop]
    omega

/-- The first gap: its index, `i` being that of the first byte, and how many bytes it has. There is
no number of them if the bytes end within a character. -/
def gap? (i : Nat) : List UInt8 → Option (Nat × Option Nat)
  | [] => none
  | b :: rest =>
    if b < 0x80 then gap? (i + 1) rest
    else
      let (size, complete) := tailLength b rest
      if complete then gap? (i + size + 1) (rest.drop size)
      else if (leadRange b).isSome && size == rest.length then some (i, none)
      else some (i, some (size + 1))
termination_by bs => bs.length
decreasing_by
  · simp only [List.length_cons]
    omega
  · simp only [List.length_cons, List.length_drop]
    omega

/-- Reads bytes as a text, if they are one. -/
def ofBytes? (bs : List UInt8) : Option String :=
  ((decode bs).mapM id).map String.ofList

/-- Reads bytes as a text with a replacement character for each gap. -/
def ofBytes (bs : List UInt8) : String :=
  String.ofList ((decode bs).map fun c? => c?.getD (Char.ofNat 0xFFFD))

end ProviderScout.Text
