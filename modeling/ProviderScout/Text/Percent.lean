import ProviderScout.Text.Digits
import ProviderScout.Text.Utf8

namespace ProviderScout.Text

def hexByte? (a b : UInt8) : Option UInt8 := do
  let high ← digit? 16 (Char.ofNat a.toNat)
  let low ← digit? 16 (Char.ofNat b.toNat)
  return (high * 16 + low).toUInt8

/-- Puts bytes in the place of their escapes; a percent sign that begins no escape stays. -/
def unescape : List UInt8 → List UInt8
  | 0x25 :: a :: b :: rest => match hexByte? a b with
    | some c => c :: unescape rest
    | none => 0x25 :: unescape (a :: b :: rest)
  | c :: rest => c :: unescape rest
  | [] => []

def splitBytes (separator : UInt8) : List UInt8 → List (List UInt8)
  | [] => [[]]
  | b :: rest => match splitBytes separator rest with
    | [] => [[b]]
    | part :: parts => if b == separator then [] :: part :: parts else (b :: part) :: parts

/-- Decodes a name or value of a form: plus signs stand for blanks. -/
def formText (bs : List UInt8) : String :=
  ofBytes (unescape (bs.map fun b => if b == 0x2B then 0x20 else b))

/-- Decodes the part of a form between two separators as a name and a value. -/
def formField (part : List UInt8) : String × String :=
  (formText (part.takeWhile (· != 0x3D)), formText ((part.dropWhile (· != 0x3D)).drop 1))

/-- The names and values of a form, in order. -/
def formFields (s : String) : List (String × String) :=
  ((splitBytes 0x26 (bytes s)).filter fun part => !part.isEmpty).map formField

end ProviderScout.Text
