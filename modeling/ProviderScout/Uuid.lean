import ProviderScout.Text.Digits

namespace ProviderScout

/-- An identifier of 128 bits. -/
structure Uuid where
  bits : Nat
deriving DecidableEq, Repr

namespace Uuid

/-- The lower-case text with hyphens after 8, 12, 16 and 20 digits. -/
def text (u : Uuid) : String :=
  let digits := (Text.hex 32 u.bits).toList
  let part (start size : Nat) := String.ofList ((digits.drop start).take size)
  "-".intercalate [part 0 8, part 8 4, part 12 4, part 16 4, part 20 12]

def ofDigits? (cs : List Char) : Option Uuid :=
  if cs.length == 32 && cs.all (Text.isDigit 16) then some ⟨Text.ofDigits 16 cs⟩ else none

/-- Reads 32 digits with hyphens after 8, 12, 16 and 20 of them. -/
def ofHyphenated? (cs : List Char) : Option Uuid :=
  let at_ (i : Nat) := cs[i]? == some '-'
  if cs.length == 36 && at_ 8 && at_ 13 && at_ 18 && at_ 23 then
    ofDigits? (cs.filter (· != '-'))
  else none

/-- What stands before an identifier that is written as a URN, in any case. -/
def urnLabel : List Char := "urn:uuid:".toList

/-- Reads an identifier: digits alone, with hyphens, and the latter in braces or as a URN. -/
def parse? (s : String) : Option Uuid :=
  let cs := s.toList
  let braced := cs.head? == some '{' && cs.getLast? == some '}'
  if cs.length == 32 then ofDigits? cs
  else if cs.length == 38 && braced then ofHyphenated? (cs.tail.dropLast)
  else if (cs.take 9).map Char.toLower == urnLabel then ofHyphenated? (cs.drop 9)
  else ofHyphenated? cs

def version (u : Uuid) : Nat := u.bits / 75557863725914323419136 % 16

def ofRandom (bits : Nat) : Uuid :=
  let low := bits % 4611686018427387904
  let middle := bits / 4611686018427387904 % 4096
  let high := bits / 18889465931478580854784 % 281474976710656
  ⟨((high * 16 + 4) * 4096 + middle) * 18446744073709551616 + 9223372036854775808 + low⟩

end Uuid

end ProviderScout
