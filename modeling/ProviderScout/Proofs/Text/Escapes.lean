import Mathlib.Data.List.TakeWhile
import ProviderScout.Proofs.Text.Bytes
import ProviderScout.Proofs.Text.Digits
import ProviderScout.Text.Percent

namespace ProviderScout.Text

section

variable (code count : Nat)

end

section

variable {code : Nat}

end

def escapeByte (b : UInt8) : List Char :=
  ['%', Nat.digitChar (b.toNat / 16), Nat.digitChar (b.toNat % 16)]

def escape (s : String) : String := String.ofList ((bytes s).flatMap escapeByte)

end ProviderScout.Text
