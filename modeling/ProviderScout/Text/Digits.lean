import ProviderScout.Number.Counter

namespace ProviderScout.Text

/-- The value of an ASCII digit in a base up to 16. -/
def digit? (base : Nat) (c : Char) : Option Nat :=
  let n :=
    if c.isDigit then c.toNat - '0'.toNat
    else if 'a' ≤ c && c ≤ 'f' then c.toNat - 'a'.toNat + 10
    else if 'A' ≤ c && c ≤ 'F' then c.toNat - 'A'.toNat + 10
    else base
  if n < base then some n else none

def isDigit (base : Nat) (c : Char) : Bool := (digit? base c).isSome

def ofDigits (base : Nat) (cs : List Char) : Nat :=
  cs.foldl (fun n c => n * base + (digit? base c).getD 0) 0

/-- Splits off the digits at the front, at most `limit` of them. -/
def spanDigits (base : Nat) (limit : Nat) (cs : List Char) : List Char × List Char :=
  let digits := (cs.take limit).takeWhile (isDigit base)
  (digits, cs.drop digits.length)

/-- Reads a non-empty text of digits whole. -/
def nat? (cs : List Char) : Option Nat :=
  if !cs.isEmpty && cs.all Char.isDigit then some (ofDigits 10 cs) else none

/-- Reads a whole number that fits a column; a sign, plus or minus, may stand in front. -/
def column? (cs : List Char) : Option Column := do
  let n : Int ← match cs with
    | '+' :: rest => (nat? rest).map Int.ofNat
    | '-' :: rest => (nat? rest).map fun n => -Int.ofNat n
    | _ => (nat? cs).map Int.ofNat
  if Int64.minValue.toInt ≤ n && n ≤ Int64.maxValue.toInt then some (Int64.ofInt n) else none

/-- Writes a number with at least `width` decimal digits. -/
def padded (width n : Nat) : String :=
  let digits := Nat.toDigits 10 n
  String.ofList (List.replicate (width - digits.length) '0' ++ digits)

/-- Writes a number with exactly `width` hexadecimal digits, if it has no more. -/
def hex (width n : Nat) : String :=
  let digits := Nat.toDigits 16 n
  String.ofList (List.replicate (width - digits.length) '0' ++ digits)

end ProviderScout.Text
