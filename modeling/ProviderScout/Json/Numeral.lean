import ProviderScout.Json.Basic
import ProviderScout.Number.Counter

/-!
Reading a number. A whole number that fits 64 bits stays whole. Any other is a double: of its
digits those are used that fit a counter, and the result is scaled by powers of ten in double
arithmetic, so that the last bit may differ from the nearest double.
-/

namespace ProviderScout.Json

/-- A number as it is written. -/
structure Numeral where
  negative : Bool
  whole : List Nat
  fraction : List Nat
  /-- Sign, negative if true, and digits. -/
  exponent : Option (Bool × List Nat)

/-- Appends digits to a number as long as the number fits a counter, and answers the digits left. -/
def accumulate (n : Nat) : List Nat → Nat × List Nat
  | [] => (n, [])
  | d :: rest => if n * 10 + d ≤ Counter.max then accumulate (n * 10 + d) rest else (n, d :: rest)

/-- The power of ten nearest among the doubles. -/
def powerOfTen (k : Nat) : Float := Float.ofScientific 1 false k

/-- `x * 10 ^ k` in double arithmetic, dividing by at most the largest power of ten at a time. No
value if the product is infinite. -/
def scale (x : Float) (k : Int) : Option Float :=
  if 0 ≤ k then
    if k ≤ 308 then
      let y := x * powerOfTen k.toNat
      if y.isInf then none else some y
    else if x == 0 then some x else none
  else if -308 ≤ k then some (x / powerOfTen (-k).toNat)
  else if x == 0 then some x
  else scale (x / powerOfTen 308) (k + 308)
termination_by k.natAbs

def ofDigits (digits : List Nat) : Nat := digits.foldl (fun n d => n * 10 + d) 0

/-- The largest exponent that is looked at digit by digit. -/
def exponentLimit : Nat := 2147483647

/-- How many digits lie behind the one with which an exponent grows too large, if it does. `e` is
the exponent that the digits before make. -/
def digitsBeyond (e : Nat) : List Nat → Nat
  | [] => 0
  | d :: rest => if e * 10 + d ≤ exponentLimit then digitsBeyond (e * 10 + d) rest else rest.length

/-- How many digits of a number are not looked at because its exponent is too large without them. -/
def Numeral.unseen (n : Numeral) : Nat :=
  match n.exponent with
  | none => 0
  | some (_, digits) => digitsBeyond 0 digits

/-- The magnitude of a number that is not whole. -/
def Numeral.magnitude? (n : Numeral) : Option Float :=
  let (significand, dropped) := accumulate 0 n.whole
  let (significand, ignored) := accumulate significand n.fraction
  let point : Int := dropped.length - (n.fraction.length - ignored.length : Nat)
  match n.exponent with
  | none => scale significand.toFloat point
  | some (down, digits) =>
    let e := ofDigits digits
    if e ≤ exponentLimit then
      scale significand.toFloat (if down then point - e else point + e)
    else if significand != 0 && !down then none
    else some 0

/-- The value of a number, if there is one. Minus zero is a double. -/
def Numeral.value? (n : Numeral) : Option Json :=
  let size := ofDigits n.whole
  if n.fraction.isEmpty && n.exponent.isNone && decide (size ≤ Counter.max) then
    if n.negative then
      if size != 0 && decide (size ≤ 9223372036854775808) then some (.int (-size))
      else some (.float (-size.toFloat))
    else some (.int size)
  else n.magnitude?.map fun x => .float (if n.negative then -x else x)

end ProviderScout.Json
