/-!
Counters hold 64 bits and stop at their largest value instead of wrapping round; columns of a table
are signed and hold 64 bits as well.
-/

namespace ProviderScout

/-- The largest value of a counter, one below the 64th power of two. -/
def Counter.max : Nat := 18446744073709551615

/-- The sum of two counters, at most `Counter.max`. -/
def Counter.add (a b : Nat) : Nat := Nat.min (a + b) Counter.max

/-- The sum of two counters, where there is none beyond `Counter.max`. -/
def Counter.sum? (a b : Nat) : Option Nat := if a + b ≤ Counter.max then some (a + b) else none

/-- What 64 bits keep of a sum of counters. -/
def Counter.wrap (n : Nat) : Nat := n % (Counter.max + 1)

abbrev Column := Int64

/-- The counter a column stands for: a negative value counts as 0. -/
def Counter.ofColumn (c : Column) : Nat := c.toInt.toNat

/-- The column that holds a counter, at most the largest there is. -/
def Column.ofCounter (n : Nat) : Column :=
  if (n : Int) ≤ Int64.maxValue.toInt then Int64.ofNat n else Int64.maxValue

end ProviderScout
