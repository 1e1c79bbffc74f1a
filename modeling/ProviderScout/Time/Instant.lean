namespace ProviderScout

/-- A point in time: whole seconds and the nanoseconds after them. A leap second counts as a
second half of the second before it, with `nanos` of 1000000000 and more. -/
structure Instant where
  secs : Int
  nanos : Nat
deriving DecidableEq, Repr

namespace Instant

/-- The first second that can be represented: the year -262143. -/
def minSecs : Int := -8334601228800

/-- The last second that can be represented: the end of the year 262142. -/
def maxSecs : Int := 8210266876799

def inRange (secs : Int) : Bool := minSecs ≤ secs && secs ≤ maxSecs

def ofSecs? (secs : Int) : Option Instant := if inRange secs then some ⟨secs, 0⟩ else none

/-- The largest number of hours that can be added or taken away, either sign. -/
def maxHours : Nat := 2562047788015

def inLeapSecond (t : Instant) : Bool := 1000000000 ≤ t.nanos

/-- The instant outside leap seconds from which hours are counted. A leap second is left forward on
the way to the past and backward on the way to the future. -/
def outsideLeapSecond (t : Instant) (toPast : Bool) : Instant :=
  if t.inLeapSecond then ⟨if toPast then t.secs + 1 else t.secs, t.nanos - 1000000000⟩ else t

/-- The instant some hours earlier, or later if `hours` is negative. There is none if the hours or
the answer cannot be represented. -/
def hoursBefore? (t : Instant) (hours : Int) : Option Instant :=
  let start := if hours = 0 then t else t.outsideLeapSecond (0 < hours)
  if hours.natAbs ≤ maxHours && inRange (start.secs - 3600 * hours) then
    some ⟨start.secs - 3600 * hours, start.nanos⟩
  else none

def le (a b : Instant) : Bool := a.secs < b.secs || (a.secs == b.secs && a.nanos ≤ b.nanos)

end Instant

end ProviderScout
