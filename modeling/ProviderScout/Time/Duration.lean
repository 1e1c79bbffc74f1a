import ProviderScout.Number.Rounding

namespace ProviderScout

def Duration.perSecond : Nat := 1000000000

/-- The first length that is too long. -/
def Duration.limit : Nat := 18446744073709551616 * perSecond

/-- A length of time. -/
structure Duration where
  nanos : Nat
  inRange : nanos < Duration.limit
deriving DecidableEq

namespace Duration

def zero : Duration := ⟨0, by decide⟩

instance : Inhabited Duration := ⟨zero⟩

/-- The length of some nanoseconds, if it is not too long. -/
def ofNanos? (n : Nat) : Option Duration := if h : n < limit then some ⟨n, h⟩ else none

def ofNanos (n : UInt64) : Duration :=
  ⟨n.toNat, Nat.lt_trans n.toNat_lt (by decide)⟩

def ofSeconds (n : UInt64) : Duration :=
  ⟨n.toNat * perSecond, (Nat.mul_lt_mul_right (by decide)).2 n.toNat_lt⟩

def ofMillis (n : UInt64) : Duration :=
  ⟨n.toNat * 1000000, Nat.lt_trans ((Nat.mul_lt_mul_right (by decide)).2 n.toNat_lt) (by decide)⟩

def seconds (d : Duration) : Nat := d.nanos / perSecond

def subsecond (d : Duration) : Nat := d.nanos % perSecond

def isZero (d : Duration) : Bool := d.nanos == 0

def min (a b : Duration) : Duration := if a.nanos ≤ b.nanos then a else b

/-- The length in seconds as a double: whole seconds and fraction are converted apart. -/
def toFloat (d : Duration) : Float := d.seconds.toFloat + d.subsecond.toFloat / 1000000000.0

/-- The length of `x` seconds, rounded to whole nanoseconds, halves to even. There is none if `x`
is negative, no number or too large. -/
def ofFloat? (x : Float) : Option Duration :=
  match exactValue? x with
  | none => none
  | some q =>
    if q.num < 0 then none else ofNanos? (roundHalfEven (Rat.mul q (Rat.ofInt perSecond)))

/-- The longest time that a timer runs, in milliseconds: thirty years of 365 days. -/
def longestTimer : Nat := 946080000000

/-- How long a timer for a length runs, in milliseconds. It ends with the first whole millisecond
that is not too early, or when the longest time has passed. -/
def ticks (d : Duration) : Nat := Nat.min ((d.nanos + 999999) / 1000000) longestTimer

end Duration

end ProviderScout
