import ProviderScout.Number.Rounding

/-!
The text of a double: the fewest decimal digits that read back as the same double, written out in
full without an exponent.
-/

namespace ProviderScout.Shortest

/-- The decimal digits of a number and the position of the point, counted from the first digit:
`⟨[1, 2], 1⟩` is 1.2 and `⟨[1, 2], -1⟩` is 0.012. -/
structure Decimal where
  digits : List Nat
  point : Int

/-- A positive rational `num / den` with the closed interval around it that rounds to one double;
`closed` tells whether the ends belong to it. All three are numerators over `den`. -/
structure Interval where
  low : Nat
  value : Nat
  high : Nat
  den : Nat
  closed : Bool

/-- The reals that round to the double `mantissa * 2 ^ exponent`. Below a power of two the gap to
the next double is half as wide, except at the smallest exponent. -/
def interval (mantissa : Nat) (exponent : Int) : Interval :=
  let below := if mantissa == 1 <<< 52 && exponent != -1074 then 1 else 2
  let scale := exponent - 2
  let up := 1 <<< scale.toNat
  { low := (4 * mantissa - below) * up
    value := 4 * mantissa * up
    high := (4 * mantissa + 2) * up
    den := 1 <<< (-scale).toNat
    closed := mantissa % 2 == 0 }

/-- Whether `n * 10 ^ k` lies in the interval. -/
def Interval.contains (i : Interval) (n : Nat) (k : Int) : Bool :=
  let x := n * Nat.pow 10 k.toNat * i.den
  let scale := Nat.pow 10 (-k).toNat
  if i.closed then decide (i.low * scale ≤ x) && decide (x ≤ i.high * scale)
  else decide (i.low * scale < x) && decide (x < i.high * scale)

/-- The multiple of `10 ^ k` in the interval that is nearest to the value, as a multiplier. Of two
equally near ones the even one is taken. -/
def Interval.nearest? (i : Interval) (k : Int) : Option Nat :=
  let num := i.value * Nat.pow 10 (-k).toNat
  let den := i.den * Nat.pow 10 k.toNat
  let below := num / den
  let rest := 2 * (num % den)
  let up := rest > den || (rest == den && below % 2 == 1)
  let first := if up then below + 1 else below
  let second := if up then below else below + 1
  if i.contains first k then some first
  else if i.contains second k then some second
  else none

/-- The multiple of the coarsest power of ten from `10 ^ k` down to `10 ^ (k - steps)` that lies in
the interval, with its exponent. -/
def Interval.coarsest (i : Interval) (k : Int) : Nat → Nat × Int
  | 0 => ((i.nearest? k).getD 0, k)
  | steps + 1 => match i.nearest? k with
    | some n => if n == 0 then i.coarsest (k - 1) steps else (n, k)
    | none => i.coarsest (k - 1) steps

/-- The decimal digits of a number, without zeros at the end; `k` is the exponent of the last. -/
def trim : List Nat → Int → List Nat × Int
  | 0 :: rest, k => trim rest (k + 1)
  | digits, k => (digits, k)

/-- The fewest digits that read back as the double. -/
def decimal (mantissa : Nat) (exponent : Int) : Decimal :=
  let i := interval mantissa exponent
  let size := (Nat.toDigits 10 (i.value / i.den)).length
  let start : Int := if i.value < i.den then -(Nat.toDigits 10 (i.den / i.value)).length else size
  let (n, k) := i.coarsest start 20
  let (digits, k) := trim ((Nat.toDigits 10 n).reverse.map fun c => c.toNat - '0'.toNat) k
  { digits := digits.reverse, point := digits.length + k }

/-- Writes digits with the point in its place. -/
def Decimal.text (d : Decimal) : String :=
  let digits := d.digits.map Nat.digitChar
  if d.point ≤ 0 then
    "0." ++ String.ofList (List.replicate (-d.point).toNat '0' ++ digits)
  else
    let whole := d.point.toNat
    let front := digits.take whole ++ List.replicate (whole - digits.length) '0'
    let back := digits.drop whole
    if back.isEmpty then String.ofList front
    else String.ofList (front ++ '.' :: back)

/-- The text of a double. A whole number has no point, and zero keeps its sign. -/
def text (x : Float) : String :=
  match x.toModel.unpack with
  | .notANumber => "NaN"
  | .infinity .positive => "inf"
  | .infinity .negative => "-inf"
  | .zero .positive => "0"
  | .zero .negative => "-0"
  | .finite .positive mantissa exponent _ => (decimal mantissa exponent).text
  | .finite .negative mantissa exponent _ => "-" ++ (decimal mantissa exponent).text

end ProviderScout.Shortest
