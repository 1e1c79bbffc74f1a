import ProviderScout.Number.Counter

namespace ProviderScout

/-- The exact value of a finite double. -/
def exactValue? (x : Float) : Option Rat :=
  match x.toModel.unpack with
  | .notANumber | .infinity _ => none
  | .zero _ => some 0
  | .finite sign mantissa exponent _ =>
    let n : Int := match sign with
      | .positive => mantissa
      | .negative => -mantissa
    some (match exponent with
      | .ofNat e => Rat.ofInt (n * (1 <<< e : Nat))
      | .negSucc e => mkRat n (1 <<< (e + 1)))

/-- The whole number nearest to a non-negative rational; halves go up. -/
def roundHalfUp (q : Rat) : Nat :=
  ((2 * q.num + q.den) / (2 * q.den)).toNat

/-- The whole number nearest to a non-negative rational; halves go to the even neighbour. -/
def roundHalfEven (q : Rat) : Nat :=
  let whole := (q.num / q.den).toNat
  let rest := 2 * (q.num % q.den)
  if rest < q.den ∨ (rest = q.den ∧ whole % 2 = 0) then whole else whole + 1

/-- The count nearest to a speed, halves going up, kept in a counter's range.
A speed that is no number counts as 0. -/
def Counter.ofFloat (x : Float) : Nat :=
  match exactValue? x with
  | some q => Nat.min (roundHalfUp q) Counter.max
  | none => if 0 < x then Counter.max else 0

end ProviderScout
