/-!
The arithmetic that speeds, rates and scores are computed in. Answers are computed in doubles; the
same formulas can be read over the exact rationals, where they have the laws of a field.
-/

namespace ProviderScout

/-- A type of measured quantities. -/
class Quantity (α : Type) extends Add α, Sub α, Mul α, Div α, LE α, LT α, OfScientific α where
  ofCount : Nat → α
  decidableLE : DecidableLE α
  decidableLT : DecidableLT α

attribute [reducible, instance] Quantity.decidableLE Quantity.decidableLT

instance : Quantity Float where
  add := Float.add
  sub := Float.sub
  mul := Float.mul
  div := Float.div
  le a b := a.le b
  lt a b := a.lt b
  ofScientific := Float.ofScientific
  ofCount := Float.ofNat
  decidableLE := Float.decLe
  decidableLT := Float.decLt

instance : Quantity Rat where
  add := Rat.add
  sub := Rat.sub
  mul := Rat.mul
  div := Rat.div
  le a b := b.blt a = false
  lt a b := a.blt b
  ofScientific := Rat.ofScientific
  ofCount n := Rat.ofInt n
  decidableLE a b := inferInstanceAs (Decidable (b.blt a = false))
  decidableLT a b := inferInstanceAs (Decidable (a.blt b = true))

namespace Quantity

variable {α : Type} [Quantity α]

def isZero (x : α) : Bool := decide (x ≤ (0.0 : α)) && decide ((0.0 : α) ≤ x)

/-- The larger of two quantities, where `a` is a number; a `b` that is no number does not count. -/
def larger (a b : α) : α := if a < b then b else a

/-- The largest quantity of a list, at least zero. -/
def largest (xs : List α) : α := xs.foldl larger (0.0 : α)

end Quantity

end ProviderScout
