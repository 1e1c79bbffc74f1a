import ProviderScout.Number.Counter
import ProviderScout.Proofs.Number.Rounding

namespace ProviderScout.Double

open Float.Model (Format UnpackedFloat totalExponent)
open Float.Model.UnpackedFloat

def parts (x : Float) : UnpackedFloat := x.toModel.unpack

theorem rounded_parts (x : Float) : Rounded (parts x) := rounded_unpack _

theorem held_parts (x : Float) : held (parts x) = parts x := held_unpack _

theorem parts_add (x y : Float) : parts (x + y) = held (add .binary64 (parts x) (parts y)) :=
  unpack_pack (rounded_add (rounded_parts x) (rounded_parts y))

theorem parts_sub (x y : Float) : parts (x - y) = held (add .binary64 (parts x) (parts y).neg) := by
  rw [← sub_eq_add_neg]
  apply unpack_pack
  rw [sub_eq_add_neg]
  exact rounded_add (rounded_parts x) (rounded_neg (rounded_parts y))

theorem parts_mul (x y : Float) : parts (x * y) = held (mul .binary64 (parts x) (parts y)) :=
  unpack_pack (rounded_mul (rounded_parts x) (rounded_parts y))

theorem parts_div (x y : Float) : parts (x / y) = held (div .binary64 (parts x) (parts y)) :=
  unpack_pack rounded_div

/-- Whether a number is zero or positive and less than a power of two. -/
inductive IsBelow (k : Int) : UnpackedFloat → Prop where
  | zero : IsBelow k (.zero .positive)
  | finite {m : Nat} {e : Int} (hm : 0 < m) (h : totalExponent m e ≤ k) :
      IsBelow k (.finite .positive m e hm)

/-- Whether a number is at least a power of two. It may be infinite. -/
inductive IsFrom (k : Int) : UnpackedFloat → Prop where
  | infinity : IsFrom k (.infinity .positive)
  | finite {m : Nat} {e : Int} (hm : 0 < m) (h : k < totalExponent m e) :
      IsFrom k (.finite .positive m e hm)

instance (k : Int) (u : UnpackedFloat) : Decidable (IsBelow k u) :=
  match u with
  | .zero .positive => .isTrue .zero
  | .finite .positive m e hm =>
    decidable_of_iff (totalExponent m e ≤ k) ⟨.finite hm, fun | .finite _ h => h⟩
  | .zero .negative | .finite .negative _ _ _ | .infinity _ | .notANumber => .isFalse nofun

instance (k : Int) (u : UnpackedFloat) : Decidable (IsFrom k u) :=
  match u with
  | .infinity .positive => .isTrue .infinity
  | .finite .positive m e hm =>
    decidable_of_iff (k < totalExponent m e) ⟨.finite hm, fun | .finite _ h => h⟩
  | .infinity .negative | .finite .negative _ _ _ | .zero _ | .notANumber => .isFalse nofun

/-- Whether a double is from zero to less than a power of two. -/
abbrev Below (k : Int) (x : Float) : Prop := IsBelow k (parts x)

/-- Whether a double is at least a power of two. -/
abbrev From (k : Int) (x : Float) : Prop := IsFrom k (parts x)

theorem below_cases {k : Int} {x : Float} (h : Below k x) :
    parts x = .zero .positive ∨ ∃ m e hm, parts x = .finite .positive m e hm ∧ Canonical m e ∧
      totalExponent m e ≤ k := by
  have hrounded := rounded_parts x
  rw [Below] at h
  generalize parts x = u at h hrounded
  cases h with
  | zero => exact .inl rfl
  | finite hm h => exact .inr ⟨_, _, hm, rfl, hrounded, h⟩

theorem from_cases {k : Int} {x : Float} (h : From k x) :
    parts x = .infinity .positive ∨ ∃ m e hm, parts x = .finite .positive m e hm ∧
      Canonical m e ∧ k < totalExponent m e := by
  have hrounded := rounded_parts x
  rw [From] at h
  generalize parts x = u at h hrounded
  cases h with
  | infinity => exact .inl rfl
  | finite hm h => exact .inr ⟨_, _, hm, rfl, hrounded, h⟩

theorem below_of_zero {k : Int} {x : Float} (h : parts x = .zero .positive) : Below k x := by
  rw [Below, h]
  exact .zero

theorem below_of_finite {k : Int} {x : Float} {m : Nat} {e : Int} (hm : 0 < m)
    (h : parts x = .finite .positive m e hm) (hk : totalExponent m e ≤ k) : Below k x := by
  rw [Below, h]
  exact .finite hm hk

theorem held_of_place {m : Nat} {e : Int} (s : Sign) (hm : 0 < m) (h : Canonical m e)
    (hplace : totalExponent m e ≤ 1024) : held (.finite s m e hm) = .finite s m e hm := by
  apply if_neg
  intro hlarge
  have hnormal : 2 ^ 52 ≤ m := h.2.2.resolve_right (by omega)
  have hlog : 52 ≤ m.log2 := (Nat.le_log2 (Nat.ne_of_gt hm)).2 hnormal
  rw [totalExponent] at hplace
  omega

theorem isBelow_held {u : UnpackedFloat} {place k : Int} (h : IsRounding place .positive u)
    (hk : max place (-1074) + 1 ≤ k) (hmost : k ≤ 1024) : IsBelow k (held u) := by
  cases h with
  | zero hplace => exact .zero
  | finite hm hform hplace hleast =>
    rw [held_of_place .positive hm hform (by omega)]
    exact .finite hm (Int.le_trans hplace hk)

theorem isFrom_held {u : UnpackedFloat} {place k : Int} (h : IsRounding place .positive u)
    (hk : k < place) (hleast : -1022 ≤ k) : IsFrom k (held u) := by
  cases h with
  | zero hplace => omega
  | finite hm hform hmost hplace =>
    rw [held]
    split
    · exact .infinity
    · exact .finite hm (Int.lt_of_lt_of_le hk (hplace (by omega)))

theorem below_mono {j k : Int} (hjk : j ≤ k) {x : Float} (h : Below j x) : Below k x := by
  rcases below_cases h with hx | ⟨m, e, hm, hx, _, hplace⟩
  · exact below_of_zero hx
  · exact below_of_finite hm hx (Int.le_trans hplace hjk)

theorem below_or_from {j : Int} {x : Float} (h : Below j x) (k : Int) : Below k x ∨ From k x := by
  rcases below_cases h with hx | ⟨m, e, hm, hx, _, _⟩
  · exact .inl (below_of_zero hx)
  · by_cases hk : totalExponent m e ≤ k
    · exact .inl (below_of_finite hm hx hk)
    · right
      rw [From, hx]
      exact .finite hm (Int.lt_of_not_ge hk)

section

variable {j k : Int} {x y : Float}

theorem below_mul (hx : Below j x) (hy : Below k y) (hleast : -1074 ≤ j + k)
    (hmost : j + k ≤ 1023) : Below (j + k + 1) (x * y) := by
  rcases below_cases hx with hx | ⟨m, d, hm, hx, hcx, hpx⟩
  · apply below_of_zero
    rcases below_cases hy with hy | ⟨n, e, hn, hy, _, _⟩
    all_goals
      rw [parts_mul, hx, hy]
      rfl
  · rcases below_cases hy with hy | ⟨n, e, hn, hy, hcy, hpy⟩
    · apply below_of_zero
      rw [parts_mul, hx, hy]
      rfl
    · have hplace := (totalExponent_mul hm hn d e).2
      rw [Below, parts_mul, hx, hy]
      exact isBelow_held (isRounding_mul .positive .positive hm hn hcx hcy) (by omega) (by omega)

theorem from_mul (hx : From j x) (hy : From k y) (hleast : -1022 ≤ j + k) :
    From (j + k) (x * y) := by
  rw [From, parts_mul]
  rcases from_cases hx with hx | ⟨m, d, hm, hx, hcx, hpx⟩
  · rcases from_cases hy with hy | ⟨n, e, hn, hy, _, _⟩
    all_goals
      rw [hx, hy]
      exact .infinity
  · rcases from_cases hy with hy | ⟨n, e, hn, hy, hcy, hpy⟩
    · rw [hx, hy]
      exact .infinity
    · have hplace := (totalExponent_mul hm hn d e).1
      rw [hx, hy]
      exact isFrom_held (isRounding_mul .positive .positive hm hn hcx hcy) (by omega) (by omega)

theorem below_div (hx : Below j x) (hy : From k y) (hleast : -1073 ≤ j - k)
    (hmost : j - k ≤ 1023) : Below (j - k + 1) (x / y) := by
  rcases below_cases hx with hx | ⟨m, d, hm, hx, hcx, hpx⟩
  · apply below_of_zero
    rcases from_cases hy with hy | ⟨n, e, hn, hy, _, _⟩
    all_goals
      rw [parts_div, hx, hy]
      rfl
  · rcases from_cases hy with hy | ⟨n, e, hn, hy, hcy, hpy⟩
    · apply below_of_zero
      rw [parts_div, hx, hy]
      rfl
    · obtain ⟨place, hplace, h⟩ :=
        exists_isRounding_div .positive .positive (d := d) (e := e) hm hn
      rw [Below, parts_div, hx, hy]
      exact isBelow_held h (by omega) (by omega)

theorem below_add (hx : Below j x) (hy : Below k y) (hleast : -1075 ≤ max j k)
    (hmost : max j k ≤ 1022) : Below (max j k + 2) (x + y) := by
  rcases below_cases hx with hx | ⟨m, d, hm, hx, hcx, hpx⟩
  · rcases below_cases hy with hy | ⟨n, e, hn, hy, hcy, hpy⟩
    · apply below_of_zero
      rw [parts_add, hx, hy]
      rfl
    · apply below_of_finite (e := e) hn _ (by omega)
      rw [parts_add, hx, hy]
      exact held_of_place .positive hn hcy (by omega)
  · rcases below_cases hy with hy | ⟨n, e, hn, hy, hcy, hpy⟩
    · apply below_of_finite (e := d) hm _ (by omega)
      rw [parts_add, hx, hy]
      exact held_of_place .positive hm hcx (by omega)
    · rw [Below, parts_add, hx, hy]
      rcases isRounding_add d e hm hn with hzero | ⟨place, hplace, h⟩
      · rw [hzero]
        exact .zero
      · exact isBelow_held h (by omega) (by omega)

theorem le_iff : x ≤ y ↔ (parts x).le (parts y) = true := by
  change decide _ = true ↔ _
  rw [decide_eq_true_iff]
  rfl

theorem lt_iff : x < y ↔ (parts x).compare (parts y) = some .lt := by
  change decide _ = true ↔ _
  rw [decide_eq_true_iff]
  exact beq_iff_eq

theorem notAbove_of_le {m n : Nat} {d e : Int} {hm : 0 < m} {hn : 0 < n}
    (hx : parts x = .finite .positive m d hm) (hy : parts y = .finite .positive n e hn)
    (h : x ≤ y) : NotAbove m d n e := by
  rw [le_iff, hx, hy] at h
  have hle : ((compare d e).then (compare m n)).isLE = true := h
  rw [Ordering.isLE_then_iff_or, compare_lt_iff_lt, compare_eq_iff_eq, Nat.isLE_compare] at hle
  exact hle

theorem not_le_of_from (hx : From k x) (hy : Below k y) : ¬ x ≤ y := by
  intro hle
  rcases from_cases hx with hx | ⟨m, d, hm, hx, hcx, hpx⟩
  · rcases below_cases hy with hy | ⟨n, e, hn, hy, _, _⟩
    all_goals
      rw [le_iff, hx, hy] at hle
      cases hle
  · rcases below_cases hy with hy | ⟨n, e, hn, hy, hcy, hpy⟩
    · rw [le_iff, hx, hy] at hle
      cases hle
    · have hplace := totalExponent_le_of_notAbove hcx hcy (notAbove_of_le hx hy hle)
      omega

theorem below_of_le (hx : Below j x) (hy : Below k y) (h : x ≤ y) : Below k x := by
  rcases below_or_from hx k with hbelow | hfrom
  · exact hbelow
  · exact absurd h (not_le_of_from hfrom hy)

theorem below_of_from_of_le (hx : From j x) (hy : Below k y) (h : x ≤ y) : Below k x := by
  rcases from_cases hx with hinf | ⟨m, d, hm, hfinite, _, _⟩
  · have hfrom : From k x := by
      rw [From, hinf]
      exact .infinity
    exact absurd h (not_le_of_from hfrom hy)
  · exact below_of_le (below_of_finite hm hfinite (Int.le_refl _)) hy h

theorem below_sub (hx : Below j x) (hy : Below k y) (h : y ≤ x) (hleast : -1074 ≤ j)
    (hmost : j ≤ 1023) : Below (j + 1) (x - y) := by
  rcases below_cases hx with hx | ⟨m, d, hm, hx, hcx, hpx⟩
  · rcases below_cases hy with hy | ⟨n, e, hn, hy, hcy, hpy⟩
    · apply below_of_zero
      rw [parts_sub, hx, hy]
      rfl
    · rw [le_iff, hx, hy] at h
      cases h
  · rcases below_cases hy with hy | ⟨n, e, hn, hy, hcy, hpy⟩
    · apply below_of_finite (e := d) hm _ (by omega)
      rw [parts_sub, hx, hy]
      exact held_of_place .positive hm hcx (by omega)
    · rw [Below, parts_sub, hx, hy]
      rcases isRounding_sub hm hn hcx hcy (notAbove_of_le hy hx h) with hzero | ⟨place, hplace, h⟩
      · change IsBelow _ (held (add .binary64 (.finite .positive m d hm) (.finite .negative n e hn)))
        rw [hzero]
        exact .zero
      · exact isBelow_held h (by omega) (by omega)

theorem exists_place (hx : Below k x) (hpos : 0.0 < x) :
    ∃ t, -1074 < t ∧ t ≤ k ∧ Below t x ∧ From (t - 1) x := by
  rcases below_cases hx with hx | ⟨m, d, hm, hx, hcx, hpx⟩
  · rw [lt_iff, hx] at hpos
    exact absurd hpos (by decide)
  · refine ⟨totalExponent m d, ?_, hpx, below_of_finite hm hx (Int.le_refl _), ?_⟩
    · have hleast := hcx.2.1
      rw [totalExponent]
      omega
    · rw [From, hx]
      exact .finite hm (Int.sub_one_lt_of_le (Int.le_refl _))

end

def key : UnpackedFloat → Int ×ₗ Int ×ₗ Int
  | .infinity s => toLex (s.apply 2, toLex (0, 0))
  | .finite s m e _ => toLex (s.apply 1, toLex (s.apply e, s.apply m))
  | .zero _ | .notANumber => toLex (0, toLex (0, 0))

theorem then_eq_lt_iff (d e : Int) (m n : Nat) :
    (compare d e).then (compare m n) = .lt ↔ d < e ∨ d = e ∧ m < n := by
  rw [Ordering.then_eq_lt, compare_lt_iff_lt, compare_eq_iff_eq, compare_lt_iff_lt]

theorem then_eq_gt_iff (d e : Int) (m n : Nat) :
    (compare d e).then (compare m n) = .gt ↔ e < d ∨ d = e ∧ n < m := by
  rw [Ordering.then_eq_gt, compare_gt_iff_gt, compare_eq_iff_eq, compare_gt_iff_gt]

theorem compare_eq_lt_iff {u v : UnpackedFloat} (hu : u ≠ .notANumber) (hv : v ≠ .notANumber) :
    u.compare v = some .lt ↔ key u < key v := by
  -- Of two kinds the first part decides; of one sign it is the exponent and then the mantissa.
  rcases u with (_ | _) | _ | (_ | _) | ⟨_ | _, m, d, hm⟩ <;>
    rcases v with (_ | _) | _ | (_ | _) | ⟨_ | _, n, e, hn⟩ <;>
    simp [UnpackedFloat.compare, key, Sign.apply, Prod.Lex.toLex_lt_toLex, Ordering.swap_eq_lt,
      then_eq_lt_iff, then_eq_gt_iff] at hu hv ⊢
  case infinity.negative.infinity.positive => rfl

theorem compare_eq_eq_iff {u v : UnpackedFloat} (hu : u ≠ .notANumber) (hv : v ≠ .notANumber) :
    u.compare v = some .eq ↔ key u = key v := by
  rcases u with (_ | _) | _ | (_ | _) | ⟨_ | _, m, d, hm⟩ <;>
    rcases v with (_ | _) | _ | (_ | _) | ⟨_ | _, n, e, hn⟩ <;>
    simp [UnpackedFloat.compare, key, Sign.apply, Ordering.swap_eq_eq] at hu hv ⊢
  case infinity.negative.infinity.negative => rfl
  case infinity.positive.infinity.positive => rfl

section

variable {x y : Float}

theorem isNaN_iff : x.isNaN = true ↔ parts x = .notANumber := by
  change (parts x).isNaN = true ↔ _
  cases parts x <;> simp [UnpackedFloat.isNaN]

theorem lt_iff_key (hx : ¬ x.isNaN) (hy : ¬ y.isNaN) : x < y ↔ key (parts x) < key (parts y) :=
  lt_iff.trans (compare_eq_lt_iff (mt isNaN_iff.2 hx) (mt isNaN_iff.2 hy))

theorem beq_iff_key (hx : ¬ x.isNaN) (hy : ¬ y.isNaN) :
    (x == y) = true ↔ key (parts x) = key (parts y) := by
  have heq := compare_eq_eq_iff (mt isNaN_iff.2 hx) (mt isNaN_iff.2 hy)
  rw [← heq]
  change ((parts x).compare (parts y) == some .eq) = true ↔ _
  exact beq_iff_eq

theorem le_iff_key (hx : ¬ x.isNaN) (hy : ¬ y.isNaN) :
    x ≤ y ↔ key (parts x) ≤ key (parts y) := by
  have hlt := compare_eq_lt_iff (mt isNaN_iff.2 hx) (mt isNaN_iff.2 hy)
  have heq := compare_eq_eq_iff (mt isNaN_iff.2 hx) (mt isNaN_iff.2 hy)
  rw [le_iff, le_iff_lt_or_eq, ← hlt, ← heq, UnpackedFloat.le]
  rcases (parts x).compare (parts y) with _ | _ | _ | _ <;> decide

theorem lt_of_not_le (hx : ¬ x.isNaN) (hy : ¬ y.isNaN) (h : ¬ x ≤ y) : y < x :=
  (lt_iff_key hy hx).2 (lt_of_not_ge (mt (le_iff_key hx hy).2 h))

theorem isNaN_held (u : UnpackedFloat) : (held u).isNaN = u.isNaN := by
  cases u with
  | finite s m e hm =>
    rw [held]
    split <;> rfl
  | _ => rfl

theorem isNaN_of_isRounding {place : Int} {s : Sign} {u : UnpackedFloat}
    (h : IsRounding place s u) : u.isNaN = false := by
  cases h <;> rfl

theorem isNaN_normalize (m e : Int) (s : Sign) : (normalize .binary64 m e s).isNaN = false := by
  by_cases hm : m = 0
  · rw [hm]
    rfl
  · exact isNaN_of_isRounding (isRounding_normalize hm e s)

theorem isNaN_of_below {k : Int} (h : Below k x) : x.isNaN = false := by
  change (parts x).isNaN = false
  rcases below_cases h with hx | ⟨m, e, hm, hx, _⟩ <;> rw [hx] <;> rfl

theorem isNaN_add {k : Int} (hx : Below k x) (y : Float) : (x + y).isNaN = y.isNaN := by
  change (parts (x + y)).isNaN = (parts y).isNaN
  rw [parts_add, isNaN_held]
  rcases below_cases hx with hx | ⟨m, d, hm, hx, _⟩
  · rw [hx]
    cases parts y with
    | zero s => cases s <;> rfl
    | _ => rfl
  · rw [hx]
    cases parts y with
    | finite s n e hn => exact isNaN_normalize _ _ _
    | _ => rfl

theorem isNaN_add_right {k : Int} (x : Float) (hy : Below k y) : (x + y).isNaN = x.isNaN := by
  change (parts (x + y)).isNaN = (parts x).isNaN
  rw [parts_add, isNaN_held]
  rcases below_cases hy with hy | ⟨n, e, hn, hy, _⟩
  · rw [hy]
    cases parts x with
    | zero s => cases s <;> rfl
    | _ => rfl
  · rw [hy]
    cases parts x with
    | finite s m d hm => exact isNaN_normalize _ _ _
    | _ => rfl

theorem isNaN_mul {j k : Int} (hx : Below j x) (hpos : From k x) (y : Float) :
    (x * y).isNaN = y.isNaN := by
  have hrounded := rounded_parts y
  change (parts (x * y)).isNaN = (parts y).isNaN
  rw [parts_mul, isNaN_held]
  rcases below_cases hx with hx | ⟨m, d, hm, hx, hcx, _⟩
  · rw [From, hx] at hpos
    cases hpos
  · rw [hx]
    generalize parts y = v at hrounded
    cases v with
    | finite s n e hn => exact isNaN_of_isRounding (isRounding_mul .positive s hm hn hcx hrounded)
    | _ => rfl

theorem isNaN_div {k : Int} (x : Float) (hy : From k y) :
    (x / y).isNaN = (x.isNaN || x.isInf && y.isInf) := by
  change (parts (x / y)).isNaN = ((parts x).isNaN || (parts x).isInf && (parts y).isInf)
  rw [parts_div, isNaN_held]
  rcases from_cases hy with hy | ⟨n, e, hn, hy, _, _⟩
  · rw [hy]
    cases parts x <;> rfl
  · rw [hy]
    cases parts x with
    | finite s m d hm =>
      obtain ⟨_, _, h⟩ := exists_isRounding_div s .positive (d := d) (e := e) hm hn
      exact isNaN_of_isRounding h
    | _ => rfl

theorem parts_zero : parts 0.0 = .zero .positive := rfl

theorem not_isInf_of_zero (hle : x ≤ 0.0) (hge : 0.0 ≤ x) : ¬ x.isInf := by
  change ¬ (parts x).isInf
  rw [le_iff, parts_zero] at hle hge
  generalize parts x = u at hle hge
  rcases u with (_ | _) | _ | _ | _
  case infinity.negative => cases hge
  case infinity.positive => cases hle
  all_goals exact nofun

theorem from_of_pos (h : 0.0 < x) : From (-1074) x := by
  have hrounded := rounded_parts x
  rw [lt_iff, parts_zero] at h
  rw [From]
  generalize parts x = u at h hrounded
  rcases u with (_ | _) | _ | (_ | _) | ⟨_ | _, m, e, hm⟩
  case infinity.positive => exact .infinity
  case finite.positive =>
    have hleast := hrounded.2.1
    apply IsFrom.finite hm
    rw [totalExponent]
    omega
  all_goals cases h

end

theorem parts_toFloat (n : UInt64) :
    parts n.toFloat = held (normalize .binary64 n.toNat 0 .positive) :=
  unpack_pack (rounded_normalize _ _ _)

theorem ofNat_of_lt {n : Nat} (h : n < 2 ^ 53) : Float.ofNat n = n.toUInt64.toFloat * 1.0 := by
  have hone : (1.0 : Float) = Float.exactlyRepresentablePowersOfTen[0] := by decide +kernel
  rw [hone]
  exact dif_pos ⟨h, by decide⟩

theorem ofScientific_eq {n k : Nat} (h : n ≠ 0) (hk : k ≤ 2048) :
    UnpackedFloat.ofScientific .binary64 n k =
      roundWithAccuracy .binary64 .positive ((n * 10 ^ k) <<< 53) (0 - (53 : Nat)) .exact := by
  have hpow : (2 : Int) ^ Format.binary64.exponentBits = 2048 := rfl
  have hlarge : ¬ (k : Int) > (2 : Int) ^ Format.binary64.exponentBits := by
    rw [hpow]
    omega
  have hsmall : ¬ (k : Int) < -((2 : Int) ^ Format.binary64.exponentBits + n.log2) := by
    rw [hpow]
    omega
  have hdigits : (n * 10 ^ k) <<< 53 = (n <<< 53) * 10 ^ k := by
    rw [Nat.shiftLeft_eq, Nat.shiftLeft_eq, Nat.mul_right_comm]
  rw [UnpackedFloat.ofScientific, dif_neg h, if_neg hlarge, if_neg hsmall,
    if_pos (Int.natCast_nonneg k), hdigits]
  rfl

/-- Zeros behind a mantissa are not digits that rounding looks at. -/
theorem isRounding_of_shiftLeft {n k : Nat} (hn : 0 < n) (hk : 53 ≤ k) :
    IsRounding (totalExponent n 0) .positive
      (roundWithAccuracy .binary64 .positive (n <<< k) (0 - k) .exact) := by
  have hplace := totalExponent_shiftLeft hn 0 k
  rw [← hplace]
  apply isRounding_roundWithAccuracy
  rw [hplace, targetExponent_eq, totalExponent]
  omega

theorem parts_pack {u : UnpackedFloat} (h : Rounded u) : parts (.ofModel (.pack u)) = held u :=
  unpack_pack h

theorem ofScientific_of_large {n k : Nat} (h : ¬ (n < 2 ^ 53 ∧ k ≤ 22)) :
    Float.ofScientific n false k = .ofModel (.pack (UnpackedFloat.ofScientific .binary64 n k)) :=
  dif_neg h

theorem exists_ofScientific {n k : Nat} (h : ¬ (n < 2 ^ 53 ∧ k ≤ 22)) (hn : 0 < n)
    (hk : k ≤ 2048) :
    ∃ u, Float.ofScientific n false k = .ofModel (.pack u) ∧
      IsRounding (totalExponent (n * 10 ^ k) 0) .positive u := by
  have hscientific := ofScientific_of_large h
  rw [ofScientific_eq (Nat.ne_of_gt hn) hk] at hscientific
  have hpos : 0 < n * 10 ^ k := Nat.mul_pos hn (Nat.pow_pos (by decide))
  exact ⟨_, hscientific, isRounding_of_shiftLeft hpos (Nat.le_refl 53)⟩

theorem isRounding_ofScientific {n k : Nat} (h : ¬ (n < 2 ^ 53 ∧ k ≤ 22)) (hn : 0 < n)
    (hk : k ≤ 2048) :
    ∃ u, parts (Float.ofScientific n false k) = held u ∧
      IsRounding (totalExponent (n * 10 ^ k) 0) .positive u := by
  obtain ⟨u, hu, hround⟩ := exists_ofScientific h hn hk
  refine ⟨u, ?_, hround⟩
  rw [hu]
  exact parts_pack (rounded_of_isRounding hround)

theorem isRounding_ofNat {n : Nat} (h : ¬ n < 2 ^ 53) :
    ∃ u, parts (Float.ofNat n) = held u ∧ IsRounding (totalExponent n 0) .positive u := by
  obtain ⟨u, hu, hround⟩ :=
    isRounding_ofScientific (n := n) (k := 0) (fun hsmall => h hsmall.1) (by omega) (by decide)
  rw [Nat.pow_zero, Nat.mul_one] at hround
  exact ⟨u, hu, hround⟩

theorem below_ofNat {n k : Nat} (h : n < 2 ^ (k + 1)) (hmost : k ≤ 1000) :
    Below (k + 4) (Float.ofNat n) := by
  have hlog := log2_le_of_lt h
  by_cases hn : n < 2 ^ 53
  · have hcount : Below (k + 2) n.toUInt64.toFloat := by
      rw [Below, parts_toFloat, UInt64.toNat_ofNat_of_lt' (Nat.lt_trans hn (by decide))]
      rcases normalize_natCast n 0 with hzero | hround
      · rw [hzero]
        exact .zero
      · rw [totalExponent] at hround
        exact isBelow_held hround (by omega) (by omega)
    rw [ofNat_of_lt hn]
    exact below_mono (by omega) (below_mul hcount (k := 1) (by decide +kernel) (by omega) (by omega))
  · obtain ⟨u, hu, hround⟩ := isRounding_ofNat hn
    rw [totalExponent] at hround
    rw [Below, hu]
    exact isBelow_held hround (by omega) (by omega)

theorem below_ofCount {n : Nat} (h : n ≤ Counter.max) : Below 67 (Float.ofNat n) :=
  below_ofNat (k := 63) (Nat.lt_succ_of_le h) (by decide)

theorem from_ofNat {n : Nat} (h : 0 < n) : From 0 (Float.ofNat n) := by
  by_cases hn : n < 2 ^ 53
  · have hcount : From 0 n.toUInt64.toFloat := by
      rw [From, parts_toFloat, UInt64.toNat_ofNat_of_lt' (Nat.lt_trans hn (by decide))]
      have hround := isRounding_normalize (Int.natCast_ne_zero.2 (Nat.ne_of_gt h)) 0 .positive
      rw [if_neg (by omega), Int.natAbs_natCast, totalExponent] at hround
      exact isFrom_held hround (by omega) (by omega)
    rw [ofNat_of_lt hn]
    exact from_mul hcount (k := 0) (by decide +kernel) (by omega)
  · obtain ⟨u, hu, hround⟩ := isRounding_ofNat hn
    rw [totalExponent] at hround
    rw [From, hu]
    exact isFrom_held hround (by omega) (by omega)

theorem isNaN_larger {x y : Float} (hx : ¬ x.isNaN) (hy : ¬ y.isNaN) :
    ¬ (Quantity.larger x y).isNaN := by
  rw [Quantity.larger]
  split
  · exact hy
  · exact hx

theorem key_larger {x y : Float} (hx : ¬ x.isNaN) (hy : ¬ y.isNaN) :
    key (parts x) ≤ key (parts (Quantity.larger x y)) ∧
      key (parts y) ≤ key (parts (Quantity.larger x y)) := by
  rw [Quantity.larger]
  split
  · rename_i hlt
    exact ⟨le_of_lt ((lt_iff_key hx hy).1 hlt), le_refl _⟩
  · rename_i hlt
    exact ⟨le_refl _, le_of_not_gt (mt (lt_iff_key hx hy).2 hlt)⟩

theorem largest_spec {xs : List Float} (h : ∀ x ∈ xs, ¬ x.isNaN) :
    ¬ (Quantity.largest xs).isNaN ∧ 0.0 ≤ Quantity.largest xs ∧
      ∀ x ∈ xs, x ≤ Quantity.largest xs := by
  have hfold (start : Float) (hstart : ¬ start.isNaN) :
      ¬ (xs.foldl Quantity.larger start).isNaN ∧
        key (parts start) ≤ key (parts (xs.foldl Quantity.larger start)) ∧
        ∀ x ∈ xs, key (parts x) ≤ key (parts (xs.foldl Quantity.larger start)) := by
    induction xs generalizing start with
    | nil => exact ⟨hstart, le_refl _, nofun⟩
    | cons y rest ih =>
      have hy : ¬ y.isNaN := h y List.mem_cons_self
      obtain ⟨hnumber, hle, hall⟩ :=
        ih (fun x hx => h x (List.mem_cons_of_mem y hx)) _ (isNaN_larger hstart hy)
      obtain ⟨hkept, htaken⟩ := key_larger hstart hy
      refine ⟨hnumber, le_trans hkept hle, fun x hx => ?_⟩
      rcases List.mem_cons.1 hx with rfl | hx
      · exact le_trans htaken hle
      · exact hall x hx
  have hzero : ¬ (0.0 : Float).isNaN := by decide +kernel
  obtain ⟨hnumber, hle, hall⟩ := hfold 0.0 hzero
  exact ⟨hnumber, (le_iff_key hzero hnumber).2 hle,
    fun x hx => (le_iff_key (h x hx) hnumber).2 (hall x hx)⟩

theorem below_largest {k : Int} {xs : List Float} (h : ∀ x ∈ xs, Below k x) :
    Below k (Quantity.largest xs) := by
  have hfold (start : Float) (hstart : Below k start) : Below k (xs.foldl Quantity.larger start) := by
    induction xs generalizing start with
    | nil => exact hstart
    | cons y rest ih =>
      apply ih (fun x hx => h x (List.mem_cons_of_mem y hx))
      rw [Quantity.larger]
      split
      · exact h y List.mem_cons_self
      · exact hstart
  exact hfold 0.0 (below_of_zero parts_zero)

theorem isFinite_of_below {k : Int} {x : Float} (h : Below k x) : x.isFinite = true := by
  change (parts x).isFinite = true
  rw [Below] at h
  generalize parts x = u at h
  cases h <;> rfl

theorem parts_neg (x : Float) : parts (-x) = held (parts x).neg :=
  unpack_pack (rounded_neg (rounded_parts x))

theorem isFinite_neg {x : Float} (h : x.isFinite = true) : (-x).isFinite = true := by
  have hheld := held_parts x
  change (parts x).isFinite = true at h
  change (parts (-x)).isFinite = true
  rw [parts_neg]
  generalize parts x = u at h hheld
  cases u with
  | finite s m e hm =>
    have hsmall : ¬ 972 ≤ e := fun hlarge => by
      rw [held, if_pos hlarge] at hheld
      cases hheld
    change (held (.finite _ m e hm)).isFinite = true
    rw [held, if_neg hsmall]
    rfl
  | zero s => rfl
  | _ => cases h

theorem isFinite_ofInt {n : Int} (h : n.natAbs < 2 ^ 64) : (Float.ofInt n).isFinite = true := by
  cases n with
  | ofNat n => exact isFinite_of_below (below_ofNat (k := 63) h (by decide))
  | negSucc n => exact isFinite_neg (isFinite_of_below (below_ofNat (k := 63) h (by decide)))

theorem isFinite_mul {j : Int} {x y : Float} (hx : Below j x) (hy : Below 1024 y)
    (h : (x * y).isInf = false) : (x * y).isFinite = true := by
  rcases below_or_from hx (-1) with hsmall | hlarge
  · exact isFinite_of_below (below_mul hsmall hy (by decide) (by decide))
  · have hnumber : (x * y).isNaN = false :=
      (isNaN_mul hx hlarge y).trans (isNaN_of_below hy)
    change (parts (x * y)).isInf = false at h
    change (parts (x * y)).isNaN = false at hnumber
    change (parts (x * y)).isFinite = true
    generalize parts (x * y) = u at h hnumber
    cases u with
    | infinity s => cases h
    | notANumber => cases hnumber
    | _ => rfl

theorem isFinite_of_between {x y z : Float} (hx : x.isFinite = true) (hz : z.isFinite = true)
    (hxy : x ≤ y) (hyz : y ≤ z) : y.isFinite = true := by
  change (parts x).isFinite = true at hx
  change (parts z).isFinite = true at hz
  change (parts y).isFinite = true
  rw [le_iff] at hxy hyz
  have hpositive {w : UnpackedFloat} (hw : w.isFinite = true)
      (h : (UnpackedFloat.infinity .positive).le w = true) : False := by
    cases w with
    | zero s => cases s <;> cases h
    | finite s m e hm => cases s <;> cases h
    | _ => cases hw
  have hnegative {u : UnpackedFloat} (hu : u.isFinite = true)
      (h : u.le (UnpackedFloat.infinity .negative) = true) : False := by
    cases u with
    | zero s => cases s <;> cases h
    | finite s m e hm => cases s <;> cases h
    | _ => cases hu
  generalize parts y = v at hxy hyz
  cases v with
  | zero s => rfl
  | finite s m e hm => rfl
  | notANumber => cases parts z <;> cases hyz
  | infinity s =>
    cases s with
    | positive => exact (hpositive hz hyz).elim
    | negative => exact (hnegative hx hxy).elim

end ProviderScout.Double
