import ProviderScout.Performance.Model

namespace ProviderScout

def Column.max : Nat := 9223372036854775807

theorem Column.toInt_ofCounter (n : Nat) :
    (Column.ofCounter n).toInt = (min n Column.max : Nat) := by
  have hm : Int64.maxValue.toInt = Column.max := rfl
  rw [Column.ofCounter]
  split
  · rename_i h
    rw [hm, Int.ofNat_le] at h
    rw [Int64.toInt_ofNat_of_lt (Nat.lt_of_le_of_lt h (by decide)), Nat.min_eq_left h]
  · rename_i h
    rw [hm, Int.ofNat_le] at h
    rw [hm, Nat.min_eq_right (Nat.le_of_not_le h)]

theorem Counter.ofColumn_ofCounter (n : Nat) :
    Counter.ofColumn (Column.ofCounter n) = min n Column.max := by
  rw [Counter.ofColumn, Column.toInt_ofCounter, Int.toNat_natCast]

theorem Counter.ofColumn_le (c : Column) : Counter.ofColumn c ≤ Column.max := by
  have h := c.toInt_lt
  rw [Counter.ofColumn, Column.max]
  omega

theorem Column.le_ofCounter_iff (c : Column) (n : Nat) :
    c ≤ Column.ofCounter n ↔ Counter.ofColumn c ≤ min n Column.max := by
  rw [Int64.le_iff_toInt_le, Column.toInt_ofCounter, Counter.ofColumn]
  omega

attribute [ext] Tally

namespace Tally

/-- The totals of two sets of segments together, without a largest value. -/
def plus (a b : Tally) : Tally where
  successes := a.successes + b.successes
  failures := a.failures + b.failures
  bytes := a.bytes + b.bytes
  millis := a.millis + b.millis

/-- Totals of which each stops at a limit. -/
def upTo (limit : Nat) (t : Tally) : Tally where
  successes := min t.successes limit
  failures := min t.failures limit
  bytes := min t.bytes limit
  millis := min t.millis limit

/-- Each total of one is at most that of the other. -/
instance : LE Tally where
  le a b := a.successes ≤ b.successes ∧ a.failures ≤ b.failures ∧ a.bytes ≤ b.bytes ∧
    a.millis ≤ b.millis

theorem add_eq_plus (a b : Tally) : a.add b = (a.plus b).upTo Counter.max := rfl

theorem le_refl (a : Tally) : a ≤ a := ⟨Nat.le_refl _, Nat.le_refl _, Nat.le_refl _, Nat.le_refl _⟩

theorem le_trans {a b c : Tally} (hab : a ≤ b) (hbc : b ≤ c) : a ≤ c :=
  ⟨Nat.le_trans hab.1 hbc.1, Nat.le_trans hab.2.1 hbc.2.1, Nat.le_trans hab.2.2.1 hbc.2.2.1,
    Nat.le_trans hab.2.2.2 hbc.2.2.2⟩

@[simp] theorem zero_plus (a : Tally) : zero.plus a = a := by
  ext <;> exact Nat.zero_add _

@[simp] theorem plus_zero (a : Tally) : a.plus zero = a := rfl

theorem plus_assoc (a b c : Tally) : (a.plus b).plus c = a.plus (b.plus c) := by
  ext <;> exact Nat.add_assoc _ _ _

theorem plus_comm (a b : Tally) : a.plus b = b.plus a := by
  ext <;> exact Nat.add_comm _ _

theorem le_plus (a b : Tally) : a ≤ a.plus b :=
  ⟨Nat.le_add_right _ _, Nat.le_add_right _ _, Nat.le_add_right _ _, Nat.le_add_right _ _⟩

theorem upTo_le_upTo {a b : Tally} (limit : Nat) (h : a ≤ b) : a.upTo limit ≤ b.upTo limit := by
  have hmin {m n : Nat} (hmn : m ≤ n) : min m limit ≤ min n limit := by omega
  exact ⟨hmin h.1, hmin h.2.1, hmin h.2.2.1, hmin h.2.2.2⟩

theorem le_plus_upTo {limit : Nat} {a : Tally} (ha : a.upTo limit = a) (b : Tally) :
    a ≤ (a.plus b).upTo limit := by
  have h := upTo_le_upTo limit (le_plus a b)
  rwa [ha] at h

theorem upTo_le (limit : Nat) (a : Tally) : a.upTo limit ≤ a :=
  ⟨Nat.min_le_left _ _, Nat.min_le_left _ _, Nat.min_le_left _ _, Nat.min_le_left _ _⟩

/-- What was cut off before a sum is cut off after it. -/
theorem upTo_plus (limit : Nat) (a b : Tally) :
    ((a.upTo limit).plus b).upTo limit = (a.plus b).upTo limit := by
  have h (m n : Nat) : min (min m limit + n) limit = min (m + n) limit := by omega
  ext <;> exact h _ _

theorem upTo_upTo {low high : Nat} (h : low ≤ high) (t : Tally) :
    (t.upTo high).upTo low = t.upTo low := by
  have hm (n : Nat) : min (min n high) low = min n low := by omega
  ext <;> exact hm _

theorem upTo_eq_self {limit : Nat} {t : Tally}
    (h : t.successes ≤ limit ∧ t.failures ≤ limit ∧ t.bytes ≤ limit ∧ t.millis ≤ limit) :
    t.upTo limit = t := by
  ext
  · exact Nat.min_eq_left h.1
  · exact Nat.min_eq_left h.2.1
  · exact Nat.min_eq_left h.2.2.1
  · exact Nat.min_eq_left h.2.2.2

def Fits (t : Tally) : Prop :=
  t.successes ≤ Column.max ∧ t.failures ≤ Column.max ∧ t.bytes ≤ Column.max ∧ t.millis ≤ Column.max

instance (t : Tally) : Decidable t.Fits := inferInstanceAs (Decidable (_ ∧ _ ∧ _ ∧ _))

theorem eq_of_upTo_fits {t : Tally} (h : (t.upTo Counter.max).Fits) :
    t.upTo Counter.max = t := by
  obtain ⟨hs, hf, hb, hm⟩ := h
  have hmin {n : Nat} (hn : min n Counter.max ≤ Column.max) : n ≤ Counter.max := by
    have hlt : Column.max < Counter.max := by decide
    omega
  exact upTo_eq_self ⟨hmin hs, hmin hf, hmin hb, hmin hm⟩

end Tally

abbrev StatsRow.tally (r : StatsRow) : Tally := Model.tallyOfRow r

theorem StatsRow.tally_upTo (r : StatsRow) {limit : Nat} (h : Column.max ≤ limit) :
    r.tally.upTo limit = r.tally :=
  have hle (c : Column) : Counter.ofColumn c ≤ limit := Nat.le_trans (Counter.ofColumn_le c) h
  Tally.upTo_eq_self ⟨hle _, hle _, hle _, hle _⟩

namespace Model

abbrev tally {α : Type} (m : Model α) : Tally := m.performance.tally

theorem tally_row (job : String) (provider : Nat) (now : Instant) (m : Model Float) :
    (m.row job provider now).tally = m.tally.upTo Column.max := by
  ext <;> exact Counter.ofColumn_ofCounter _

end Model

end ProviderScout
