import Mathlib.Data.List.Basic
import ProviderScout.Text.Digits

namespace ProviderScout.Text

theorem isDigit_ten_of_isDigit {c : Char} (h : c.isDigit = true) : isDigit 10 c = true := by
  have hbound : c.toNat ≤ '9'.toNat := by
    rw [Char.isDigit, Bool.and_eq_true] at h
    exact of_decide_eq_true h.2
  have hlt : c.toNat - '0'.toNat < 10 := by
    change c.toNat ≤ 57 at hbound
    change c.toNat - 48 < 10
    omega
  rw [isDigit, digit?, if_pos h]
  simp only [if_pos hlt, Option.isSome_some]

theorem isDigit_mono {base base' : Nat} (h : base ≤ base') {c : Char} (hc : isDigit base c = true) :
    isDigit base' c = true := by
  rw [isDigit, digit?] at hc ⊢
  grind

def NoDigitHead (base : Nat) (cs : List Char) : Prop := ∀ c ∈ cs.head?, isDigit base c = false

theorem noDigitHead_nil (base : Nat) : NoDigitHead base [] := nofun

theorem noDigitHead_cons {base : Nat} {c : Char} (h : isDigit base c = false) (cs : List Char) :
    NoDigitHead base (c :: cs) := by
  intro d hd
  cases hd
  exact h

theorem takeWhile_append {base : Nat} {ds rest : List Char} (hds : ∀ c ∈ ds, isDigit base c = true)
    (hrest : NoDigitHead base rest) : (ds ++ rest).takeWhile (isDigit base) = ds := by
  rw [List.takeWhile_append_of_pos hds]
  cases rest with
  | nil => exact List.append_nil ds
  | cons c rest => rw [List.takeWhile_cons_of_neg (by simp [hrest c rfl]), List.append_nil]

theorem spanDigits_append {base limit : Nat} {ds rest : List Char}
    (hds : ∀ c ∈ ds, isDigit base c = true) (hlimit : ds.length ≤ limit)
    (hrest : NoDigitHead base rest) : spanDigits base limit (ds ++ rest) = (ds, rest) := by
  have htake : (ds ++ rest).take limit = ds ++ rest.take (limit - ds.length) := by
    rw [List.take_append, List.take_of_length_le hlimit]
  have hfront : NoDigitHead base (rest.take (limit - ds.length)) := by
    intro c hc
    rw [List.head?_take] at hc
    split at hc
    · cases hc
    · exact hrest c hc
  rw [spanDigits, htake, takeWhile_append hds hfront, List.drop_left]

theorem ofDigits_snoc (base : Nat) (cs : List Char) (c : Char) :
    ofDigits base (cs ++ [c]) = ofDigits base cs * base + (digit? base c).getD 0 := by
  rw [ofDigits, List.foldl_append]
  rfl

section Written

variable {base : Nat}

theorem digit?_digitChar (hbase : base ≤ 16) {d : Nat} (hd : d < base) :
    digit? base (Nat.digitChar d) = some d := by
  have h : ∀ base ≤ 16, ∀ d < base, digit? base (Nat.digitChar d) = some d := by decide +kernel
  exact h base hbase d hd

theorem isDigit_of_mem_toDigits (hone : 1 < base) (hbase : base ≤ 16) (n : Nat) :
    ∀ c ∈ Nat.toDigits base n, isDigit base c = true := by
  induction n using Nat.strongRecOn with
  | ind n ih =>
    have hdigit {d : Nat} (hd : d < base) : isDigit base (Nat.digitChar d) = true := by
      rw [isDigit, digit?_digitChar hbase hd]
      rfl
    intro c hc
    by_cases hn : n < base
    · rw [Nat.toDigits_of_lt_base hn, List.mem_singleton] at hc
      exact hc ▸ hdigit hn
    · rw [Nat.toDigits_of_base_le hone (Nat.le_of_not_lt hn), List.mem_append,
        List.mem_singleton] at hc
      rcases hc with hc | rfl
      · exact ih (n / base) (Nat.div_lt_self (by omega) hone) c hc
      · exact hdigit (Nat.mod_lt n (by omega))

theorem ofDigits_toDigits (hone : 1 < base) (hbase : base ≤ 16) (n : Nat) :
    ofDigits base (Nat.toDigits base n) = n := by
  induction n using Nat.strongRecOn with
  | ind n ih =>
    by_cases hn : n < base
    · rw [Nat.toDigits_of_lt_base hn, ← List.nil_append [_], ofDigits_snoc,
        digit?_digitChar hbase hn]
      exact Nat.zero_mul base ▸ Nat.zero_add n
    · rw [Nat.toDigits_of_base_le hone (Nat.le_of_not_lt hn), ofDigits_snoc,
        ih (n / base) (Nat.div_lt_self (by omega) hone),
        digit?_digitChar hbase (Nat.mod_lt n (by omega)), Option.getD_some, Nat.mul_comm]
      exact Nat.div_add_mod n base

theorem head?_toDigits_ne_zero (hone : 1 < base) (hbase : base ≤ 16) {n : Nat} (hn : n ≠ 0) :
    (Nat.toDigits base n).head? ≠ some '0' := by
  induction n using Nat.strongRecOn with
  | ind n ih =>
    by_cases hlt : n < base
    · rw [Nat.toDigits_of_lt_base hlt]
      intro h
      have hzero : Nat.digitChar n = Nat.digitChar 0 := Option.some.inj h
      have hread := digit?_digitChar hbase hlt
      rw [hzero, digit?_digitChar hbase (by omega)] at hread
      exact hn (Option.some.inj hread).symm
    · have hpos : 0 < n / base := Nat.div_pos (Nat.le_of_not_lt hlt) (by omega)
      rw [Nat.toDigits_of_base_le hone (Nat.le_of_not_lt hlt),
        List.head?_append_of_ne_nil _ Nat.toDigits_ne_nil]
      exact ih (n / base) (Nat.div_lt_self (by omega) hone) (by omega)

end Written

end ProviderScout.Text
