import Mathlib.Tactic.SplitIfs
import ProviderScout.Text.Utf8

namespace ProviderScout.Text

def moreBytes (code : Nat) : Nat :=
  if code ≤ 127 then 0 else if code ≤ 2047 then 1 else if code ≤ 65535 then 2 else 3

def leadByte (code : Nat) : Nat :=
  if code ≤ 127 then code
  else if code ≤ 2047 then code / 64 + 192
  else if code ≤ 65535 then code / 4096 + 224
  else code / 262144 + 240

def highDigits (code : Nat) : Nat → Nat
  | 0 => code
  | count + 1 => highDigits code count / 64

/-- The last bytes of a character: the lowest digits of its number. -/
def lastBytes (code : Nat) : Nat → List UInt8
  | 0 => []
  | count + 1 => UInt8.ofNat (highDigits code count % 64 + 128) :: lastBytes code count

theorem ofNat_lt {m n : Nat} (h : m < n) (hn : n < 256) : UInt8.ofNat m < UInt8.ofNat n := by
  rw [UInt8.lt_iff_toNat_lt, UInt8.toNat_ofNat_of_lt' (Nat.lt_trans h hn),
    UInt8.toNat_ofNat_of_lt' hn]
  exact h

theorem code_lt (c : Char) : c.val.toNat < 1114112 := by
  rcases c.valid with h | ⟨_, h⟩
  · exact Nat.lt_trans h (by decide)
  · exact h

theorem leadByte_lt {code : Nat} (h : code < 1114112) : leadByte code < 256 := by
  rw [leadByte]
  split_ifs <;> omega

theorem encode_eq (c : Char) : String.utf8EncodeChar c =
    UInt8.ofNat (leadByte c.val.toNat) :: lastBytes c.val.toNat (moreBytes c.val.toNat) := by
  have hcode := code_lt c
  rw [String.utf8EncodeChar, leadByte, moreBytes]
  generalize c.val.toNat = code at hcode
  split_ifs <;> simp only [lastBytes, highDigits, Nat.div_div_eq_div_mul, Nat.reduceMul]
  · rw [Nat.mod_eq_of_lt (by omega : code / 64 < 32)]
  · rw [Nat.mod_eq_of_lt (by omega : code / 4096 < 16)]
  · rw [Nat.mod_eq_of_lt (by omega : code / 262144 < 8)]

/-- Of two characters the higher one has the higher first byte, or both have the same and differ in
the digits after it. -/
theorem leadByte_lt_or {m n : Nat} (h : m < n) : leadByte m < leadByte n ∨
    leadByte m = leadByte n ∧ moreBytes m = moreBytes n ∧
      highDigits m (moreBytes n) = highDigits n (moreBytes n) := by
  rw [leadByte, leadByte, moreBytes, moreBytes]
  split_ifs <;> simp only [highDigits, true_and] <;> omega

theorem highDigits_mono {m n : Nat} (h : m ≤ n) (count : Nat) :
    highDigits m count ≤ highDigits n count := by
  induction count with
  | zero => exact h
  | succ count ih => exact Nat.div_le_div_right ih

theorem lastBytes_append_lt {m n : Nat} (h : m < n) (s t : List UInt8) {count : Nat}
    (hhigh : highDigits m count = highDigits n count) :
    lastBytes m count ++ s < lastBytes n count ++ t := by
  induction count with
  | zero => exact absurd hhigh (Nat.ne_of_lt h)
  | succ count ih =>
    rw [lastBytes, lastBytes, List.cons_append, List.cons_append, List.cons_lt_cons_iff]
    rcases Nat.eq_or_lt_of_le (highDigits_mono (Nat.le_of_lt h) count) with heq | hlt
    · right
      rw [heq]
      exact ⟨rfl, ih heq⟩
    · left
      rw [highDigits, highDigits] at hhigh
      apply ofNat_lt <;> omega

theorem encode_append_lt {c d : Char} (h : c < d) (s t : List UInt8) :
    String.utf8EncodeChar c ++ s < String.utf8EncodeChar d ++ t := by
  have hlt : c.val.toNat < d.val.toNat := h
  rw [encode_eq, encode_eq, List.cons_append, List.cons_append, List.cons_lt_cons_iff]
  rcases leadByte_lt_or hlt with hlead | ⟨hlead, hmore, hhigh⟩
  · exact .inl (ofNat_lt hlead (leadByte_lt (code_lt d)))
  · rw [hlead, hmore]
    exact .inr ⟨rfl, lastBytes_append_lt hlt s t hhigh⟩

theorem flatMap_encode_lt {l m : List Char} (h : l < m) :
    l.flatMap String.utf8EncodeChar < m.flatMap String.utf8EncodeChar := by
  induction l generalizing m with
  | nil =>
    cases m with
    | nil => exact absurd h (List.not_lt_nil [])
    | cons d m =>
      rw [List.flatMap_cons, encode_eq, List.cons_append]
      exact List.nil_lt_cons _ _
  | cons c l ih =>
    cases m with
    | nil => exact absurd h (List.not_lt_nil _)
    | cons d m =>
      rw [List.flatMap_cons, List.flatMap_cons]
      obtain hchar | ⟨rfl, hrest⟩ := List.cons_lt_cons_iff.1 h
      · exact encode_append_lt hchar _ _
      · exact List.append_left_lt (ih hrest)

theorem bytes_lt_of_lt {a b : String} (h : a < b) : bytes a < bytes b :=
  flatMap_encode_lt (String.lt_iff.1 h)

theorem bytes_lt_iff (a b : String) : bytes a < bytes b ↔ a < b := by
  refine ⟨fun h => Decidable.byContradiction fun hnot => ?_, bytes_lt_of_lt⟩
  by_cases hba : b < a
  · exact List.lt_asymm h (bytes_lt_of_lt hba)
  · have heq : a = b := String.le_antisymm (String.not_lt.1 hba) (String.not_lt.1 hnot)
    rw [heq] at h
    exact List.lt_irrefl _ h

section

variable {bs : List UInt8}

theorem decode_of_lt (h : ∀ b ∈ bs, b < 0x80) :
    decode bs = bs.map fun b => some (Char.ofNat b.toNat) := by
  induction bs with
  | nil => rw [decode, List.map_nil]
  | cons b rest ih =>
    rw [List.forall_mem_cons] at h
    rw [decode, if_pos h.1, ih h.2, List.map_cons]

theorem ofBytes_of_lt (h : ∀ b ∈ bs, b < 0x80) :
    ofBytes bs = String.ofList (bs.map fun b => Char.ofNat b.toNat) := by
  rw [ofBytes, decode_of_lt h, List.map_map]
  rfl

end

end ProviderScout.Text
