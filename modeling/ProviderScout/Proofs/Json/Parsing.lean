import ProviderScout.Json.Parser
import ProviderScout.Proofs.Json.Reading

namespace ProviderScout.Json

open Double

theorem fst_accumulate_le {n : Nat} (hn : n ≤ Counter.max) (digits : List Nat) :
    (accumulate n digits).1 ≤ Counter.max := by
  induction digits generalizing n with
  | nil => exact hn
  | cons d rest ih =>
    rw [accumulate]
    split
    · rename_i hfits
      exact ih hfits
    · exact hn

theorem powerOfTen_bounds {k : Nat} (h : k ≤ 308) :
    From 0 (powerOfTen k) ∧ Below 1024 (powerOfTen k) := by
  by_cases hsmall : k ≤ 22
  · have hall : ∀ k ≤ 22, From 0 (powerOfTen k) ∧ Below 1024 (powerOfTen k) := by decide +kernel
    exact hall k hsmall
  · by_cases hmost : k = 308
    · -- its leading digit has the last place there is, so the bound below does not apply
      rw [hmost]
      decide +kernel
    · obtain ⟨u, hu, hround⟩ :=
        isRounding_ofScientific (n := 1) (fun h => hsmall h.2) (by decide) (by omega)
      have hall : ∀ k ≤ 307, (1 * 10 ^ k).log2 ≤ 1022 := by decide +kernel
      have hlog := hall k (by omega)
      rw [Float.Model.totalExponent] at hround
      rw [From, Below, powerOfTen, hu]
      exact ⟨isFrom_held hround (by omega) (by decide), isBelow_held hround (by omega) (by decide)⟩

theorem isFinite_scale {x : Float} (hx : Below 67 x) {k : Int} {y : Float}
    (h : scale x k = some y) : y.isFinite = true := by
  have hfinite := isFinite_of_below hx
  induction x, k using scale.induct with
  | case1 x k hk hmost z hinf =>
    rw [scale, if_pos hk, if_pos hmost] at h
    cases (if_pos hinf).symm.trans h
  | case2 x k hk hmost z hinf =>
    rw [scale, if_pos hk, if_pos hmost] at h
    cases (if_neg hinf).symm.trans h
    have hbelow := (powerOfTen_bounds (k := k.toNat) (by omega)).2
    exact isFinite_mul hx hbelow (Bool.eq_false_of_not_eq_true hinf)
  | case3 x k hk hmost hzero =>
    rw [scale, if_pos hk, if_neg hmost, if_pos hzero] at h
    cases h
    exact hfinite
  | case4 x k hk hmost hzero =>
    rw [scale, if_pos hk, if_neg hmost, if_neg hzero] at h
    cases h
  | case5 x k hk hleast =>
    rw [scale, if_neg hk, if_pos hleast] at h
    cases h
    have hfrom := (powerOfTen_bounds (k := (-k).toNat) (by omega)).1
    exact isFinite_of_below (below_div hx hfrom (by decide) (by decide))
  | case6 x k hk hleast hzero =>
    rw [scale, if_neg hk, if_neg hleast, if_pos hzero] at h
    cases h
    exact hfinite
  | case7 x k hk hleast hzero ih =>
    rw [scale, if_neg hk, if_neg hleast, if_neg hzero] at h
    have hfrom : From 1 (powerOfTen 308) := by decide +kernel
    have hless := below_div hx hfrom (by decide) (by decide)
    exact ih hless h (isFinite_of_below hless)

theorem isFinite_magnitude {n : Numeral} {x : Float} (h : n.magnitude? = some x) :
    x.isFinite = true := by
  have hfirst := fst_accumulate_le (Nat.zero_le Counter.max) n.whole
  rw [Numeral.magnitude?] at h
  generalize accumulate 0 n.whole = first at h hfirst
  obtain ⟨whole, dropped⟩ := first
  have hsecond := fst_accumulate_le hfirst n.fraction
  dsimp only at h hsecond
  generalize accumulate whole n.fraction = second at h hsecond
  obtain ⟨significand, ignored⟩ := second
  dsimp only at h
  split at h
  · exact isFinite_scale (below_ofCount hsecond) h
  · split at h
    · exact isFinite_scale (below_ofCount hsecond) h
    · split at h
      · cases h
      · cases h
        decide +kernel

theorem isProper_value {n : Numeral} {v : Json} (h : n.value? = some v) : v.isProper = true := by
  rw [Numeral.value?] at h
  split at h
  · rename_i hwhole
    simp only [Bool.and_eq_true, decide_eq_true_eq] at hwhole
    obtain ⟨-, hsize⟩ := hwhole
    split at h
    · split at h
      · rename_i hleast
        simp only [Bool.and_eq_true, decide_eq_true_eq] at hleast
        cases h
        rw [isProper, Bool.and_eq_true, decide_eq_true_eq, decide_eq_true_eq]
        omega
      · cases h
        exact isFinite_neg (isFinite_of_below (below_ofCount hsize))
    · cases h
      rw [isProper, Bool.and_eq_true, decide_eq_true_eq, decide_eq_true_eq]
      omega
  · obtain ⟨x, hx, rfl⟩ := Option.map_eq_some_iff.1 h
    have hfinite := isFinite_magnitude hx
    rw [isProper]
    split
    · exact isFinite_neg hfinite
    · exact hfinite

def Yields (r : Except Stop (Json × List Char)) : Prop :=
  ∀ v rest, r = .ok (v, rest) → v.isProper = true

theorem yields_error (stop : Stop) : Yields (.error stop) := nofun

theorem yields_ok {v : Json} (h : v.isProper = true) (rest : List Char) :
    Yields (.ok (v, rest)) := by
  intro v' rest' heq
  cases heq
  exact h

theorem yields_bind {α : Type} {r : Except Stop α} {f : α → Except Stop (Json × List Char)}
    (h : ∀ a, r = .ok a → Yields (f a)) : Yields (r >>= f) := by
  cases r with
  | error stop => exact yields_error stop
  | ok a => exact h a rfl

theorem yields_word {v : Json} (hv : v.isProper = true) (ws cs : List Char) :
    Yields (word v ws cs) := by
  induction ws generalizing cs with
  | nil => exact yields_ok hv cs
  | cons w ws ih =>
    cases cs with
    | nil => exact yields_error _
    | cons c cs =>
      rw [word]
      split
      · exact ih cs
      · exact yields_error _

theorem yields_number (mode : Mode) (negative : Bool) (cs : List Char) :
    Yields (number mode negative cs) := by
  refine yields_bind fun r _ => ?_
  obtain ⟨n, rest⟩ := r
  dsimp only
  split
  · rename_i hv
    exact yields_ok (isProper_value hv) rest
  · exact yields_ok rfl rest
  · exact yields_error _

def AreProper (acc : Option (List (String × Json))) : Prop :=
  ∀ fields, acc = some fields → ∀ f ∈ fields, f.2.isProper = true

theorem isProper_of_ended {r : Except Stop (Json × List Char)} (hr : Yields r) {v : Json}
    (h : (r >>= fun read => ended read.1 read.2) = .ok v) : v.isProper = true := by
  cases r with
  | error stop => cases h
  | ok read =>
    obtain ⟨w, rest⟩ := read
    have hw := hr w rest rfl
    change ended w rest = .ok v at h
    rw [ended] at h
    split at h
    · cases h
      exact hw
    · cases h

/-- Whether everything that is read with some fuel is proper. -/
structure Sound (mode : Mode) (fuel : Nat) : Prop where
  value : ∀ depth cs, Yields (value mode fuel depth cs)
  items : ∀ depth acc cs, (∀ v ∈ acc, v.isProper = true) → Yields (items mode fuel depth acc cs)
  fields : ∀ depth acc first cs, AreProper acc → Yields (fields mode fuel depth acc first cs)
  embedded : ∀ cs, Yields (embedded mode fuel cs)

namespace Sound

variable {mode : Mode} {fuel : Nat}

theorem zero (mode : Mode) : Sound mode 0 where
  value _ _ := yields_error _
  items _ _ _ _ := yields_error _
  fields _ _ _ _ _ := yields_error _
  embedded _ := yields_error _

theorem value_succ (h : Sound mode fuel) (depth : Nat) (cs : List Char) :
    Yields (Json.value mode (fuel + 1) depth cs) := by
  rw [Json.value]
  split
  · exact yields_error _
  · exact yields_word rfl _ _
  · exact yields_word rfl _ _
  · exact yields_word rfl _ _
  · exact yields_number mode true _
  · refine yields_bind fun r _ => ?_
    obtain ⟨s?, rest⟩ := r
    cases s? <;> exact yields_ok rfl rest
  · split
    · exact yields_error _
    · exact h.items _ _ _ (List.forall_mem_nil _)
  · split
    · exact yields_error _
    · refine h.fields _ _ _ _ fun read heq => ?_
      cases heq
      exact List.forall_mem_nil _
  · split
    · exact yields_number mode false _
    · exact yields_error _

theorem items_succ (h : Sound mode fuel) (depth : Nat) {acc : List Json}
    (hacc : ∀ v ∈ acc, v.isProper = true) (cs : List Char) :
    Yields (Json.items mode (fuel + 1) depth acc cs) := by
  rw [Json.items]
  refine yields_bind fun r _ => ?_
  obtain ⟨more, rest⟩ := r
  dsimp only
  split
  · refine yields_bind fun r hr => ?_
    obtain ⟨v, rest⟩ := r
    exact h.items _ _ _ (List.forall_mem_cons.2 ⟨h.value _ _ v rest hr, hacc⟩)
  · have harray : (Json.array acc.reverse).isProper = true :=
      (areProper_iff _).2 fun v hv => hacc v (List.mem_reverse.1 hv)
    exact yields_ok harray rest

theorem fields_succ (h : Sound mode fuel) (depth : Nat) {acc : Option (List (String × Json))}
    (hacc : AreProper acc) (first : Bool) (cs : List Char) :
    Yields (Json.fields mode (fuel + 1) depth acc first cs) := by
  rw [Json.fields.eq_def]
  dsimp only
  refine yields_bind fun r _ => ?_
  obtain ⟨more, rest⟩ := r
  dsimp only
  split
  · refine yields_bind fun _ _ => yields_bind fun _ _ => ?_
    split
    · exact h.embedded _
    · refine yields_bind fun r'' hr => h.fields _ _ _ _ ?_
      obtain ⟨v, behind⟩ := r''
      intro read heq
      simp only [Option.bind_eq_bind, Option.bind_eq_some_iff, Option.pure_def,
        Option.some.injEq] at heq
      obtain ⟨name, _, before, hbefore, rfl⟩ := heq
      exact List.forall_mem_cons.2 ⟨h.value _ _ v behind hr, hacc before hbefore⟩
  · cases acc with
    | none => exact yields_ok rfl rest
    | some read =>
      have hobject : (Json.object read.reverse).isProper = true :=
        (fieldsAreProper_iff _).2 fun f hf => hacc read rfl f (List.mem_reverse.1 hf)
      exact yields_ok hobject rest

theorem embedded_succ (h : Sound mode fuel) (cs : List Char) :
    Yields (Json.embedded mode (fuel + 1) cs) := by
  rw [Json.embedded]
  refine yields_bind fun r _ => ?_
  dsimp only
  split
  · exact yields_error _
  · rename_i hread
    exact yields_bind fun _ _ => yields_ok (isProper_of_ended (h.value _ _) hread) _

theorem succ (h : Sound mode fuel) : Sound mode (fuel + 1) where
  value := h.value_succ
  items depth _ cs hacc := h.items_succ depth hacc cs
  fields depth _ first cs hacc := h.fields_succ depth hacc first cs
  embedded := h.embedded_succ

theorem of_fuel (mode : Mode) (fuel : Nat) : Sound mode fuel := by
  induction fuel with
  | zero => exact zero mode
  | succ fuel ih => exact ih.succ

end Sound

theorem isProper_of_read {mode : Mode} {s : String} {v : Json} (h : read mode s = .ok v) :
    v.isProper = true := by
  have hyields := (Sound.of_fuel mode (2 * s.length + 2)).value maxDepth s.toList
  rw [read] at h
  dsimp only at h
  generalize hread : (value mode (2 * s.length + 2) maxDepth s.toList >>= fun read =>
    ended read.1 read.2) = r at h
  cases r with
  | error stop => cases h
  | ok w =>
    cases h
    exact isProper_of_ended hyields hread

end ProviderScout.Json
