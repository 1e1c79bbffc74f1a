import Mathlib.Tactic.Positivity
import ProviderScout.Proofs.Number.Exact
import ProviderScout.Proofs.Performance.Totals

namespace ProviderScout

/-- What a model is told. -/
inductive News
  | success (bytes millis : Nat)
  | failure
  | merged (row : StatsRow)

/-- Whether a sample lies between a tenth of the known speed and ten times it. -/
def Within (current sample : Rat) : Prop := current / 10 ≤ sample ∧ sample ≤ 10 * current

instance (current sample : Rat) : Decidable (Within current sample) :=
  inferInstanceAs (Decidable (_ ∧ _))

/-- Whether a speed is no smaller than all those seen and no larger than all of them. -/
def Between (seen : List Rat) (speed : Rat) : Prop :=
  (∃ low ∈ seen, low ≤ speed) ∧ ∃ high ∈ seen, speed ≤ high

namespace Between

theorem of_mem {seen : List Rat} {speed : Rat} (h : speed ∈ seen) : Between seen speed :=
  ⟨⟨speed, h, le_refl _⟩, speed, h, le_refl _⟩

theorem append_right {seen : List Rat} {speed : Rat} (h : Between seen speed) (more : List Rat) :
    Between (seen ++ more) speed := by
  obtain ⟨⟨low, hlow, hle⟩, high, hhigh, hge⟩ := h
  exact ⟨⟨low, List.mem_append_left _ hlow, hle⟩, high, List.mem_append_left _ hhigh, hge⟩

theorem mean {seen : List Rat} {speed : Rat} (h : Between seen speed) {alpha : Rat}
    (hpos : 0 < alpha) (hone : alpha ≤ 1) (sample : Rat) :
    Between (seen ++ [sample]) (alpha * sample + (1 - alpha) * speed) := by
  have hrest : 0 ≤ 1 - alpha := sub_nonneg.2 hone
  rcases le_total sample speed with hle | hle
  · have hsample := mul_le_mul_of_nonneg_left hle hpos.le
    have hspeed := mul_le_mul_of_nonneg_left hle hrest
    obtain ⟨high, hhigh, hge⟩ := h.2
    refine ⟨⟨sample, List.mem_append_right _ List.mem_cons_self, ?_⟩,
      high, List.mem_append_left _ hhigh, ?_⟩ <;> linarith
  · have hsample := mul_le_mul_of_nonneg_left hle hpos.le
    have hspeed := mul_le_mul_of_nonneg_left hle hrest
    obtain ⟨low, hlow, hge⟩ := h.1
    refine ⟨⟨low, List.mem_append_left _ hlow, ?_⟩,
      sample, List.mem_append_right _ List.mem_cons_self, ?_⟩ <;> linarith

end Between

/-- A mean with an accepted sample keeps a share of the known speed and at most adds nine times the
weight of the sample. -/
theorem Within.mean_le {current sample alpha : Rat} (h : Within current sample) (hpos : 0 < alpha) :
    (1 - 9 / 10 * alpha) * current ≤ alpha * sample + (1 - alpha) * current ∧
      alpha * sample + (1 - alpha) * current ≤ (1 + 9 * alpha) * current := by
  have hlow := mul_le_mul_of_nonneg_left h.1 hpos.le
  have hhigh := mul_le_mul_of_nonneg_left h.2 hpos.le
  constructor <;> linarith

namespace Model

abbrev speed {α : Type} (m : Model α) : α := m.performance.speed

theorem segmentSpeed_eq (bytes millis : Nat) :
    (segmentSpeed bytes millis : Rat) = (bytes : Rat) * 1000 / (millis : Rat) := by
  rw [segmentSpeed]
  split
  · rename_i hzero
    rw [hzero, Nat.cast_zero, div_zero]
    norm_num
  · change (bytes : Rat) * 1000.0 / (millis : Rat) = _
    norm_num

theorem segmentSpeed_nonneg (bytes millis : Nat) : (0 : Rat) ≤ segmentSpeed bytes millis := by
  rw [segmentSpeed_eq]
  positivity

theorem isPlausible_iff (current sample : Rat) :
    isPlausible current sample = true ↔ Within current sample := by
  rw [isPlausible, Bool.and_eq_true, decide_eq_true_iff, decide_eq_true_iff]
  change current * 0.1 ≤ sample ∧ sample ≤ current * 10.0 ↔ _
  have hlow : current * 0.1 = current / 10 := by norm_num [div_eq_mul_inv]
  have hhigh : current * 10.0 = 10 * current := by norm_num [mul_comm]
  rw [hlow, hhigh, Within]

theorem smooth_unknown (alpha sample : Rat) : smooth alpha 0 sample = sample := by
  rw [smooth, if_pos ((Quantity.isZero_iff 0).2 rfl)]

theorem smooth_known {alpha current : Rat} (hcurrent : 0 < current) (sample : Rat) :
    smooth alpha current sample =
      if Within current sample then alpha * sample + (1 - alpha) * current else current := by
  have hone : (1.0 : Rat) = 1 := by norm_num
  have hzero : ¬ Quantity.isZero current = true := by
    rw [Quantity.isZero_iff]
    exact hcurrent.ne'
  rw [smooth, if_neg hzero]
  change (if isPlausible current sample = true then alpha * sample + (1.0 - alpha) * current
    else current) = _
  rw [hone]
  exact if_congr (isPlausible_iff current sample) rfl rfl

end Model

namespace News

/-- The speed that news bring with them, 0 if they bring none. -/
def speed : News → Rat
  | success bytes millis => Model.segmentSpeed bytes millis
  | failure => 0
  | merged row => (Model.performanceOfRow row).speed

def tally : News → Tally
  | success bytes millis => .success bytes millis
  | failure => .failure
  | merged row => row.tally

end News

theorem StatsRow.speed_nonneg (r : StatsRow) : 0 ≤ (Model.performanceOfRow r : Performance Rat).speed :=
  Nat.cast_nonneg (α := Rat) (Counter.ofColumn r.speed)

namespace News

theorem speed_nonneg (n : News) : 0 ≤ n.speed := by
  cases n with
  | success bytes millis => exact Model.segmentSpeed_nonneg bytes millis
  | failure => exact le_refl _
  | merged row => exact row.speed_nonneg

theorem silent_or_heard (news : List News) :
    (∀ n ∈ news, n.speed = 0) ∨
      ∃ silent n later, news = silent ++ n :: later ∧ (∀ n ∈ silent, n.speed = 0) ∧ 0 < n.speed := by
  induction news with
  | nil => exact .inl (List.forall_mem_nil _)
  | cons n news ih =>
    rcases n.speed_nonneg.eq_or_lt with hzero | hpos
    · obtain hsilent | ⟨silent, heard, later, rfl, hsilent, hheard⟩ := ih
      · exact .inl (List.forall_mem_cons.2 ⟨hzero.symm, hsilent⟩)
      · exact .inr ⟨n :: silent, heard, later, rfl, List.forall_mem_cons.2 ⟨hzero.symm, hsilent⟩,
          hheard⟩
    · exact .inr ⟨[], n, news, rfl, List.forall_mem_nil _, hpos⟩

end News

namespace Model

def hear (alpha : Rat) (m : Model Rat) : News → Model Rat
  | .success bytes millis => m.recordSuccess alpha bytes millis
  | .failure => m.recordFailure
  | .merged row => m.merge row

def hearAll (alpha : Rat) (m : Model Rat) (news : List News) : Model Rat :=
  news.foldl (hear alpha) m

/-- The sample that a model with a speed takes from news, if it accepts it. -/
def accepts (m : Model Rat) : News → Option Rat
  | .success bytes millis =>
    let sample := segmentSpeed bytes millis
    if Within m.speed sample then some sample else none
  | .failure => none
  | .merged _ => none

def accepted (alpha : Rat) (m : Model Rat) : List News → List Rat
  | [] => []
  | n :: news => (m.accepts n).toList ++ (m.hear alpha n).accepted alpha news

variable {alpha : Rat} {m : Model Rat}

theorem hearAll_append (first later : List News) :
    m.hearAll alpha (first ++ later) = (m.hearAll alpha first).hearAll alpha later :=
  List.foldl_append ..

theorem tally_hear (n : News) : (m.hear alpha n).tally = (m.tally.plus n.tally).upTo Counter.max := by
  cases n <;> rfl

theorem tally_hearAll (news : List News) (h : m.tally.upTo Counter.max = m.tally) :
    (m.hearAll alpha news).tally =
      ((news.map News.tally).foldl Tally.plus m.tally).upTo Counter.max := by
  induction news using List.reverseRecOn with
  | nil => exact h.symm
  | append_singleton news n ih =>
    rw [hearAll_append, List.map_append, List.foldl_append]
    change ((m.hearAll alpha news).hear alpha n).tally = _
    rw [tally_hear, ih, Tally.upTo_plus]
    rfl

theorem speed_hear_unknown (hspeed : m.speed = 0) (n : News) : (m.hear alpha n).speed = n.speed := by
  cases n with
  | success bytes millis =>
    change smooth alpha m.speed (segmentSpeed bytes millis) = _
    rw [hspeed, smooth_unknown]
    rfl
  | failure => exact hspeed
  | merged row =>
    change (if Quantity.isZero m.speed = true then _ else m.speed) = _
    rw [if_pos ((Quantity.isZero_iff _).2 hspeed)]
    rfl

theorem speed_recordSuccess (hspeed : 0 < m.speed) (bytes millis : Nat) :
    (m.recordSuccess alpha bytes millis).speed =
      if Within m.speed (segmentSpeed bytes millis) then
        alpha * segmentSpeed bytes millis + (1 - alpha) * m.speed
      else m.speed :=
  smooth_known hspeed _

theorem speed_merge (hspeed : 0 < m.speed) (row : StatsRow) : (m.merge row).speed = m.speed := by
  have hzero : ¬ Quantity.isZero m.speed = true := by
    rw [Quantity.isZero_iff]
    exact hspeed.ne'
  change (if Quantity.isZero m.speed = true then _ else m.speed) = _
  rw [if_neg hzero]

/-- A model with a speed takes the mean with a sample that it accepts, and keeps its speed over all
other news. -/
theorem speed_hear (hspeed : 0 < m.speed) (n : News) :
    (m.hear alpha n).speed =
      ((m.accepts n).map fun sample => alpha * sample + (1 - alpha) * m.speed).getD m.speed := by
  cases n with
  | success bytes millis =>
    change (m.recordSuccess alpha bytes millis).speed = _
    rw [speed_recordSuccess hspeed, accepts]
    split
    · rfl
    · rfl
  | failure => rfl
  | merged row => exact speed_merge hspeed row

theorem within_of_accepts {n : News} {sample : Rat} (h : m.accepts n = some sample) :
    Within m.speed sample := by
  cases n with
  | success bytes millis =>
    rw [accepts] at h
    split at h
    · rename_i hwithin
      cases h
      exact hwithin
    · cases h
  | failure => cases h
  | merged row => cases h

theorem speed_hear_pos (hpos : 0 < alpha) (hone : alpha ≤ 1) (hspeed : 0 < m.speed) (n : News) :
    0 < (m.hear alpha n).speed := by
  rw [speed_hear hspeed]
  cases h : m.accepts n with
  | none => exact hspeed
  | some sample =>
    have hmean := ((within_of_accepts h).mean_le hpos).1
    have hshare : 0 < (1 - 9 / 10 * alpha) * m.speed := mul_pos (by linarith) hspeed
    exact lt_of_lt_of_le hshare hmean

theorem between_hear (hpos : 0 < alpha) (hone : alpha ≤ 1) (hspeed : 0 < m.speed) {seen : List Rat}
    (h : Between seen m.speed) (n : News) :
    Between (seen ++ (m.accepts n).toList) (m.hear alpha n).speed := by
  rw [speed_hear hspeed]
  cases m.accepts n with
  | none => exact h.append_right []
  | some sample => exact h.mean hpos hone sample

/-- The invariant of a model with a speed, whatever it hears: the speed stays positive and between
the samples seen. -/
theorem between_hearAll (hpos : 0 < alpha) (hone : alpha ≤ 1) (news : List News)
    (hspeed : 0 < m.speed) {seen : List Rat} (h : Between seen m.speed) :
    0 < (m.hearAll alpha news).speed ∧
      Between (seen ++ m.accepted alpha news) (m.hearAll alpha news).speed := by
  induction news generalizing m seen with
  | nil => exact ⟨hspeed, h.append_right []⟩
  | cons n news ih =>
    rw [accepted, ← List.append_assoc]
    exact ih (speed_hear_pos hpos hone hspeed n) (between_hear hpos hone hspeed h n)

theorem speed_hearAll_silent {news : List News} (hspeed : m.speed = 0)
    (h : ∀ n ∈ news, n.speed = 0) : (m.hearAll alpha news).speed = 0 := by
  induction news generalizing m with
  | nil => exact hspeed
  | cons n news ih =>
    obtain ⟨hn, hnews⟩ := List.forall_mem_cons.1 h
    apply ih _ hnews
    rw [speed_hear_unknown hspeed, hn]

/-- Where the speed of a model comes from: from its row, or from the first news that bring one. -/
inductive Seeded (m : Model Rat) : List News → Rat → Prop
  | loaded (h : 0 < m.speed) : Seeded m [] m.speed
  | heard {silent : List News} {n : News} (h : m.speed = 0) (hsilent : ∀ n ∈ silent, n.speed = 0)
      (hn : 0 < n.speed) : Seeded m (silent ++ [n]) n.speed

theorem Seeded.speed_eq (alpha : Rat) {first : List News} {seed : Rat} (h : m.Seeded first seed) :
    0 < seed ∧ (m.hearAll alpha first).speed = seed := by
  cases h with
  | loaded h => exact ⟨h, rfl⟩
  | heard h hsilent hn =>
    rw [hearAll_append]
    exact ⟨hn, speed_hear_unknown (speed_hearAll_silent h hsilent) _⟩

theorem Seeded.between (hpos : 0 < alpha) (hone : alpha ≤ 1) {first : List News} {seed : Rat}
    (h : m.Seeded first seed) (later : List News) :
    0 < (m.hearAll alpha (first ++ later)).speed ∧
      Between (seed :: (m.hearAll alpha first).accepted alpha later)
        (m.hearAll alpha (first ++ later)).speed := by
  obtain ⟨hseed, hspeed⟩ := h.speed_eq alpha
  rw [hearAll_append]
  have hknown : Between [seed] (m.hearAll alpha first).speed := by
    rw [hspeed]
    exact .of_mem List.mem_cons_self
  rw [← hspeed] at hseed
  exact between_hearAll hpos hone later hseed hknown

theorem silent_or_seeded (hm : 0 ≤ m.speed) (news : List News) :
    (m.speed = 0 ∧ ∀ n ∈ news, n.speed = 0) ∨
      ∃ first later seed, news = first ++ later ∧ m.Seeded first seed := by
  rcases hm.eq_or_lt with hzero | hpos
  · rcases News.silent_or_heard news with hsilent | ⟨silent, n, later, rfl, hsilent, hn⟩
    · exact .inl ⟨hzero.symm, hsilent⟩
    · right
      refine ⟨silent ++ [n], later, n.speed, ?_, .heard hzero.symm hsilent hn⟩
      rw [List.append_assoc, List.singleton_append]
  · exact .inr ⟨[], news, m.speed, rfl, .loaded hpos⟩

theorem speed_hearAll_nonneg (hpos : 0 < alpha) (hone : alpha ≤ 1) (hm : 0 ≤ m.speed)
    (news : List News) : 0 ≤ (m.hearAll alpha news).speed := by
  rcases silent_or_seeded hm news with ⟨hzero, hsilent⟩ | ⟨first, later, seed, rfl, hseeded⟩
  · exact (speed_hearAll_silent hzero hsilent).ge
  · exact (hseeded.between hpos hone later).1.le

theorem segmentSpeed_of_none {bytes millis : Nat} (h : bytes = 0 ∨ millis = 0) :
    (segmentSpeed bytes millis : Rat) = 0 := by
  rw [segmentSpeed_eq]
  rcases h with rfl | rfl
  · rw [Nat.cast_zero, zero_mul, zero_div]
  · rw [Nat.cast_zero, div_zero]

theorem not_within_of_none (hspeed : 0 < m.speed) {bytes millis : Nat}
    (h : bytes = 0 ∨ millis = 0) : ¬ Within m.speed (segmentSpeed bytes millis) := by
  intro hwithin
  have hlow := hwithin.1
  rw [segmentSpeed_of_none h] at hlow
  linarith

theorem speed_recordSuccess_of_none (hm : 0 ≤ m.speed) {bytes millis : Nat}
    (h : bytes = 0 ∨ millis = 0) : (m.recordSuccess alpha bytes millis).speed = m.speed := by
  rcases hm.eq_or_lt with hzero | hpos
  · have hheard : (m.hear alpha (.success bytes millis)).speed = segmentSpeed bytes millis :=
      speed_hear_unknown hzero.symm _
    exact hheard.trans ((segmentSpeed_of_none h).trans hzero)
  · rw [speed_recordSuccess hpos, if_neg (not_within_of_none hpos h)]

/-- A speed is 0 until one comes in, positive from then on, and between that one and those accepted
since. Whatever comes next changes it only if it is a sample within a tenth and ten times it. -/
theorem speed_within_heard (hpos : 0 < alpha) (hone : alpha ≤ 1)
    (hstart : m = .fresh ∨ ∃ row, m = .ofRow row) (news : List News) :
    let now := m.hearAll alpha news
    (m.speed = 0 ∧ (∀ n ∈ news, n.speed = 0) ∧ now.speed = 0 ∨
        ∃ first later seed, news = first ++ later ∧ m.Seeded first seed) ∧
      (∀ first later seed, news = first ++ later → m.Seeded first seed →
        0 < now.speed ∧
          Between (seed :: (m.hearAll alpha first).accepted alpha later) now.speed) ∧
      (∀ bytes millis,
        let sample : Rat := segmentSpeed bytes millis
        let next := now.recordSuccess alpha bytes millis
        (0 < now.speed → next.speed ≠ now.speed → Within now.speed sample) ∧
          (0 < now.speed → Within now.speed sample →
            (1 - 9 / 10 * alpha) * now.speed ≤ next.speed ∧
              next.speed ≤ (1 + 9 * alpha) * now.speed) ∧
          (bytes = 0 ∨ millis = 0 → next.speed = now.speed)) ∧
      now.recordFailure.speed = now.speed ∧
      (∀ row, 0 < now.speed → (now.merge row).speed = now.speed) ∧
      now.tally = ((news.map News.tally).foldl Tally.plus m.tally).upTo Counter.max := by
  intro now
  have hm : 0 ≤ m.speed ∧ m.tally.upTo Counter.max = m.tally := by
    obtain rfl | ⟨row, rfl⟩ := hstart
    · exact ⟨by decide +kernel, rfl⟩
    · exact ⟨row.speed_nonneg, row.tally_upTo (by decide)⟩
  refine ⟨?_, ?_, ?_, rfl, fun row hspeed => speed_merge hspeed row, tally_hearAll news hm.2⟩
  · rcases silent_or_seeded hm.1 news with ⟨hzero, hsilent⟩ | hseeded
    · exact .inl ⟨hzero, hsilent, speed_hearAll_silent hzero hsilent⟩
    · exact .inr hseeded
  · intro first later seed hnews hseeded
    have hbetween := hseeded.between hpos hone later
    rwa [← hnews] at hbetween
  · intro bytes millis sample next
    refine ⟨?_, ?_, speed_recordSuccess_of_none (speed_hearAll_nonneg hpos hone hm.1 news)⟩
    · intro hspeed hchanged
      by_contra hwithin
      apply hchanged
      rw [speed_recordSuccess hspeed, if_neg hwithin]
    · intro hspeed hwithin
      rw [speed_recordSuccess hspeed, if_pos hwithin]
      exact hwithin.mean_le hpos

/-- A loaded model at 1000 bytes per second accepts one sample of four. -/
theorem speed_within_heard_of_loaded :
    let alpha : Rat := 3 / 20
    let row : StatsRow := ⟨"job", 0, 20, 5, 40000, 10000, 1000, 1700000000⟩
    let m : Model Rat := .ofRow row
    let news : List News :=
      [.success 2000 1000, .failure, .success 50 1000, .success 4096 0, .merged row,
        .success 15000 1000]
    let now := m.hearAll alpha news
    (0 < alpha ∧ alpha ≤ 1 ∧ (m = .fresh ∨ ∃ row, m = .ofRow row)) ∧
      m.accepted alpha news = [2000] ∧ now.speed = 1150 ∧ Between [1000, 2000] now.speed ∧
      now.tally = ⟨44, 11, 101146, 23000⟩ := by
  intro alpha row m news now
  have hstart : m = .fresh ∨ ∃ row, m = .ofRow row := .inr ⟨row, rfl⟩
  have haccepted : m.accepted alpha news = [2000] := by decide +kernel
  have hpos : 0 < alpha := by decide +kernel
  have hone : alpha ≤ 1 := by decide +kernel
  obtain ⟨_, hbetween, _, _, _, htally⟩ := speed_within_heard hpos hone hstart news
  have hloaded := (hbetween [] news m.speed rfl (.loaded (by decide +kernel))).2
  have hspeed : m.speed = 1000 := by decide +kernel
  change Between (m.speed :: m.accepted alpha news) now.speed at hloaded
  rw [hspeed, haccepted] at hloaded
  refine ⟨⟨hpos, hone, hstart⟩, haccepted, by decide +kernel, hloaded, ?_⟩
  rw [htally]
  decide +kernel

end Model

end ProviderScout
