import Mathlib.Data.List.Induction
import Mathlib.Data.List.Nodup
import ProviderScout.Proofs.Store.Transactions

namespace ProviderScout

namespace StoredBenchmark

open BenchmarkTable

theorem supersedes_iff (a b : StoredBenchmark) :
    supersedes a b = true ↔ b.result.createdAt.toInt < a.result.createdAt.toInt ∨
      a.result.createdAt.toInt = b.result.createdAt.toInt ∧ b.id < a.id := by
  rw [supersedes, Bool.or_eq_true, Bool.and_eq_true, decide_eq_true_iff, decide_eq_true_iff,
    beq_iff_eq, Int64.lt_iff_toInt_lt, Int64.toInt_inj]

theorem not_supersedes_self (a : StoredBenchmark) : ¬ supersedes a a = true := by
  rw [supersedes_iff]
  omega

theorem not_supersedes_trans {a b c : StoredBenchmark} (hab : ¬ supersedes a b = true)
    (hbc : ¬ supersedes b c = true) : ¬ supersedes a c = true := by
  rw [supersedes_iff] at *
  omega

theorem not_supersedes_of_supersedes {a b : StoredBenchmark} (h : supersedes a b = true) :
    ¬ supersedes b a = true := by
  rw [supersedes_iff] at *
  omega

end StoredBenchmark

namespace BenchmarkTable

open StoredBenchmark

/-- Whether a benchmark is the latest usable one of its provider among others. -/
structure IsLatest (rows : List StoredBenchmark) (b : StoredBenchmark) : Prop where
  mem : b ∈ rows
  usable : isUsable b = true
  latest : ∀ a ∈ rows, isUsable a = true → a.result.provider = b.result.provider →
    ¬ supersedes a b = true

/-- Puts a benchmark in place of the one of its provider if it is later. -/
def keep (m : SortedMap Column StoredBenchmark) (b : StoredBenchmark) :
    SortedMap Column StoredBenchmark :=
  m.alter b.result.provider fun
    | none => some b
    | some old => some (if supersedes b old then b else old)

theorem latest_eq (rows : List StoredBenchmark) :
    latest ⟨rows⟩ = (rows.filter isUsable).foldl keep ∅ := rfl

theorem latest_snoc (rows : List StoredBenchmark) (b : StoredBenchmark) :
    latest ⟨rows ++ [b]⟩ = if isUsable b then keep (latest ⟨rows⟩) b else latest ⟨rows⟩ := by
  rw [latest_eq, List.filter_append, List.foldl_append, ← latest_eq]
  cases hb : isUsable b
  · rw [List.filter_cons_of_neg (Bool.eq_false_iff.1 hb)]
    rfl
  · rw [List.filter_cons_of_pos hb]
    rfl

theorem IsLatest.snoc {rows : List StoredBenchmark} {b c : StoredBenchmark} (h : IsLatest rows b)
    (hc : isUsable c = true → c.result.provider = b.result.provider → ¬ supersedes c b = true) :
    IsLatest (rows ++ [c]) b := by
  refine ⟨List.mem_append_left _ h.mem, h.usable, ?_⟩
  intro a ha
  rcases List.mem_append.1 ha with ha | ha
  · exact h.latest a ha
  · cases List.mem_singleton.1 ha
    exact hc

theorem isLatest_snoc {rows : List StoredBenchmark} {c : StoredBenchmark}
    (hc : isUsable c = true) (h : ∀ a ∈ rows, isUsable a = true →
      a.result.provider = c.result.provider → ¬ supersedes a c = true) :
    IsLatest (rows ++ [c]) c := by
  refine ⟨List.mem_append_right _ (List.mem_singleton_self c), hc, ?_⟩
  intro a ha
  rcases List.mem_append.1 ha with ha | ha
  · exact h a ha
  · cases List.mem_singleton.1 ha
    exact fun _ _ => not_supersedes_self c

/-- What is found for a provider among benchmarks. -/
inductive Found (rows : List StoredBenchmark) (provider : Column) : Option StoredBenchmark → Prop
  | none (h : ∀ b ∈ rows, isUsable b = true → b.result.provider ≠ provider) :
      Found rows provider none
  | some {b : StoredBenchmark} (hb : b.result.provider = provider) (h : IsLatest rows b) :
      Found rows provider (some b)

theorem Found.snoc {rows : List StoredBenchmark} {provider : Column} {found : Option StoredBenchmark}
    (h : Found rows provider found) {c : StoredBenchmark}
    (hc : isUsable c = true → c.result.provider ≠ provider) :
    Found (rows ++ [c]) provider found := by
  cases h with
  | none h =>
    apply Found.none
    intro b hb
    rcases List.mem_append.1 hb with hb | hb
    · exact h b hb
    · cases List.mem_singleton.1 hb
      exact hc
  | some hb h =>
    apply Found.some hb
    apply h.snoc
    intro hu hprovider
    exact absurd (hprovider.trans hb) (hc hu)

theorem found_latest (rows : List StoredBenchmark) (provider : Column) :
    Found rows provider ((latest ⟨rows⟩).get? provider) := by
  induction rows using List.reverseRecOn with
  | nil => exact .none nofun
  | append_singleton rows c ih =>
    rw [latest_snoc]
    split
    · rename_i hc
      rw [keep, SortedMap.get?_alter]
      split
      · rename_i hprovider
        subst hprovider
        cases hold : (latest ⟨rows⟩).get? c.result.provider with
        | none =>
          rw [hold] at ih
          cases ih with
          | none h => exact .some rfl (isLatest_snoc hc fun a ha hu hp => absurd hp (h a ha hu))
        | some old =>
          rw [hold] at ih
          cases ih with
          | some hp h =>
            dsimp only
            split
            · rename_i hlater
              apply Found.some rfl
              apply isLatest_snoc hc
              intro a ha hu hpa
              exact not_supersedes_trans (h.latest a ha hu (hpa.trans hp.symm))
                (not_supersedes_of_supersedes hlater)
            · rename_i hlater
              exact .some hp (h.snoc fun _ _ => hlater)
      · rename_i hprovider
        exact ih.snoc fun _ => Ne.symm hprovider
    · rename_i hc
      exact ih.snoc fun hu => absurd hu hc

theorem isLatest_of_get? {rows : List StoredBenchmark} {provider : Column} {b : StoredBenchmark}
    (h : (latest ⟨rows⟩).get? provider = some b) : b.result.provider = provider ∧ IsLatest rows b := by
  have hfound := found_latest rows provider
  rw [h] at hfound
  cases hfound with
  | some hp hlatest => exact ⟨hp, hlatest⟩

theorem exists_get?_latest {rows : List StoredBenchmark} {b : StoredBenchmark} (hb : b ∈ rows)
    (husable : isUsable b = true) : ∃ a, (latest ⟨rows⟩).get? b.result.provider = some a := by
  have hfound := found_latest rows b.result.provider
  cases hget : (latest ⟨rows⟩).get? b.result.provider with
  | none =>
    rw [hget] at hfound
    cases hfound with
    | none h => exact absurd rfl (h b hb husable)
  | some a => exact ⟨a, rfl⟩

theorem latest_ascending (rows : List StoredBenchmark) :
    (latest ⟨rows⟩).values.Pairwise fun a b => a.result.provider < b.result.provider := by
  rw [SortedMap.values, List.pairwise_map]
  apply (latest ⟨rows⟩).ascending.imp_of_mem
  rintro ⟨p, a⟩ ⟨q, b⟩ ha hb hless
  obtain ⟨hp, _⟩ := isLatest_of_get? ((SortedMap.mem_entries_iff _ p a).1 ha)
  obtain ⟨hq, _⟩ := isLatest_of_get? ((SortedMap.mem_entries_iff _ q b).1 hb)
  rw [hp, hq]
  exact Std.compare_eq_lt.1 hless

/-- Benchmarks are numbered as they are stored, from 1. -/
def Numbered (rows : List StoredBenchmark) : Prop :=
  rows.map StoredBenchmark.id = List.range' 1 rows.length

instance (rows : List StoredBenchmark) : Decidable (Numbered rows) :=
  inferInstanceAs (Decidable (_ = _))

theorem Numbered.snoc {rows : List StoredBenchmark} (h : Numbered rows) (r : BenchmarkResult) :
    Numbered (rows ++ [⟨rows.length + 1, r⟩]) := by
  rw [Numbered, List.map_append, h, List.length_append, List.length_singleton,
    List.range'_concat, Nat.one_mul, Nat.add_comm 1]
  rfl

theorem Numbered.eq_or_supersedes {rows : List StoredBenchmark} (h : Numbered rows)
    {a b : StoredBenchmark} (ha : a ∈ rows) (hb : b ∈ rows) (hab : ¬ supersedes a b = true) :
    b = a ∨ supersedes b a = true := by
  have hnodup : (rows.map StoredBenchmark.id).Nodup := by
    rw [h]
    exact List.nodup_range'
  by_cases hid : b.id = a.id
  · exact .inl (List.inj_on_of_nodup_map hnodup hb ha hid)
  · right
    rw [supersedes_iff] at hab ⊢
    omega

theorem Numbered.take {rows : List StoredBenchmark} (h : Numbered rows) (k : Nat) :
    Numbered (rows.take k) := by
  rw [Numbered, List.map_take, h, List.length_take]
  rcases Nat.le_total k rows.length with hk | hk
  · rw [List.take_range'_of_length_ge hk, Nat.min_eq_left hk]
  · rw [List.take_range'_of_length_le hk, Nat.min_eq_right hk]

/-- Benchmarks as they are stored. -/
structure Sound (rows : List StoredBenchmark) : Prop where
  numbered : Numbered rows
  numbers : ∀ b ∈ rows, ¬ b.result.mbps.isNaN = true

theorem Sound.snoc {rows : List StoredBenchmark} (h : Sound rows) {r : BenchmarkResult}
    (hr : ¬ r.mbps.isNaN = true) : Sound (rows ++ [⟨rows.length + 1, r⟩]) := by
  refine ⟨h.numbered.snoc r, ?_⟩
  intro b hb
  rcases List.mem_append.1 hb with hb | hb
  · exact h.numbers b hb
  · cases List.mem_singleton.1 hb
    exact hr

end BenchmarkTable

namespace SortedMap

variable {κ ν : Type} [Ord κ] [Std.TransOrd κ]

theorem ofList_snoc (l : List (κ × ν)) (e : κ × ν) :
    ofList (l ++ [e]) = (ofList l).insert e.1 e.2 := by
  rw [ofList, List.foldl_append]
  rfl

variable [Std.LawfulEqOrd κ] [DecidableEq κ]

theorem mem_of_get?_ofList {l : List (κ × ν)} {k : κ} {v : ν} (h : (ofList l).get? k = some v) :
    (k, v) ∈ l := by
  induction l using List.reverseRecOn with
  | nil => cases h
  | append_singleton l e ih =>
    rw [ofList_snoc, get?_insert] at h
    split at h
    · rename_i hk
      cases h
      subst hk
      exact List.mem_append_right l (List.mem_singleton_self e)
    · exact List.mem_append_left _ (ih h)

theorem get?_ofList {l : List (κ × ν)} (hl : (l.map (·.1)).Nodup) {k : κ} {v : ν}
    (h : (k, v) ∈ l) : (ofList l).get? k = some v := by
  induction l using List.reverseRecOn with
  | nil => cases h
  | append_singleton l e ih =>
    rw [List.map_append, List.nodup_append] at hl
    rw [ofList_snoc, get?_insert]
    rcases List.mem_append.1 h with h | h
    · have hne : k ≠ e.1 := hl.2.2 k (List.mem_map_of_mem h) e.1 (List.mem_singleton_self e.1)
      rw [if_neg hne]
      exact ih hl.1 h
    · cases List.mem_singleton.1 h
      exact if_pos rfl

theorem entries_ofList {l : List (κ × ν)} (h : l.Pairwise fun a b => compare a.1 b.1 = .lt) :
    (ofList l).entries = l := by
  have hkeys : (l.map (·.1)).Nodup := (mk l h).keys_nodup
  have hmap : ofList l = mk l h := by
    apply ext_get?
    intro k
    ext v
    rw [← mem_entries_iff (mk l h)]
    exact ⟨mem_of_get?_ofList, get?_ofList hkeys⟩
  rw [hmap]

end SortedMap

namespace Database

def benchmarks (d : Database) : List StoredBenchmark :=
  (d.schema.benchmarks.map BenchmarkTable.rows).getD []

def speedsOf (now : Instant) (rows : List StoredBenchmark) : List (BenchmarkSpeed Float) :=
  (BenchmarkTable.latest ⟨rows⟩).values.filterMap (speed? now)

theorem benchmarks_of_benchmarkTable {d : Database} {t : BenchmarkTable}
    (h : d.benchmarkTable = .ok t) : d.benchmarks = t.rows := by
  obtain ⟨_, hs⟩ := table_eq_ok_iff.1 h
  rw [benchmarks, hs]
  rfl

theorem speeds_of_latestSpeeds {now : Instant} {d : Database} {speeds : List (BenchmarkSpeed Float)}
    (h : d.latestSpeeds now = .ok speeds) : speeds = speedsOf now d.benchmarks := by
  rw [latestSpeeds, latestBenchmarks] at h
  cases ht : d.benchmarkTable with
  | error f => rw [ht] at h; cases h
  | ok t =>
    rw [ht] at h
    cases h
    rw [benchmarks_of_benchmarkTable ht]
    rfl

/-- A benchmark is stored behind the others, or refused. A speed that is no number is refused. -/
theorem benchmarks_insertBenchmark (r : BenchmarkResult) (d : Database) :
    (d.insertBenchmark r).2.benchmarks = d.benchmarks ∨
      ¬ r.mbps.isNaN ∧
        (d.insertBenchmark r).2.benchmarks = d.benchmarks ++ [⟨d.benchmarks.length + 1, r⟩] := by
  rw [insertBenchmark]
  cases ht : d.benchmarkTable with
  | error f => exact .inl rfl
  | ok t =>
    have hrows := benchmarks_of_benchmarkTable ht
    by_cases hnumber : r.mbps.isNaN = true
    · simp only [BenchmarkTable.insert, if_pos hnumber]
      exact .inl trivial
    · simp only [BenchmarkTable.insert, if_neg hnumber, hrows]
      exact .inr ⟨hnumber, rfl⟩

theorem benchmarks_upsertRows (rows : List StatsRow) (d : Database) :
    (d.upsertRows rows).2.benchmarks = d.benchmarks := by
  rw [upsertRows]
  split
  · rfl
  · split <;> rfl

theorem benchmarks_deleteRows (job : Option String) (d : Database) :
    (d.deleteRows job).2.benchmarks = d.benchmarks := by
  rw [deleteRows]
  split <;> rfl

theorem exists_mem_of_mem_speedsOf {now : Instant} {rows : List StoredBenchmark}
    {x : BenchmarkSpeed Float} (h : x ∈ speedsOf now rows) :
    ∃ b ∈ rows, speed? now b = some x := by
  obtain ⟨b, hb, hx⟩ := List.mem_filterMap.1 h
  obtain ⟨provider, hget⟩ := (SortedMap.mem_values_iff _ b).1 hb
  exact ⟨b, (BenchmarkTable.isLatest_of_get? hget).2.mem, hx⟩

theorem provider_of_speed? {now : Instant} {b : StoredBenchmark} {x : BenchmarkSpeed Float}
    (h : speed? now b = some x) : 0 ≤ b.result.provider.toInt ∧
      x.provider = b.result.provider.toInt.toNat ∧ x.mbps = b.result.mbps := by
  have hz : (0 : Column).toInt = 0 := rfl
  rw [speed?] at h
  split at h
  · cases h
  · rename_i hprovider
    rw [Int64.lt_iff_toInt_lt, hz] at hprovider
    cases h
    exact ⟨by omega, rfl, rfl⟩

theorem exists_speed? (now : Instant) {b : StoredBenchmark} (h : 0 ≤ b.result.provider.toInt) :
    ∃ x, speed? now b = some x := by
  have hz : (0 : Column).toInt = 0 := rfl
  have hprovider : ¬ b.result.provider < 0 := by
    rw [Int64.lt_iff_toInt_lt, hz]
    omega
  exact ⟨_, if_neg hprovider⟩

def speedOf (now : Instant) (b : StoredBenchmark) : BenchmarkSpeed Float where
  provider := b.result.provider.toInt.toNat
  mbps := b.result.mbps
  measuredAt := (Instant.ofSecs? b.result.createdAt.toInt).getD now

/-- The speeds of stored benchmarks, without those of negative providers. -/
def speedsFrom (now : Instant) (rows : List StoredBenchmark) : List (BenchmarkSpeed Float) :=
  (rows.filter fun b => 0 ≤ b.result.provider).map (speedOf now)

theorem filterMap_speed? (now : Instant) (rows : List StoredBenchmark) :
    rows.filterMap (speed? now) = speedsFrom now rows := by
  rw [speedsFrom]
  induction rows with
  | nil => rfl
  | cons b rows ih =>
    by_cases hprovider : 0 ≤ b.result.provider
    · have hspeed : speed? now b = some (speedOf now b) := if_neg (Int64.not_lt.2 hprovider)
      have hkept : decide (0 ≤ b.result.provider) = true := decide_eq_true hprovider
      rw [List.filterMap_cons_some hspeed, List.filter_cons, if_pos hkept, ih, List.map_cons]
    · have hspeed : speed? now b = none := if_pos (Int64.not_le.1 hprovider)
      have hpassed : ¬ decide (0 ≤ b.result.provider) = true := mt of_decide_eq_true hprovider
      rw [List.filterMap_cons_none hspeed, List.filter_cons, if_neg hpassed, ih]

theorem speedsFrom_ascending (now : Instant) {rows : List StoredBenchmark}
    (h : rows.Pairwise fun a b => a.result.provider < b.result.provider) :
    (speedsFrom now rows).Pairwise fun a b => a.provider < b.provider := by
  rw [speedsFrom, List.pairwise_map]
  apply (h.filter _).imp_of_mem
  intro a b ha _ hless
  have hpos : 0 ≤ a.result.provider := of_decide_eq_true (List.mem_filter.1 ha).2
  have hz : (0 : Column).toInt = 0 := rfl
  rw [Int64.le_iff_toInt_le, hz] at hpos
  rw [Int64.lt_iff_toInt_lt] at hless
  change a.result.provider.toInt.toNat < b.result.provider.toInt.toNat
  omega

theorem speedsOf_nodup (now : Instant) (rows : List StoredBenchmark) :
    ((speedsOf now rows).map (·.provider)).Nodup := by
  have hascending := speedsFrom_ascending now (BenchmarkTable.latest_ascending rows)
  rw [← filterMap_speed?] at hascending
  exact List.pairwise_map.2 (hascending.imp Nat.ne_of_lt)

theorem get?_of_mem {speeds : List (BenchmarkSpeed Float)}
    (hspeeds : (speeds.map (·.provider)).Nodup) {x : BenchmarkSpeed Float} (h : x ∈ speeds) :
    (BenchmarkCache.ofList speeds).get? x.provider = some x := by
  apply SortedMap.get?_ofList
  · rw [List.map_map]
    exact hspeeds
  · exact List.mem_map_of_mem h

theorem mem_of_mem_ofList {speeds : List (BenchmarkSpeed Float)} {x : BenchmarkSpeed Float}
    (h : x ∈ (BenchmarkCache.ofList speeds).toList) : x ∈ speeds := by
  obtain ⟨provider, hget⟩ := (SortedMap.mem_values_iff _ x).1 h
  obtain ⟨z, hz, hsame⟩ := List.mem_map.1 (SortedMap.mem_of_get?_ofList hget)
  cases hsame
  exact hz

/-- Of each usable benchmark that was there to be read, it or one that takes its place is visible. -/
theorem exists_visible {rows : List StoredBenchmark} (hrows : BenchmarkTable.Numbered rows)
    (now : Instant) {b : StoredBenchmark} (hb : b ∈ rows)
    (husable : BenchmarkTable.isUsable b = true) (hprovider : 0 ≤ b.result.provider.toInt) :
    ∃ b' ∈ rows, (b' = b ∨ BenchmarkTable.supersedes b' b = true) ∧
      ∃ x, speed? now b' = some x ∧
        (BenchmarkCache.ofList (speedsOf now rows)).get? b.result.provider.toInt.toNat = some x := by
  obtain ⟨b', hget⟩ := BenchmarkTable.exists_get?_latest hb husable
  obtain ⟨hsame, h⟩ := BenchmarkTable.isLatest_of_get? hget
  obtain ⟨x, hx⟩ := exists_speed? now (hsame ▸ hprovider)
  have hmem : x ∈ speedsOf now rows := by
    apply List.mem_filterMap.2
    exact ⟨b', (SortedMap.mem_values_iff _ _).2 ⟨_, hget⟩, hx⟩
  refine ⟨b', h.mem, hrows.eq_or_supersedes hb h.mem (h.latest b hb husable hsame.symm), x, hx, ?_⟩
  rw [← hsame, ← (provider_of_speed? hx).2.1]
  exact get?_of_mem (speedsOf_nodup now rows) hmem

end Database

end ProviderScout
