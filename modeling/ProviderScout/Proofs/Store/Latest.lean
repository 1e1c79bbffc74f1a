import ProviderScout.Engine.Persistence
import ProviderScout.Proofs.Store.Benchmarks

namespace ProviderScout

namespace BenchmarkCache

theorem toList_ofList {α : Type} {speeds : List (BenchmarkSpeed α)}
    (h : speeds.Pairwise fun a b => a.provider < b.provider) : (ofList speeds).toList = speeds := by
  have hascending : (speeds.map fun s => (s.provider, s)).Pairwise
      fun a b => compare a.1 b.1 = .lt :=
    List.pairwise_map.2 (h.imp Std.compare_eq_lt.2)
  rw [toList, SortedMap.values, ofList, SortedMap.entries_ofList hascending, List.map_map]
  exact List.map_id speeds

end BenchmarkCache

/-- Whether a result tells of the speed of its provider alone. -/
def BenchmarkResult.isUsable (r : BenchmarkResult) : Bool := r.success && !r.loadBalanced

namespace BenchmarkTable

@[simp] theorem isUsable_mk (id : Nat) (r : BenchmarkResult) : isUsable ⟨id, r⟩ = r.isUsable := rfl

theorem mem_latest_iff {rows : List StoredBenchmark} (h : Numbered rows) (b : StoredBenchmark) :
    b ∈ (latest ⟨rows⟩).values ↔ IsLatest rows b := by
  constructor
  · intro hb
    obtain ⟨provider, hget⟩ := (SortedMap.mem_values_iff _ b).1 hb
    exact (isLatest_of_get? hget).2
  · intro hb
    obtain ⟨a, hget⟩ := exists_get?_latest hb.mem hb.usable
    obtain ⟨hsame, ha⟩ := isLatest_of_get? hget
    have hab := hb.latest a ha.mem ha.usable hsame
    have hba := ha.latest b hb.mem hb.usable hsame.symm
    obtain rfl | hlater := h.eq_or_supersedes ha.mem hb.mem hab
    · exact (SortedMap.mem_values_iff _ _).2 ⟨_, hget⟩
    · exact absurd hlater hba

theorem not_supersedes_iff (a b : StoredBenchmark) :
    ¬ supersedes a b = true ↔ a.result.createdAt < b.result.createdAt ∨
      a.result.createdAt = b.result.createdAt ∧ a.id ≤ b.id := by
  rw [StoredBenchmark.supersedes_iff, Int64.lt_iff_toInt_lt, ← Int64.toInt_inj]
  omega

theorem isLatest_iff (rows : List StoredBenchmark) (b : StoredBenchmark) :
    IsLatest rows b ↔ b ∈ rows ∧ isUsable b = true ∧
      ∀ a ∈ rows, isUsable a = true → a.result.provider = b.result.provider →
        a.result.createdAt < b.result.createdAt ∨
          a.result.createdAt = b.result.createdAt ∧ a.id ≤ b.id := by
  simp only [← not_supersedes_iff]
  exact ⟨fun h => ⟨h.mem, h.usable, h.latest⟩, fun h => ⟨h.1, h.2.1, h.2.2⟩⟩

/-- The table after more results are reported. One whose speed is no number is not stored. -/
def after (t : BenchmarkTable) (reported : List BenchmarkResult) : BenchmarkTable where
  rows := t.rows ++ (reported.filter fun r => !r.mbps.isNaN).mapIdx fun i r =>
    ⟨t.rows.length + i + 1, r⟩

variable (t : BenchmarkTable) (reported : List BenchmarkResult)

theorem after_nil : t.after [] = t := by
  rw [after, List.filter_nil, List.mapIdx_nil, List.append_nil]

theorem after_snoc_of_isNaN {r : BenchmarkResult} (h : r.mbps.isNaN = true) :
    t.after (reported ++ [r]) = t.after reported := by
  rw [after, List.filter_append, List.filter_singleton, h]
  change BenchmarkTable.mk (t.rows ++ (_ ++ []).mapIdx _) = _
  rw [List.append_nil]
  rfl

theorem after_snoc {r : BenchmarkResult} (h : ¬ r.mbps.isNaN = true) :
    t.after (reported ++ [r]) =
      ⟨(t.after reported).rows ++ [⟨(t.after reported).rows.length + 1, r⟩]⟩ := by
  rw [Bool.not_eq_true] at h
  rw [after, List.filter_append, List.filter_singleton, h]
  change BenchmarkTable.mk (t.rows ++ (_ ++ [r]).mapIdx _) = _
  rw [List.mapIdx_concat, ← List.append_assoc, after, List.length_append, List.length_mapIdx]

theorem numbered_after {t : BenchmarkTable} (ht : Numbered t.rows) (reported : List BenchmarkResult) :
    Numbered (t.after reported).rows := by
  induction reported using List.reverseRecOn with
  | nil => rwa [after_nil]
  | append_singleton reported r ih =>
    by_cases hr : r.mbps.isNaN = true
    · rwa [after_snoc_of_isNaN t reported hr]
    · rw [after_snoc t reported hr]
      exact ih.snoc r

def results (m : SortedMap Column StoredBenchmark) : SortedMap Column BenchmarkResult :=
  m.map fun _ b => b.result

theorem values_results (m : SortedMap Column StoredBenchmark) :
    (results m).values = m.values.map StoredBenchmark.result := by
  rw [results, SortedMap.values, SortedMap.values, SortedMap.map, List.map_map, List.map_map]
  rfl

/-- Puts a result in place of the one of its provider, unless that is of a later time. -/
def keepResult (m : SortedMap Column BenchmarkResult) (r : BenchmarkResult) :
    SortedMap Column BenchmarkResult :=
  m.alter r.provider fun
    | none => some r
    | some old => some (if old.createdAt ≤ r.createdAt then r else old)

theorem results_keep {m : SortedMap Column StoredBenchmark} {b : StoredBenchmark}
    (h : ∀ old, m.get? b.result.provider = some old → old.id < b.id) :
    results (keep m b) = keepResult (results m) b.result := by
  apply SortedMap.ext_get?
  intro k
  rw [results, SortedMap.get?_map, keep, SortedMap.get?_alter, keepResult, SortedMap.get?_alter,
    results, SortedMap.get?_map, SortedMap.get?_map]
  split
  · cases hold : m.get? b.result.provider with
    | none => rfl
    | some old =>
      have hid := h old hold
      have hlater : supersedes b old = true ↔ old.result.createdAt ≤ b.result.createdAt := by
        rw [StoredBenchmark.supersedes_iff, Int64.le_iff_toInt_le]
        omega
      change some (if supersedes b old = true then b else old).result =
        some (if old.result.createdAt ≤ b.result.createdAt then b.result else old.result)
      rw [apply_ite StoredBenchmark.result, if_congr hlater rfl rfl]
  · rfl

theorem Numbered.id_le {rows : List StoredBenchmark} (h : Numbered rows) {b : StoredBenchmark}
    (hb : b ∈ rows) : b.id ≤ rows.length := by
  have hid : b.id ∈ rows.map StoredBenchmark.id := List.mem_map_of_mem hb
  rw [h, List.mem_range'_1] at hid
  omega

def counts (r : BenchmarkResult) : Bool := !r.mbps.isNaN && r.isUsable

/-- The latest results are found in the order in which they are reported, from those that count. -/
theorem results_latest_after {t : BenchmarkTable} (ht : Numbered t.rows)
    (reported : List BenchmarkResult) :
    results (t.after reported).latest = (reported.filter counts).foldl keepResult (results t.latest) := by
  induction reported using List.reverseRecOn with
  | nil => rw [after_nil]; rfl
  | append_singleton reported r ih =>
    rw [List.filter_append, List.filter_singleton, List.foldl_append, ← ih]
    by_cases hnumber : r.mbps.isNaN = true
    · have hcounts : counts r = false := by rw [counts, hnumber, Bool.not_true, Bool.false_and]
      rw [after_snoc_of_isNaN t reported hnumber, hcounts]
      rfl
    · have hcounts : counts r = r.isUsable := by
        rw [counts, Bool.eq_false_iff.2 hnumber, Bool.not_false, Bool.true_and]
      rw [after_snoc t reported hnumber, latest_snoc, isUsable_mk, hcounts]
      by_cases husable : r.isUsable = true
      -- the number of the new row is above those of all rows before
      · rw [if_pos husable, husable]
        apply results_keep
        intro old hold
        exact Nat.lt_succ_of_le
          ((numbered_after ht reported).id_le (isLatest_of_get? hold).2.mem)
      · rw [if_neg husable, Bool.eq_false_iff.2 husable]
        rfl

theorem results_latest_of_usable {t : BenchmarkTable} (ht : Numbered t.rows)
    (reported : List BenchmarkResult) :
    results (t.after (reported.filter (·.isUsable))).latest = results (t.after reported).latest := by
  have hfilter : (reported.filter (·.isUsable)).filter counts = reported.filter counts := by
    rw [List.filter_filter]
    apply List.filter_congr
    intro r _
    rw [counts, Bool.and_assoc, Bool.and_self]
  rw [results_latest_after ht, results_latest_after ht, hfilter]

end BenchmarkTable

namespace Database

def insertBenchmarks (d : Database) (reported : List BenchmarkResult) : Database :=
  reported.foldl (fun d r => (d.insertBenchmark r).2) d

section Table

variable {d : Database} {t : BenchmarkTable}

theorem benchmarkTable_withBenchmarks (h : d.benchmarkTable = .ok t) (t' : BenchmarkTable) :
    (d.withBenchmarks t').benchmarkTable = .ok t' :=
  table_eq_ok_iff.2 ⟨(table_eq_ok_iff.1 h).1, rfl⟩

theorem withBenchmarks_of_benchmarkTable (h : d.benchmarkTable = .ok t) :
    d.withBenchmarks t = d := by
  obtain ⟨_, hs⟩ := table_eq_ok_iff.1 h
  rw [withBenchmarks, ← hs]

theorem insertBenchmark_of_isNaN (h : d.benchmarkTable = .ok t) {r : BenchmarkResult}
    (hr : r.mbps.isNaN = true) : ∃ err, d.insertBenchmark r = (.error err, d) := by
  rw [insertBenchmark, h]
  simp only [BenchmarkTable.insert, if_pos hr]
  exact ⟨_, rfl⟩

theorem insertBenchmark_of_number (h : d.benchmarkTable = .ok t) {r : BenchmarkResult}
    (hr : ¬ r.mbps.isNaN = true) : d.insertBenchmark r =
      (.ok (t.rows.length + 1), d.withBenchmarks ⟨t.rows ++ [⟨t.rows.length + 1, r⟩]⟩) := by
  rw [insertBenchmark, h]
  simp only [BenchmarkTable.insert, if_neg hr]

theorem insertBenchmarks_eq (h : d.benchmarkTable = .ok t) (reported : List BenchmarkResult) :
    d.insertBenchmarks reported = d.withBenchmarks (t.after reported) := by
  induction reported using List.reverseRecOn with
  | nil =>
    rw [BenchmarkTable.after_nil]
    exact (withBenchmarks_of_benchmarkTable h).symm
  | append_singleton reported r ih =>
    have htable := benchmarkTable_withBenchmarks h (t.after reported)
    rw [insertBenchmarks, List.foldl_append]
    change ((d.insertBenchmarks reported).insertBenchmark r).2 = _
    rw [ih]
    by_cases hr : r.mbps.isNaN = true
    · obtain ⟨err, hinsert⟩ := insertBenchmark_of_isNaN htable hr
      rw [hinsert, t.after_snoc_of_isNaN reported hr]
    · rw [insertBenchmark_of_number htable hr, t.after_snoc reported hr]
      rfl

theorem latestBenchmarks_eq (h : d.benchmarkTable = .ok t) :
    d.latestBenchmarks = .ok t.latest.values := by
  rw [latestBenchmarks, h]
  rfl

theorem latestBenchmarks_insertBenchmark (h : d.benchmarkTable = .ok t) {r : BenchmarkResult}
    (hr : r.isUsable = false) :
    (d.insertBenchmark r).2.latestBenchmarks = d.latestBenchmarks := by
  by_cases hnumber : r.mbps.isNaN = true
  · obtain ⟨err, hinsert⟩ := insertBenchmark_of_isNaN h hnumber
    rw [hinsert]
  · rw [insertBenchmark_of_number h hnumber,
      latestBenchmarks_eq (benchmarkTable_withBenchmarks h _), latestBenchmarks_eq h,
      BenchmarkTable.latest_snoc, BenchmarkTable.isUsable_mk, hr]
    rfl

end Table

theorem refreshBenchmarks_eq {d : Database} {rows : List StoredBenchmark}
    (h : d.latestBenchmarks = .ok rows)
    (hrows : rows.Pairwise fun a b => a.result.provider < b.result.provider) (now : Instant)
    (e : Engine) :
    ∃ cache : BenchmarkCache Float, cache.toList = speedsFrom now rows ∧
      e.refreshBenchmarks now d =
        (.ok (speedsFrom now rows).length, { e with benchmarks := cache }, d) := by
  have hcache := BenchmarkCache.toList_ofList (speedsFrom_ascending now hrows)
  have hsize : (BenchmarkCache.ofList (speedsFrom now rows)).size = (speedsFrom now rows).length := by
    conv_rhs => rw [← hcache]
    exact (List.length_map ..).symm
  have hspeeds : d.latestSpeeds now = .ok (speedsFrom now rows) := by
    rw [latestSpeeds, h, ← filterMap_speed?]
    rfl
  have hread : ModelStore.latestSpeeds now d = (.ok (speedsFrom now rows), d) :=
    congrArg (·, d) hspeeds
  refine ⟨_, hcache, ?_⟩
  rw [Engine.refreshBenchmarks, hread, ← hsize]

/-- Whatever is reported, there is one row for each provider with a usable result: the latest one,
and of those of one time the last one stored. A refresh takes over these rows. -/
theorem latestBenchmarks_of_reported {d : Database} {t : BenchmarkTable}
    (hd : d.benchmarkTable = .ok t) (ht : BenchmarkTable.Numbered t.rows)
    (reported : List BenchmarkResult) (now : Instant) (e : Engine) {σ : Type} [ModelStore σ]
    (s : σ) :
    let stored := (t.after reported).rows
    let later := d.insertBenchmarks reported
    later = d.withBenchmarks ⟨stored⟩ ∧
      (∀ r, r.mbps.isNaN = true → ∃ err, later.insertBenchmark r = (.error err, later)) ∧
      (∃ rows, later.latestBenchmarks = .ok rows ∧
        (rows.Pairwise fun a b => a.result.provider < b.result.provider) ∧
        (∀ b, b ∈ rows ↔ b ∈ stored ∧ BenchmarkTable.isUsable b = true ∧
          ∀ a ∈ stored, BenchmarkTable.isUsable a = true →
            a.result.provider = b.result.provider →
              a.result.createdAt < b.result.createdAt ∨
                a.result.createdAt = b.result.createdAt ∧ a.id ≤ b.id) ∧
        (∀ a ∈ stored, BenchmarkTable.isUsable a = true →
          ∃ b ∈ rows, b.result.provider = a.result.provider) ∧
        (∀ r, r.isUsable = false → (later.insertBenchmark r).2.latestBenchmarks = .ok rows) ∧
        (∃ same, (d.insertBenchmarks (reported.filter (·.isUsable))).latestBenchmarks = .ok same ∧
          same.map (·.result) = rows.map (·.result)) ∧
        ∃ cache : BenchmarkCache Float, cache.toList = speedsFrom now rows ∧
          e.refreshBenchmarks now later =
            (.ok (speedsFrom now rows).length, { e with benchmarks := cache }, later)) ∧
      ∀ err e' s', e.refreshBenchmarks now s = (.error err, e', s') → e' = e := by
  intro stored later
  have hlater : later = d.withBenchmarks ⟨stored⟩ := insertBenchmarks_eq hd reported
  have htable : later.benchmarkTable = .ok ⟨stored⟩ := by
    rw [hlater]
    exact benchmarkTable_withBenchmarks hd _
  have hnumbered : BenchmarkTable.Numbered stored := BenchmarkTable.numbered_after ht reported
  have hread : later.latestBenchmarks = .ok (BenchmarkTable.latest ⟨stored⟩).values :=
    latestBenchmarks_eq htable
  have hascending := BenchmarkTable.latest_ascending stored
  refine ⟨hlater, fun r hr => insertBenchmark_of_isNaN htable hr,
    ⟨_, hread, hascending, ?_, ?_, ?_, ?_, refreshBenchmarks_eq hread hascending now e⟩, ?_⟩
  · intro b
    rw [BenchmarkTable.mem_latest_iff hnumbered, BenchmarkTable.isLatest_iff]
  · intro a ha husable
    obtain ⟨b, hget⟩ := BenchmarkTable.exists_get?_latest ha husable
    exact ⟨b, (SortedMap.mem_values_iff _ _).2 ⟨_, hget⟩, (BenchmarkTable.isLatest_of_get? hget).1⟩
  · intro r hr
    rw [latestBenchmarks_insertBenchmark htable hr, hread]
  · have husable := insertBenchmarks_eq hd (reported.filter (·.isUsable))
    refine ⟨(t.after (reported.filter (·.isUsable))).latest.values, ?_, ?_⟩
    · rw [husable]
      exact latestBenchmarks_eq (benchmarkTable_withBenchmarks hd _)
    · rw [← BenchmarkTable.values_results, BenchmarkTable.results_latest_of_usable ht,
        BenchmarkTable.values_results]
  · intro err e' s' h
    rw [Engine.refreshBenchmarks] at h
    split at h
    · cases h
      rfl
    · cases h

/-- Provider 1 has two usable results of its latest time and a failed one after them. -/
theorem latestBenchmarks_of_reported_ties :
    let run (provider : Column) (mbps : Float) (createdAt : Column) : BenchmarkResult :=
      ⟨provider, mbps, true, false, none, createdAt⟩
    let reported : List BenchmarkResult :=
      [run 1 100 20, run 0 (0.0 / 0.0) 10, run 1 50 20, { run 1 0 30 with success := false },
        run (-1) 70 5, { run 2 90 7 with loadBalanced := true }, run 1 80 10]
    let d : Database := .fresh
    let later := d.insertBenchmarks reported
    let e : Engine := .start .standard [.pooled]
    (d.benchmarkTable = .ok .empty ∧ BenchmarkTable.Numbered BenchmarkTable.empty.rows) ∧
      later.latestBenchmarks = .ok [⟨4, run (-1) 70 5⟩, ⟨2, run 1 50 20⟩] ∧
      ∃ cache : BenchmarkCache Float, cache.toList = [⟨1, 50, ⟨20, 0⟩⟩] ∧
        e.refreshBenchmarks ⟨60, 0⟩ later = (.ok 1, { e with benchmarks := cache }, later) := by
  intro run reported d later e
  have htable : d.benchmarkTable = .ok .empty := rfl
  have hnumbered : BenchmarkTable.Numbered BenchmarkTable.empty.rows := rfl
  obtain ⟨_, _, ⟨rows, hread, _, _, _, _, _, cache, hcache, hrefresh⟩, _⟩ :=
    latestBenchmarks_of_reported htable hnumbered reported ⟨60, 0⟩ e d
  have hfound : later.latestBenchmarks.toOption = some [⟨4, run (-1) 70 5⟩, ⟨2, run 1 50 20⟩] := by
    decide +kernel
  have hrows : rows = [⟨4, run (-1) 70 5⟩, ⟨2, run 1 50 20⟩] := by
    rw [hread] at hfound
    exact Option.some.inj hfound
  subst hrows
  refine ⟨⟨htable, hnumbered⟩, hread, cache, ?_, hrefresh⟩
  rw [hcache]
  decide +kernel

end Database

end ProviderScout
