import ProviderScout.Proofs.Statistics.Counts
import ProviderScout.Proofs.Statistics.Windows

namespace ProviderScout

namespace Instant

/-- The nanoseconds from one instant to a later one. A leap second in which the first one lies has
passed when a later second begins. -/
def nanosUntil (a b : Instant) : Int :=
  1000000000 * (b.secs - a.secs) + (b.nanos - a.nanos) +
    if a.inLeapSecond && a.secs < b.secs then 1000000000 else 0

theorem secs_le_of_le {a b : Instant} (h : a.le b = true) : a.secs ≤ b.secs := by
  simp only [le, Bool.or_eq_true, Bool.and_eq_true, decide_eq_true_iff, beq_iff_eq] at h
  omega

/-- A full second before an instant outside leap seconds another second is counted. -/
theorem secs_lt_of_nanosUntil {a b : Instant} (hb : b.inLeapSecond = false)
    (h : 1000000000 ≤ a.nanosUntil b) : a.secs < b.secs := by
  have hnanos : b.nanos < 1000000000 := Nat.lt_of_not_le (of_decide_eq_false hb)
  rw [nanosUntil] at h
  split at h
  · rename_i hleap
    exact of_decide_eq_true (Bool.and_eq_true_iff.1 hleap).2
  · omega

theorem secs_hoursBefore? {t s : Instant} {hours : Int} (h : t.hoursBefore? hours = some s) :
    s.secs = t.secs - 3600 * hours ∨ 0 < hours ∧ s.secs = t.secs + 1 - 3600 * hours := by
  simp only [hoursBefore?, Option.ite_none_right_eq_some, Option.some.injEq] at h
  obtain ⟨_, rfl⟩ := h
  dsimp only
  split
  · exact .inl rfl
  · rcases t.secs_outsideLeapSecond (decide (0 < hours)) with hsecs | ⟨hpos, hsecs⟩
    · exact .inl (by rw [hsecs])
    · exact .inr ⟨of_decide_eq_true hpos, by rw [hsecs]⟩

/-- More hours lead further back, also out of a leap second. -/
theorem hoursBefore?_anti {t s s' : Instant} {hours fewer : Int} (hle : fewer ≤ hours)
    (hs : t.hoursBefore? hours = some s) (hs' : t.hoursBefore? fewer = some s') :
    s.secs ≤ s'.secs := by
  rcases Int.le_iff_eq_or_lt.1 hle with rfl | hlt
  · rw [hs] at hs'
    cases hs'
    exact Int.le_refl _
  · have hback := secs_hoursBefore? hs
    have hback' := secs_hoursBefore? hs'
    omega

end Instant

/-- Whether a stored event is counted in a window that begins at an instant. -/
def StoredEvent.isSince (since : Instant) (e : StoredEvent) : Bool := since.secs ≤ e.second

namespace EventTable

def number (t : EventTable) (since : Instant) (k : UsageKey) : Nat :=
  t.rows.countP fun e => e.isSince since && e.key? == some k

theorem number_mono (t : EventTable) {since since' : Instant} (h : since.secs ≤ since'.secs)
    (k : UsageKey) : t.number since' k ≤ t.number since k := by
  apply List.countP_mono_left
  intro e _
  simp only [StoredEvent.isSince, Bool.and_eq_true, decide_eq_true_iff]
  rintro ⟨hsince, hkey⟩
  exact ⟨Int.le_trans h hsince, hkey⟩

end EventTable

namespace StatsBucket

def count (b : StatsBucket) (k : UsageKey) : Nat :=
  match b.providers.find? fun p => p.host == k.host && p.kind == k.kind with
  | some p => (p.counts.get? k.operation).getD 0
  | none => 0

theorem Shows.count_eq {b : StatsBucket} {number : UsageKey → Nat} (h : b.Shows number)
    (k : UsageKey) : b.count k = number k := by
  rw [count]
  split
  · rename_i p hp
    have hsame := List.find?_some hp
    rw [Bool.and_eq_true, beq_iff_eq, beq_iff_eq] at hsame
    have hcount := h.counts p (List.mem_of_find?_eq_some hp) k.operation
    rw [hsame.1, hsame.2] at hcount
    rw [hcount]
    split
    · rename_i hzero
      exact hzero.symm
    · rfl
  · rename_i hnone
    by_contra hne
    obtain ⟨p, hp, hhost, hkind⟩ := (h.providers k.host k.kind).2 ⟨k.operation, Ne.symm hne⟩
    apply List.find?_eq_none.1 hnone p hp
    rw [hhost, hkind, beq_self_eq_true, beq_self_eq_true, Bool.and_self]

end StatsBucket

namespace Aggregator

variable {d : Database} {t : EventTable} (ht : d.eventTable = .ok t)
  (hroom : t.rows.length ≤ EventTable.maxRows)

include ht hroom

theorem compute_shows (hours : Int64) (since now : Instant) :
    ∃ bucket, (compute hours since now d).1 = .ok bucket ∧ bucket.Shows (t.number since) ∧
      bucket.total = t.rows.countP fun e => e.isSince since && e.operation.isSome := by
  let keys := t.rows.filterMap fun e => if since.secs ≤ e.second then e.key? else none
  have hlength : keys.length ≤ Column.max := Nat.le_trans (List.length_filterMap_le ..) hroom
  have hcounts : d.countsSince since.secs = .ok (StatsBucket.countsOf keys) := by
    rw [Database.countsSince, ht]
    rfl
  have hkey (e : StoredEvent) : (if since.secs ≤ e.second then e.key? else none) =
      if e.isSince since then e.key? else none := by
    simp only [StoredEvent.isSince, decide_eq_true_eq]
  have hnumber : t.number since = (keys.count ·) := by
    funext k
    rw [EventTable.number, List.count_filterMap]
    apply List.countP_congr
    intro e _
    rw [hkey]
    cases e.isSince since <;> exact Iff.rfl
  have hnamed : keys.length = t.rows.countP fun e => e.isSince since && e.operation.isSome := by
    rw [List.length_filterMap_eq_countP]
    apply List.countP_congr
    intro e _
    rw [hkey, ← Option.isSome_map (f := fun operation => UsageKey.mk e.host e.kind operation)]
    cases e.isSince since <;> exact Iff.rfl
  obtain ⟨hshows, htotal⟩ := StatsBucket.ofCounts_countsOf hlength hours now
  refine ⟨.ofCounts (StatsBucket.countsOf keys) hours now, ?_, hnumber ▸ hshows,
    htotal.trans hnamed⟩
  change (d.countsSince since.secs).map _ = _
  rw [hcounts]
  rfl

/-- A window counts exactly the stored events with an operation whose full second is not before that
of its start, each operation of each provider apart. An event that happened at the start or later is
among them, and none is that happened a full second or more before, unless the window starts within
a leap second. A window of no more hours counts no operation more often. -/
theorem compute_counts_since {hours : Int64} {now since : Instant}
    (hsince : cutoff? hours now = some since) :
    ∃ bucket, (compute hours since now d).1 = .ok bucket ∧
      (∀ k, bucket.count k = t.rows.countP fun e => e.isSince since && e.key? == some k) ∧
      (∀ e : UsageEvent, since.le e.createdAt = true →
        (StoredEvent.ofEvent e).isSince since = true) ∧
      (∀ e : UsageEvent, since.inLeapSecond = false → 1000000000 ≤ e.createdAt.nanosUntil since →
        (StoredEvent.ofEvent e).isSince since = false) ∧
      ∀ fewer since', fewer ≤ hours → cutoff? fewer now = some since' →
        ∃ bucket', (compute fewer since' now d).1 = .ok bucket' ∧
          ∀ k, bucket'.count k ≤ bucket.count k := by
  obtain ⟨bucket, hbucket, hshows, _⟩ := compute_shows ht hroom hours since now
  refine ⟨bucket, hbucket, hshows.count_eq, ?_, ?_, ?_⟩
  · intro e hle
    exact decide_eq_true (Instant.secs_le_of_le hle)
  · intro e hleap hearly
    exact decide_eq_false (Int.not_le.2 (Instant.secs_lt_of_nanosUntil hleap hearly))
  · intro fewer since' hle hsince'
    obtain ⟨bucket', hbucket', hshows', _⟩ := compute_shows ht hroom fewer since' now
    refine ⟨bucket', hbucket', ?_⟩
    intro k
    have hback := Instant.hoursBefore?_anti (Int64.le_iff_toInt_le.1 hle) hsince hsince'
    rw [hshows.count_eq, hshows'.count_eq]
    exact t.number_mono hback k

omit ht hroom

/-- Of four stored events two are counted: one of the future, and one that happened within the second
in which the window starts, but before it does. -/
theorem compute_counts_since_of_early_window :
    let event (id : Nat) (time : Instant) (operation : Option String) : UsageEvent :=
      ⟨⟨id⟩, time, "news.example.org", "Pooled", operation, none⟩
    let now : Instant := ⟨-1, 500000000⟩
    let since : Instant := ⟨-3601, 500000000⟩
    let t : EventTable := ⟨[
      .ofEvent (event 1 ⟨-3601, 250000000⟩ (some "BODY")),
      .ofEvent (event 2 ⟨-3602, 500000000⟩ (some "BODY")),
      .ofEvent (event 3 ⟨1700000000, 0⟩ (some "BODY")),
      .ofEvent (event 4 ⟨-1, 0⟩ none)], []⟩
    let d := Database.fresh.withEvents t
    d.eventTable = .ok t ∧ t.rows.length ≤ EventTable.maxRows ∧ cutoff? 1 now = some since ∧
      ∃ bucket, (compute 1 since now d).1 = .ok bucket ∧
        bucket.count ⟨"news.example.org", "Pooled", "BODY"⟩ = 2 := by
  intro event now since t d
  have ht : d.eventTable = .ok t := rfl
  have hroom : t.rows.length ≤ EventTable.maxRows := by decide
  have hsince : cutoff? 1 now = some since := by decide
  obtain ⟨bucket, hbucket, hcount, _⟩ := compute_counts_since ht hroom hsince
  refine ⟨ht, hroom, hsince, bucket, hbucket, ?_⟩
  rw [hcount]
  decide

/-- In a window of no hours that is computed within a leap second an event is counted that happened
more than a full second before, as a leap second belongs to the second before it. -/
theorem counts_before_leap_second :
    let event : UsageEvent :=
      ⟨⟨1⟩, ⟨1483228799, 400000000⟩, "news.example.org", "Pooled", some "BODY", none⟩
    let now : Instant := ⟨1483228799, 1500000000⟩
    let t : EventTable := ⟨[.ofEvent event], []⟩
    let d := Database.fresh.withEvents t
    d.eventTable = .ok t ∧ cutoff? 0 now = some now ∧
      1000000000 ≤ event.createdAt.nanosUntil now ∧
      (∃ bucket, (compute 0 now now d).1 = .ok bucket ∧
        bucket.count ⟨"news.example.org", "Pooled", "BODY"⟩ = 1) ∧
      ¬ ∀ e : UsageEvent, 1000000000 ≤ e.createdAt.nanosUntil now →
        (StoredEvent.ofEvent e).isSince now = false := by
  intro event now t d
  have ht : d.eventTable = .ok t := rfl
  have hearly : 1000000000 ≤ event.createdAt.nanosUntil now := by decide
  obtain ⟨bucket, hbucket, hshows, _⟩ := compute_shows ht (by decide) 0 now now
  refine ⟨ht, by decide, hearly, ⟨bucket, hbucket, ?_⟩, ?_⟩
  · rw [hshows.count_eq]
    decide
  · intro h
    exact absurd (h event hearly) (by decide)

end Aggregator

end ProviderScout
