import ProviderScout.Proofs.Statistics.Grouping

namespace ProviderScout

namespace SortedMap

variable {κ : Type} [Ord κ] [Std.TransOrd κ]

def tally (keys : List κ) : SortedMap κ Nat :=
  keys.foldl (fun m k => m.alter k fun n? => some (n?.getD 0 + 1)) ∅

theorem tally_snoc (keys : List κ) (k : κ) :
    tally (keys ++ [k]) = (tally keys).alter k fun n? => some (n?.getD 0 + 1) := by
  rw [tally, List.foldl_append]
  rfl

theorem sumOf_tally (keys : List κ) : (tally keys).sumOf id = keys.length := by
  induction keys using List.reverseRecOn with
  | nil => rfl
  | append_singleton keys k ih =>
    have h := sumOf_alter id (tally keys) k fun n? => some (n?.getD 0 + 1)
    rw [← tally_snoc, ih] at h
    rw [List.length_append, List.length_singleton]
    cases hk : (tally keys).get? k <;> rw [hk] at h <;>
      simp only [Option.elim, Option.getD, id] at h <;> omega

variable [Std.LawfulEqOrd κ] [DecidableEq κ]

theorem get?_tally (keys : List κ) (k : κ) :
    (tally keys).get? k = if keys.count k = 0 then none else some (keys.count k) := by
  induction keys using List.reverseRecOn with
  | nil => rfl
  | append_singleton keys a ih =>
    rw [tally_snoc, get?_alter, List.count_append, List.count_singleton]
    by_cases hk : k = a
    · subst hk
      rw [if_pos rfl, ih, beq_self_eq_true, if_pos rfl, if_neg (Nat.succ_ne_zero _)]
      split
      · rename_i hzero
        rw [hzero]
        rfl
      · rfl
    · have hne : (a == k) = false := beq_eq_false_iff_ne.2 (Ne.symm hk)
      rw [if_neg hk, ih, hne]
      rfl

end SortedMap

namespace UsageCount

theorem sumAt_key {counts : List UsageCount} (h : (counts.map key).Nodup) {c : UsageCount}
    (hc : c ∈ counts) : sumAt counts c.key = c.number := by
  induction counts using List.reverseRecOn with
  | nil => cases hc
  | append_singleton counts d ih =>
    rw [List.map_append, List.nodup_append] at h
    obtain ⟨hnodup, _, hdisjoint⟩ := h
    have hnew : d.key ∉ counts.map key := fun hmem =>
      hdisjoint d.key hmem d.key (List.mem_singleton_self _) rfl
    rw [sumAt_snoc]
    rcases List.mem_append.1 hc with hc | hc
    · have hne : d.key ≠ c.key := fun heq => hnew (heq ▸ List.mem_map_of_mem hc)
      rw [ih hnodup hc, if_neg hne, Nat.add_zero]
    · cases List.mem_singleton.1 hc
      rw [if_pos rfl, sumAt_eq_zero hnew, Nat.zero_add]

end UsageCount

namespace StatsBucket

open UsageCount

/-- The usage in a bucket when each operation of each provider was done a number of times. -/
structure Shows (b : StatsBucket) (number : UsageKey → Nat) : Prop where
  /-- The operations that were done are counted, and no others are listed. -/
  counts : ∀ p ∈ b.providers, ∀ operation, p.counts.get? operation =
    if number ⟨p.host, p.kind, operation⟩ = 0 then none
    else some (number ⟨p.host, p.kind, operation⟩)
  /-- The providers that did something have an entry, and no others. -/
  providers : ∀ host kind, (∃ p ∈ b.providers, p.host = host ∧ p.kind = kind) ↔
    ∃ operation, number ⟨host, kind, operation⟩ ≠ 0
  once : (b.providers.map fun p => (p.host, p.kind)).Nodup

def countsOf (keys : List UsageKey) : List UsageCount :=
  (SortedMap.tally keys).entries.map fun e =>
    ⟨e.1.host, e.1.kind, e.1.operation, Column.ofCounter e.2⟩

theorem key_countsOf (keys : List UsageKey) :
    (countsOf keys).map UsageCount.key = (SortedMap.tally keys).keys := by
  rw [countsOf, List.map_map, SortedMap.keys]
  rfl

theorem mem_key_countsOf_iff (keys : List UsageKey) (k : UsageKey) :
    k ∈ (countsOf keys).map UsageCount.key ↔ keys.count k ≠ 0 := by
  rw [key_countsOf, SortedMap.mem_keys_iff, SortedMap.get?_tally]
  split
  · rename_i hzero
    simp only [hzero, ne_eq, not_true_eq_false, reduceCtorEq, exists_const]
  · rename_i hne
    exact iff_of_true ⟨_, rfl⟩ hne

section Counted

variable {keys : List UsageKey} (hroom : keys.length ≤ Column.max)

include hroom

theorem le_of_mem_tally {e : UsageKey × Nat} (h : e ∈ (SortedMap.tally keys).entries) :
    e.2 = keys.count e.1 ∧ e.2 ≤ Column.max := by
  have hget := (SortedMap.mem_entries_iff _ e.1 e.2).1 h
  rw [SortedMap.get?_tally] at hget
  split at hget
  · cases hget
  · have hcount := Option.some.inj hget
    exact ⟨hcount.symm, hcount ▸ Nat.le_trans List.count_le_length hroom⟩

theorem sumAt_countsOf (k : UsageKey) : sumAt (countsOf keys) k = keys.count k := by
  by_cases hk : k ∈ (countsOf keys).map UsageCount.key
  · obtain ⟨c, hc, rfl⟩ := List.mem_map.1 hk
    rw [sumAt_key (key_countsOf keys ▸ SortedMap.keys_nodup _) hc]
    obtain ⟨e, he, rfl⟩ := List.mem_map.1 hc
    obtain ⟨hcount, hle⟩ := le_of_mem_tally hroom he
    rw [number, Counter.ofColumn_ofCounter, Nat.min_eq_left hle]
    exact hcount
  · rw [sumAt_eq_zero hk]
    rw [mem_key_countsOf_iff, Classical.not_not] at hk
    exact hk.symm

theorem sum_countsOf : UsageCount.sum (countsOf keys) = keys.length := by
  have hvalues : (countsOf keys).map number = (SortedMap.tally keys).values.map id := by
    rw [countsOf, SortedMap.values, List.map_map, List.map_map]
    apply List.map_congr_left
    intro e he
    change Counter.ofColumn (Column.ofCounter e.2) = e.2
    rw [Counter.ofColumn_ofCounter, Nat.min_eq_left (le_of_mem_tally hroom he).2]
  rw [UsageCount.sum, hvalues]
  exact SortedMap.sumOf_tally keys

/-- A bucket shows how often each key occurs, and how many there are. -/
theorem ofCounts_countsOf (hours : Int64) (now : Instant) :
    (ofCounts (countsOf keys) hours now).Shows (keys.count ·) ∧
      (ofCounts (countsOf keys) hours now).total = keys.length := by
  have hsum := sum_countsOf hroom
  have hmax : UsageCount.sum (countsOf keys) ≤ Counter.max :=
    hsum ▸ Nat.le_trans hroom (by decide)
  refine ⟨?_, (total_ofCounts hmax hours now).trans hsum⟩
  by_cases hzero : UsageCount.sum (countsOf keys) = 0
  · rw [ofCounts_of_sum_eq_zero hmax hours now hzero]
    cases List.length_eq_zero_iff.1 (hsum.symm.trans hzero)
    constructor
    · exact nofun
    · intro host kind
      constructor
      · rintro ⟨p, hp, _⟩
        cases hp
      · rintro ⟨operation, hne⟩
        exact absurd rfl hne
    · exact List.nodup_nil
  · have hgroups := groups_ofCounts hmax hours now hzero
    generalize ofCounts (countsOf keys) hours now = b at hgroups
    have hsource (source : Source) :
        source ∈ b.providers.map UsageSummary.source ↔
          ∃ operation, keys.count ⟨source.host, source.kind, operation⟩ ≠ 0 := by
      simp only [hgroups.sources.mem_iff, List.mem_dedup, ← mem_key_countsOf_iff]
      constructor
      · intro hmem
        obtain ⟨c, hc, rfl⟩ := List.mem_map.1 hmem
        exact ⟨c.operation, List.mem_map_of_mem hc⟩
      · rintro ⟨operation, hkey⟩
        obtain ⟨c, hc, hck⟩ := List.mem_map.1 hkey
        exact List.mem_map.2 ⟨c, hc, congrArg UsageKey.source hck⟩
    constructor
    · intro p hp operation
      simp only [hgroups.counts p hp, mem_key_countsOf_iff, sumAt_countsOf hroom, ite_not]
    · intro host kind
      rw [← hsource ⟨host, kind⟩, List.mem_map]
      simp only [UsageSummary.source, Source.mk.injEq]
    · have hnodup : (b.providers.map UsageSummary.source).Nodup :=
        hgroups.sources.nodup_iff.2 (List.nodup_dedup _)
      have hpairs : (b.providers.map fun p => (p.host, p.kind)) =
          (b.providers.map UsageSummary.source).map fun s => (s.host, s.kind) := by
        rw [List.map_map]
        rfl
      rw [hpairs]
      apply hnodup.map
      rintro ⟨host, kind⟩ ⟨host', kind'⟩ h
      cases h
      rfl

end Counted

end StatsBucket

end ProviderScout
