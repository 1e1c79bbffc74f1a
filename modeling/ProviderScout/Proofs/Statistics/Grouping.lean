import Mathlib
import ProviderScout.Proofs.Performance.Totals
import ProviderScout.SortedMap.Lookup
import ProviderScout.Statistics.Bucket
import ProviderScout.Store.Tables

namespace ProviderScout

namespace SortedMap

variable {κ ν : Type} [Ord κ]

def sumOf (g : ν → Nat) (m : SortedMap κ ν) : Nat := (m.values.map g).sum

variable [Std.TransOrd κ]

theorem sum_alterList (g : ν → Nat) (k : κ) (f : Option ν → Option ν) {l : List (κ × ν)}
    (h : l.Pairwise fun a b => compare a.1 b.1 = .lt) :
    ((alterList k f l).map fun e => g e.2).sum + (lookup k l).elim 0 g =
      (l.map fun e => g e.2).sum + (f (lookup k l)).elim 0 g := by
  induction l with
  | nil =>
    rw [alterList]
    change _ + 0 = 0 + (f none).elim 0 g
    cases f none with
    | none => rfl
    | some v =>
      simp only [List.map_cons, List.map_nil, List.sum_cons, List.sum_nil, Option.elim]
      omega
  | cons d rest ih =>
    obtain ⟨a, u⟩ := d
    rw [List.pairwise_cons] at h
    obtain ⟨ha, hrest⟩ := h
    rw [alterList]
    cases hc : compare k a with
    | lt =>
      have hnone : lookup k ((a, u) :: rest) = none := lookup_eq_none fun e he => by
        rcases List.mem_cons.1 he with rfl | he
        · exact hc
        · exact Std.TransCmp.lt_trans hc (ha e he)
      rw [hnone]
      cases hf : f none with
      | none => rfl
      | some v =>
        simp only [List.map_cons, List.sum_cons, Option.elim]
        omega
    | eq =>
      rw [lookup_cons, if_pos hc]
      cases hf : f (some u) with
      | none =>
        simp only [List.map_cons, List.sum_cons, Option.elim]
        omega
      | some v =>
        simp only [List.map_cons, List.sum_cons, Option.elim]
        omega
    | gt =>
      -- The key comes later, and the first entry adds the same to both sides.
      have hne : ¬ compare k a = .eq := by
        rw [hc]
        exact Ordering.noConfusion
      have hrest := ih hrest
      simp only [lookup_cons, if_neg hne, List.map_cons, List.sum_cons]
      omega

theorem sumOf_alter (g : ν → Nat) (m : SortedMap κ ν) (k : κ) (f : Option ν → Option ν) :
    (m.alter k f).sumOf g + (m.get? k).elim 0 g = m.sumOf g + (f (m.get? k)).elim 0 g := by
  have h := sum_alterList g k f m.ascending
  rw [sumOf, sumOf, values, values, List.map_map, List.map_map]
  exact h

omit [Std.TransOrd κ] in
theorem le_sumOf [Std.LawfulEqOrd κ] (g : ν → Nat) {m : SortedMap κ ν} {k : κ} {v : ν}
    (h : m.get? k = some v) : g v ≤ m.sumOf g := by
  have hentry := (m.mem_entries_iff k v).2 h
  have hvalue : v ∈ m.values := List.mem_map_of_mem (f := (·.2)) hentry
  exact List.le_sum_of_mem (List.mem_map_of_mem hvalue)

end SortedMap

theorem Counter.wrap_of_le {n : Nat} (h : n ≤ Counter.max) : Counter.wrap n = n :=
  Nat.mod_eq_of_lt (Nat.lt_succ_of_le h)

namespace UsageCount

def source (c : UsageCount) : Source := ⟨c.host, c.kind⟩

def key (c : UsageCount) : UsageKey := ⟨c.host, c.kind, c.operation⟩

/-- How often the operation was done; a negative count is none. -/
def number (c : UsageCount) : Nat := Counter.ofColumn c.count

def sum (counts : List UsageCount) : Nat := (counts.map number).sum

def sumAt (counts : List UsageCount) (k : UsageKey) : Nat :=
  sum (counts.filter fun c => c.key = k)

theorem sum_snoc (counts : List UsageCount) (c : UsageCount) :
    sum (counts ++ [c]) = sum counts + c.number := by
  rw [sum, List.map_append, List.sum_append]
  rfl

theorem sumAt_snoc (counts : List UsageCount) (c : UsageCount) (k : UsageKey) :
    sumAt (counts ++ [c]) k = sumAt counts k + if c.key = k then c.number else 0 := by
  rw [sumAt, List.filter_append]
  split
  · rename_i hk
    have hlast : [c].filter (fun c => c.key = k) = [c] :=
      List.filter_cons_of_pos (decide_eq_true hk)
    rw [hlast, sum_snoc]
    rfl
  · rename_i hk
    have hlast : [c].filter (fun c => c.key = k) = [] :=
      List.filter_cons_of_neg (mt of_decide_eq_true hk)
    rw [hlast, List.append_nil]
    rfl

theorem sumAt_eq_zero {counts : List UsageCount} {k : UsageKey} (h : k ∉ counts.map key) :
    sumAt counts k = 0 := by
  have hnone : (counts.filter fun c => c.key = k) = [] := by
    rw [List.filter_eq_nil_iff]
    intro c hc hk
    exact h (List.mem_map.2 ⟨c, hc, of_decide_eq_true hk⟩)
  rw [sumAt, hnone]
  rfl

theorem sumAt_le_sum (counts : List UsageCount) (k : UsageKey) : sumAt counts k ≤ sum counts := by
  have hsublist : ((counts.filter fun c => c.key = k).map number).Sublist (counts.map number) :=
    List.filter_sublist.map number
  exact hsublist.sum_le_sum fun _ _ => Nat.zero_le _

theorem sum_perm {counts other : List UsageCount} (h : other.Perm counts) :
    sum other = sum counts :=
  (h.map number).sum_nat

theorem sumAt_perm {counts other : List UsageCount} (h : other.Perm counts) (k : UsageKey) :
    sumAt other k = sumAt counts k :=
  sum_perm (h.filter _)

end UsageCount

def UsageKey.source (k : UsageKey) : Source := ⟨k.host, k.kind⟩

theorem UsageKey.eq_iff (a b : UsageKey) :
    a = b ↔ a.source = b.source ∧ a.operation = b.operation := by
  cases a
  cases b
  simp only [mk.injEq, source, Source.mk.injEq, and_assoc]

namespace UsageTable

open UsageCount

def count? (t : UsageTable) (k : UsageKey) : Option Nat :=
  (t.get? k.source).bind fun counts => counts.get? k.operation

def total (t : UsageTable) : Nat := t.sumOf fun counts => counts.sumOf id

theorem ofCounts_snoc (counts : List UsageCount) (c : UsageCount) :
    ofCounts (counts ++ [c]) = (ofCounts counts).add c := by
  rw [ofCounts, List.foldl_append]
  rfl

theorem count?_eq_some_iff (t : UsageTable) (k : UsageKey) (n : Nat) :
    t.count? k = some n ↔ ∃ counts, t.get? k.source = some counts ∧
      counts.get? k.operation = some n :=
  Option.bind_eq_some_iff

theorem getD_count?_le (t : UsageTable) (k : UsageKey) : (t.count? k).getD 0 ≤ t.total := by
  cases hn : t.count? k with
  | none => exact Nat.zero_le _
  | some n =>
    obtain ⟨counts, hcounts, hn⟩ := (t.count?_eq_some_iff k n).1 hn
    calc
      n ≤ counts.sumOf id := SortedMap.le_sumOf id hn
      _ ≤ t.total := SortedMap.le_sumOf (fun counts => counts.sumOf id) hcounts

theorem get?_operations (t : UsageTable) (k : UsageKey) :
    ((t.get? k.source).getD ∅).get? k.operation = t.count? k := by
  rw [count?]
  cases t.get? k.source <;> rfl

theorem count?_add (t : UsageTable) (c : UsageCount) (k : UsageKey) :
    (t.add c).count? k = if k = c.key then
      some (Counter.wrap ((t.count? k).getD 0 + c.number)) else t.count? k := by
  rw [count?, add, SortedMap.get?_alter]
  by_cases hsource : k.source = c.source
  · rw [if_pos (show k.source = ⟨c.host, c.kind⟩ from hsource), Option.bind_some,
      SortedMap.get?_alter]
    change (if _ then some (Counter.wrap ((((t.get? c.source).getD ∅).get? c.operation).getD 0 + _))
      else ((t.get? c.source).getD ∅).get? k.operation) = _
    rw [← hsource, get?_operations]
    by_cases hoperation : k.operation = c.operation
    · rw [if_pos hoperation, if_pos ((k.eq_iff c.key).2 ⟨hsource, hoperation⟩), ← hoperation,
        get?_operations]
      rfl
    · rw [if_neg hoperation, if_neg fun h => hoperation ((k.eq_iff c.key).1 h).2]
  · rw [if_neg (show ¬ k.source = ⟨c.host, c.kind⟩ from hsource),
      if_neg fun h => hsource ((k.eq_iff c.key).1 h).1]
    rfl

/-- As long as the sum of all counts fits a counter, none of them wraps. -/
theorem total_add {t : UsageTable} {c : UsageCount} (h : t.total + c.number ≤ Counter.max) :
    (t.add c).total = t.total + c.number := by
  let operations := (t.get? c.source).getD ∅
  have hinner := SortedMap.sumOf_alter id operations c.operation fun n? =>
    some (Counter.wrap (n?.getD 0 + c.number))
  have houter := SortedMap.sumOf_alter (fun counts => counts.sumOf id) t c.source fun counts? =>
    some ((counts?.getD ∅).alter c.operation fun n? =>
      some (Counter.wrap (n?.getD 0 + c.number)))
  change (t.add c).total + _ = t.total + (operations.alter ..).sumOf id at houter
  have hcount : operations.get? c.operation = t.count? c.key := t.get?_operations c.key
  have hle := t.getD_count?_le c.key
  have hold : (t.count? c.key).elim 0 id = (t.count? c.key).getD 0 := by
    cases t.count? c.key <;> rfl
  have hsum : (t.get? c.source).elim 0 (fun counts => counts.sumOf id) = operations.sumOf id := by
    simp only [operations]
    cases t.get? c.source <;> rfl
  rw [hcount, Option.elim_some, Counter.wrap_of_le (by omega), hold, id] at hinner
  rw [hsum] at houter
  omega

/-- A table into which counts have been grouped. -/
structure Groups (counts : List UsageCount) (t : UsageTable) : Prop where
  count : ∀ k, t.count? k = if k ∈ counts.map key then some (sumAt counts k) else none
  /-- No provider is there without an operation. -/
  used : ∀ source operations, t.get? source = some operations → ∃ operation n,
    operations.get? operation = some n
  total : t.total = sum counts

theorem groups_ofCounts {counts : List UsageCount} (h : sum counts ≤ Counter.max) :
    (ofCounts counts).Groups counts := by
  -- Counts are added at the end, where their sum so far leaves room for one more.
  induction counts using List.reverseRecOn with
  | nil => exact ⟨fun _ => rfl, nofun, rfl⟩
  | append_singleton counts c ih =>
    rw [sum_snoc] at h
    obtain ⟨hcount, hused, htotal⟩ := ih (by omega)
    rw [ofCounts_snoc]
    constructor
    · intro k
      have hmem : k ∈ (counts ++ [c]).map key ↔ k ∈ counts.map key ∨ k = c.key := by
        rw [List.map_append, List.mem_append, List.map_singleton, List.mem_singleton]
      rw [count?_add, hcount, sumAt_snoc]
      simp only [hmem]
      by_cases hk : k = c.key
      · have hold : (if k ∈ counts.map key then some (sumAt counts k) else none).getD 0 =
            sumAt counts k := by
          split
          · rfl
          · rename_i hnew
            exact (sumAt_eq_zero hnew).symm
        have hle := sumAt_le_sum counts k
        have hnew : k ∈ counts.map key ∨ k = c.key := .inr hk
        rw [if_pos hk, if_pos hnew, if_pos hk.symm, hold, Counter.wrap_of_le (by omega)]
      · simp only [if_neg hk, or_iff_left hk, if_neg (Ne.symm hk), Nat.add_zero]
    · intro source operations hget
      rw [add, SortedMap.get?_alter] at hget
      split at hget
      · cases hget
        exact ⟨c.operation, _, (SortedMap.get?_alter ..).trans (if_pos rfl)⟩
      · exact hused source operations hget
    · rw [total_add (htotal ▸ h), htotal, sum_snoc]

theorem Groups.mem_keys_iff {counts : List UsageCount} {t : UsageTable} (h : t.Groups counts)
    (source : Source) : source ∈ t.keys ↔ source ∈ counts.map UsageCount.source := by
  rw [SortedMap.mem_keys_iff]
  constructor
  · rintro ⟨operations, hget⟩
    obtain ⟨operation, n, hn⟩ := h.used source operations hget
    have hsome := (t.count?_eq_some_iff ⟨source.host, source.kind, operation⟩ n).2
      ⟨operations, hget, hn⟩
    rw [h.count] at hsome
    split at hsome
    · rename_i hkey
      obtain ⟨c, hc, hck⟩ := List.mem_map.1 hkey
      exact List.mem_map.2 ⟨c, hc, congrArg UsageKey.source hck⟩
    · cases hsome
  · intro hsource
    obtain ⟨c, hc, rfl⟩ := List.mem_map.1 hsource
    have hsome := (h.count c.key).trans (if_pos (List.mem_map_of_mem hc))
    obtain ⟨operations, hget, _⟩ := (t.count?_eq_some_iff c.key _).1 hsome
    exact ⟨operations, hget⟩

theorem Groups.get?_of_count? {counts : List UsageCount} {t u : UsageTable} (ht : t.Groups counts)
    (h : ∀ k, t.count? k = u.count? k) {source : Source} {operations : SortedMap String Nat}
    (hget : t.get? source = some operations) : u.get? source = some operations := by
  obtain ⟨operation, n, hn⟩ := ht.used source operations hget
  have hsome := (t.count?_eq_some_iff ⟨source.host, source.kind, operation⟩ n).2
    ⟨operations, hget, hn⟩
  rw [h, count?_eq_some_iff] at hsome
  obtain ⟨operations', hget', _⟩ := hsome
  change u.get? source = some operations' at hget'
  have hsame : operations' = operations := by
    apply SortedMap.ext_get?
    intro operation
    have hcount := h ⟨source.host, source.kind, operation⟩
    rw [count?, count?] at hcount
    change (t.get? source).bind _ = (u.get? source).bind _ at hcount
    rw [hget, hget'] at hcount
    exact hcount.symm
  rw [hget', hsame]

theorem Groups.ext {counts other : List UsageCount} {t u : UsageTable} (ht : t.Groups counts)
    (hu : u.Groups other) (h : ∀ k, t.count? k = u.count? k) : t = u := by
  apply SortedMap.ext_get?
  intro source
  cases hsource : t.get? source with
  | some operations => exact (ht.get?_of_count? h hsource).symm
  | none =>
    rw [eq_comm, Option.eq_none_iff_forall_ne_some]
    intro operations hother
    have hback := hu.get?_of_count? (fun k => (h k).symm) hother
    rw [hsource] at hback
    cases hback

theorem ofCounts_perm {counts other : List UsageCount} (hperm : other.Perm counts)
    (h : sum counts ≤ Counter.max) : ofCounts other = ofCounts counts := by
  have hgroups := groups_ofCounts h
  have hother := groups_ofCounts (sum_perm hperm ▸ h : sum other ≤ Counter.max)
  apply hother.ext hgroups
  intro k
  rw [hother.count, hgroups.count, sumAt_perm hperm]
  exact if_congr (hperm.map key).mem_iff rfl rfl

end UsageTable

namespace StatsBucket

open UsageCount

theorem sum_eq {ns : List Nat} (h : ns.sum ≤ Counter.max) : StatsBucket.sum ns = ns.sum := by
  have hfold (ns : List Nat) (a : Nat) (h : a + ns.sum ≤ Counter.max) :
      ns.foldl (fun a b => Counter.wrap (a + b)) a = a + ns.sum := by
    induction ns generalizing a with
    | nil => rfl
    | cons n rest ih =>
      rw [List.sum_cons] at h ⊢
      rw [List.foldl_cons, Counter.wrap_of_le (by omega), ih (a + n) (by omega), Nat.add_assoc]
  rw [StatsBucket.sum, hfold ns 0 (by rwa [Nat.zero_add]), Nat.zero_add]

theorem sum_values_eq {t : UsageTable} (h : t.total ≤ Counter.max) :
    StatsBucket.sum (t.values.flatMap SortedMap.values) = t.total := by
  have htotal : (t.values.flatMap SortedMap.values).sum = t.total := by
    rw [List.flatMap_def, List.sum_flatten, List.map_map, UsageTable.total, SortedMap.sumOf]
    simp only [SortedMap.sumOf, List.map_id]
    rfl
  rw [sum_eq (htotal ▸ h), htotal]

end StatsBucket

section Stable

variable {α : Type} {le : α → α → Bool} (htrans : ∀ a b c, le a b → le b c → le a c)
  (htotal : ∀ a b, le a b || le b a)

include htrans htotal

/-- Sorting leaves elements that go before each other where they stand. -/
theorem filter_mergeSort (l : List α) {p : α → Bool}
    (hp : ∀ a b, p a = true → p b = true → le a b) : (l.mergeSort le).filter p = l.filter p := by
  have hsorted : (l.filter p).Pairwise fun a b => le a b := by
    apply List.pairwise_of_forall_mem_list
    intro a ha b hb
    exact hp a b (List.mem_filter.1 ha).2 (List.mem_filter.1 hb).2
  have hsublist := (List.sublist_mergeSort htrans htotal hsorted List.filter_sublist).filter p
  rw [List.filter_filter] at hsublist
  simp only [Bool.and_self] at hsublist
  apply (hsublist.eq_of_length _).symm
  exact ((List.mergeSort_perm l le).filter p).length_eq.symm

theorem pairwise_mergeSort_of_pairwise {R : α → α → Prop} {l : List α} (h : l.Pairwise R) :
    (l.mergeSort le).Pairwise fun a b => le a b ∧ (le b a → R a b) := by
  rw [List.pairwise_iff_forall_sublist]
  intro a b hab
  have hle : le a b :=
    List.pairwise_iff_forall_sublist.1 (List.pairwise_mergeSort htrans htotal l) hab
  refine ⟨hle, fun hge => ?_⟩
  -- Both stand among the elements that go before `a` and behind it, which sorting leaves in place.
  let p : α → Bool := fun c => le a c && le c a
  have hrefl : le a a := by simpa using htotal a a
  have hp (c d : α) (hc : p c = true) (hd : p d = true) : le c d := by
    rw [Bool.and_eq_true] at hc hd
    exact htrans c a d hc.2 hd.1
  have hpair := hab.filter p
  rw [filter_mergeSort htrans htotal l hp] at hpair
  have hpa : p a = true := Bool.and_eq_true_iff.2 ⟨hrefl, hrefl⟩
  have hpb : p b = true := Bool.and_eq_true_iff.2 ⟨hle, hge⟩
  rw [List.filter_cons_of_pos hpa, List.filter_cons_of_pos hpb, List.filter_nil] at hpair
  exact List.pairwise_iff_forall_sublist.1 (h.filter p) hpair

end Stable

namespace UsageSummary

def source (p : UsageSummary) : Source := ⟨p.host, p.kind⟩

/-- Whether a provider stands before another: it is busier, or as busy and comes first by host and
kind. -/
def Precedes (a b : UsageSummary) : Prop :=
  b.total < a.total ∨ a.total = b.total ∧ compare a.source b.source = .lt

end UsageSummary

namespace StatsBucket

open UsageCount

/-- A bucket in which counts have been grouped. -/
structure Groups (b : StatsBucket) (counts : List UsageCount) : Prop where
  /-- Each provider has one entry. -/
  sources : (b.providers.map UsageSummary.source).Perm (counts.map UsageCount.source).dedup
  /-- Its operations are those that are counted for it, each with the sum of its counts. -/
  counts : ∀ p ∈ b.providers, ∀ operation, p.counts.get? operation =
    if ⟨p.host, p.kind, operation⟩ ∈ counts.map key then
      some (sumAt counts ⟨p.host, p.kind, operation⟩) else none
  totals : ∀ p ∈ b.providers, p.total = p.counts.values.sum
  total : b.total = (b.providers.map UsageSummary.total).sum
  sorted : b.providers.Pairwise UsageSummary.Precedes

section Sum

variable {counts : List UsageCount} (h : UsageCount.sum counts ≤ Counter.max) (hours : Int64)
  (now : Instant)

include h

theorem ofCounts_of_sum_eq_zero (hzero : UsageCount.sum counts = 0) :
    ofCounts counts hours now = empty hours now := by
  have htotal := (UsageTable.groups_ofCounts h).total
  have hsum := sum_values_eq (htotal ▸ h)
  exact if_pos (hsum.trans (htotal.trans hzero))

theorem ofCounts_of_sum_ne_zero (hne : UsageCount.sum counts ≠ 0) :
    ofCounts counts hours now =
      ⟨((UsageTable.ofCounts counts).entries.map fun e =>
          summary (UsageCount.sum counts) e.1 e.2).mergeSort fun a b => b.total ≤ a.total,
        UsageCount.sum counts, now, hours⟩ := by
  have htotal := (UsageTable.groups_ofCounts h).total
  have hsum := (sum_values_eq (htotal ▸ h)).trans htotal
  rw [ofCounts, hsum]
  exact if_neg hne

theorem total_ofCounts : (ofCounts counts hours now).total = UsageCount.sum counts := by
  by_cases hzero : UsageCount.sum counts = 0
  · rw [ofCounts_of_sum_eq_zero h hours now hzero, hzero]
    rfl
  · rw [ofCounts_of_sum_ne_zero h hours now hzero]

theorem groups_ofCounts (hne : UsageCount.sum counts ≠ 0) :
    (ofCounts counts hours now).Groups counts := by
  have hgroups := UsageTable.groups_ofCounts h
  rw [ofCounts_of_sum_ne_zero h hours now hne]
  generalize UsageTable.ofCounts counts = t at hgroups
  have htotal (e : Source × SortedMap String Nat) (he : e ∈ t.entries) :
      StatsBucket.sum e.2.values = e.2.sumOf id := by
    have hget := (t.mem_entries_iff e.1 e.2).1 he
    have hle : e.2.sumOf id ≤ t.total := SortedMap.le_sumOf (fun counts => counts.sumOf id) hget
    rw [hgroups.total] at hle
    rw [SortedMap.sumOf, List.map_id] at hle ⊢
    exact sum_eq (Nat.le_trans hle h)
  have hperm := List.mergeSort_perm (t.entries.map fun e => summary (UsageCount.sum counts) e.1 e.2)
    fun a b => decide (b.total ≤ a.total)
  constructor
  · have hkeys : (t.entries.map fun e => summary (UsageCount.sum counts) e.1 e.2).map
        UsageSummary.source = t.keys := by
      rw [List.map_map]
      rfl
    apply (hperm.map UsageSummary.source).trans
    rw [hkeys, List.perm_ext_iff_of_nodup t.keys_nodup (List.nodup_dedup _)]
    intro source
    rw [hgroups.mem_keys_iff, List.mem_dedup]
  · intro p hp operation
    obtain ⟨e, he, rfl⟩ := List.mem_map.1 (hperm.mem_iff.1 hp)
    have hget := (t.mem_entries_iff e.1 e.2).1 he
    have hcount := hgroups.count ⟨e.1.host, e.1.kind, operation⟩
    rw [UsageTable.count?] at hcount
    change (t.get? e.1).bind _ = _ at hcount
    rw [hget] at hcount
    exact hcount
  · intro p hp
    obtain ⟨e, he, rfl⟩ := List.mem_map.1 (hperm.mem_iff.1 hp)
    have hsum := htotal e he
    rw [SortedMap.sumOf, List.map_id] at hsum
    exact hsum
  · have htotals : (t.entries.map fun e => summary (UsageCount.sum counts) e.1 e.2).map
        UsageSummary.total = t.entries.map fun e => e.2.sumOf id := by
      rw [List.map_map]
      apply List.map_congr_left
      intro e he
      exact htotal e he
    rw [(hperm.map UsageSummary.total).sum_nat, htotals, ← hgroups.total, UsageTable.total,
      SortedMap.sumOf, SortedMap.values, List.map_map]
    rfl
  · have hascending : (t.entries.map fun e => summary (UsageCount.sum counts) e.1 e.2).Pairwise
        fun a b => compare a.source b.source = .lt := List.pairwise_map.2 t.ascending
    have hle (a b : UsageSummary) :
        decide (b.total ≤ a.total) = true ↔ b.total ≤ a.total := decide_eq_true_iff
    have htrans (a b c : UsageSummary) (hab : decide (b.total ≤ a.total) = true)
        (hbc : decide (c.total ≤ b.total) = true) : decide (c.total ≤ a.total) = true := by
      rw [hle] at hab hbc ⊢
      exact Nat.le_trans hbc hab
    have htotal (a b : UsageSummary) :
        (decide (b.total ≤ a.total) || decide (a.total ≤ b.total)) = true := by
      rw [Bool.or_eq_true, hle, hle]
      exact Nat.le_total b.total a.total
    have hstable := pairwise_mergeSort_of_pairwise htrans htotal hascending
    apply hstable.imp
    intro a b hab
    obtain ⟨hbusier, hties⟩ := hab
    rw [hle] at hbusier hties
    rcases Nat.lt_or_eq_of_le hbusier with hlt | heq
    · exact .inl hlt
    · exact .inr ⟨heq.symm, hties (Nat.le_of_eq heq.symm)⟩

end Sum

/-- A bucket holds the sum of all counts. If that is 0 it is empty; otherwise it groups the counts.
Counts in another order give the same bucket. -/
theorem ofCounts_groups {counts : List UsageCount} (h : UsageCount.sum counts ≤ Counter.max)
    (hours : Int64) (now : Instant) :
    let b := ofCounts counts hours now
    b.total = UsageCount.sum counts ∧
      (UsageCount.sum counts = 0 → b = empty hours now) ∧
      (UsageCount.sum counts ≠ 0 → b.Groups counts) ∧
      ∀ other, other.Perm counts → ofCounts other hours now = b := by
  intro b
  refine ⟨total_ofCounts h hours now, ofCounts_of_sum_eq_zero h hours now,
    groups_ofCounts h hours now, ?_⟩
  intro other hperm
  have htable := UsageTable.ofCounts_perm hperm h
  simp only [b, ofCounts, htable]

/-- The counts of one operation come apart, and one of another provider is negative. -/
theorem ofCounts_groups_of_parted_count :
    let count (host operation : String) (n : Int64) : UsageCount := ⟨host, "Pooled", operation, n⟩
    let counts := [count "b" "BODY" 2, count "a" "STAT" (-5), count "b" "BODY" 1,
      count "a" "BODY" 3]
    let b := ofCounts counts 24 ⟨1700000000, 0⟩
    UsageCount.sum counts ≤ Counter.max ∧ UsageCount.sum counts ≠ 0 ∧
      counts.reverse.Perm counts ∧ b.total = 6 ∧ b.Groups counts ∧
      (b.providers.map UsageSummary.source).Perm [⟨"a", "Pooled"⟩, ⟨"b", "Pooled"⟩] ∧
      ofCounts counts.reverse 24 ⟨1700000000, 0⟩ = b := by
  intro count counts b
  have hmax : UsageCount.sum counts ≤ Counter.max := by decide
  have hne : UsageCount.sum counts ≠ 0 := by decide
  have hperm : counts.reverse.Perm counts := List.reverse_perm counts
  obtain ⟨htotal, _, hgroups, hsame⟩ := ofCounts_groups hmax 24 ⟨1700000000, 0⟩
  have hsources := (hgroups hne).sources.trans (by decide : (counts.map source).dedup.Perm
    [⟨"a", "Pooled"⟩, ⟨"b", "Pooled"⟩])
  exact ⟨hmax, hne, hperm, htotal, hgroups hne, hsources, hsame _ hperm⟩

end StatsBucket

end ProviderScout
