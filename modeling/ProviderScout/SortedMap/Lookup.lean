import ProviderScout.SortedMap.Basic

namespace ProviderScout.SortedMap

variable {κ ν μ : Type} [Ord κ]

def lookup (k : κ) (l : List (κ × ν)) : Option ν :=
  (l.find? fun e => compare k e.1 == .eq).map (·.2)

theorem lookup_cons (k : κ) (e : κ × ν) (l : List (κ × ν)) :
    lookup k (e :: l) = if compare k e.1 = .eq then some e.2 else lookup k l := by
  rw [lookup, List.find?_cons]
  cases hc : compare k e.1 <;> simp [lookup]

theorem lookup_eq_none {k : κ} {l : List (κ × ν)} (h : ∀ e ∈ l, compare k e.1 = .lt) :
    lookup k l = none := by
  rw [lookup, Option.map_eq_none_iff, List.find?_eq_none]
  intro e he
  simp [h e he]

theorem lookup_map (l : List (κ × ν)) (f : κ → ν → μ) (k : κ)
    (h : ∀ a, compare k a = .eq → k = a) :
    lookup k (l.map fun e => (e.1, f e.1 e.2)) = (lookup k l).map (f k) := by
  induction l with
  | nil => rfl
  | cons e rest ih =>
    rw [List.map_cons, lookup_cons, lookup_cons, ih]
    by_cases hc : compare k e.1 = .eq
    · rw [if_pos hc, if_pos hc, ← h _ hc]
      rfl
    · rw [if_neg hc, if_neg hc]

section Lawful

variable [Std.LawfulEqOrd κ]

theorem get?_map (m : SortedMap κ ν) (f : κ → ν → μ) (k : κ) :
    (m.map f).get? k = (m.get? k).map (f k) :=
  lookup_map m.entries f k fun _ => Std.LawfulEqOrd.eq_of_compare

theorem lookup_eq_some_iff {l : List (κ × ν)} (h : l.Pairwise fun a b => compare a.1 b.1 = .lt)
    (k : κ) (v : ν) : lookup k l = some v ↔ (k, v) ∈ l := by
  induction l with
  | nil => simp [lookup]
  | cons d rest ih =>
    obtain ⟨a, u⟩ := d
    rw [List.pairwise_cons] at h
    rw [List.mem_cons, lookup_cons]
    by_cases hk : k = a
    · subst hk
      have hn : lookup k rest = none := lookup_eq_none h.1
      rw [if_pos Std.ReflOrd.compare_self, ← ih h.2, hn]
      simp [eq_comm]
    · rw [if_neg fun hc => hk (Std.LawfulEqOrd.eq_of_compare hc), ih h.2]
      simp [hk]

theorem mem_entries_iff (m : SortedMap κ ν) (k : κ) (v : ν) :
    (k, v) ∈ m.entries ↔ m.get? k = some v :=
  (lookup_eq_some_iff m.ascending k v).symm

theorem mem_keys_iff (m : SortedMap κ ν) (k : κ) : k ∈ m.keys ↔ ∃ v, m.get? k = some v := by
  simp only [keys, List.mem_map, Prod.exists, exists_and_right, exists_eq_right, mem_entries_iff]

theorem mem_values_iff (m : SortedMap κ ν) (v : ν) : v ∈ m.values ↔ ∃ k, m.get? k = some v := by
  simp only [values, List.mem_map, Prod.exists, exists_eq_right, mem_entries_iff]

theorem get?_filter (m : SortedMap κ ν) (p : κ → ν → Bool) (k : κ) :
    (m.filter p).get? k = (m.get? k).filter (p k) := by
  ext v
  rw [← mem_entries_iff, Option.filter_eq_some_iff, ← mem_entries_iff]
  exact List.mem_filter

variable [Std.TransOrd κ]

omit [Std.LawfulEqOrd κ] in
theorem entries_nodup (m : SortedMap κ ν) : m.entries.Nodup :=
  m.ascending.imp fun {a b} hab he => by
    rw [he, Std.ReflOrd.compare_self] at hab
    cases hab

omit [Std.LawfulEqOrd κ] in
theorem keys_nodup (m : SortedMap κ ν) : m.keys.Nodup :=
  List.pairwise_map.2 (m.ascending.imp fun {a b} hab he => by
    rw [he, Std.ReflOrd.compare_self] at hab
    cases hab)

/-- Maps that agree at every key are equal. -/
theorem ext_get? {m n : SortedMap κ ν} (h : ∀ k, m.get? k = n.get? k) : m = n := by
  have hmem (e : κ × ν) : e ∈ m.entries ↔ e ∈ n.entries := by
    rw [mem_entries_iff, mem_entries_iff, h]
  have hperm : m.entries.Perm n.entries :=
    (List.perm_ext_iff_of_nodup m.entries_nodup n.entries_nodup).2 hmem
  have hirr (a b : κ × ν) (hab : compare a.1 b.1 = .lt) : ¬compare b.1 a.1 = .lt := by
    rw [Std.OrientedCmp.gt_of_lt hab]
    exact nofun
  have he : m.entries = n.entries :=
    hperm.eq_of_pairwise (fun a b _ _ hab hba => absurd hba (hirr a b hab)) m.ascending n.ascending
  cases m
  cases n
  cases he
  rfl

variable [DecidableEq κ]

theorem lookup_alterList (k k' : κ) (f : Option ν → Option ν) {l : List (κ × ν)}
    (h : l.Pairwise fun a b => compare a.1 b.1 = .lt) :
    lookup k' (alterList k f l) = if k' = k then f (lookup k l) else lookup k' l := by
  have heq (a b : κ) : compare a b = .eq ↔ a = b := Std.LawfulEqOrd.compare_eq_iff_eq
  induction l with
  | nil =>
    rw [alterList]
    cases hf : f none <;> simp [lookup, hf, heq]
  | cons d rest ih =>
    obtain ⟨a, u⟩ := d
    rw [List.pairwise_cons] at h
    obtain ⟨ha, hr⟩ := h
    rw [alterList]
    cases hc : compare k a with
    | lt =>
      have hn : lookup k ((a, u) :: rest) = none := lookup_eq_none fun e he => by
        rcases List.mem_cons.1 he with rfl | he
        · exact hc
        · exact Std.TransCmp.lt_trans hc (ha e he)
      rw [hn]
      cases hf : f none with
      | none => by_cases hk : k' = k <;> simp [hk, hn]
      | some v => simp [lookup_cons k' (k, v), heq]
    | eq =>
      rw [heq] at hc
      subst hc
      have hn : lookup k rest = none := lookup_eq_none ha
      simp only [lookup_cons, heq, ↓reduceIte]
      cases hf : f (some u) with
      | none => by_cases hk : k' = k <;> simp [hk, hn]
      | some v => by_cases hk : k' = k <;> simp [lookup_cons, heq, hk]
    | gt =>
      have hne : k ≠ a := fun he => by simp [he, Std.ReflOrd.compare_self] at hc
      simp only [lookup_cons, heq, ih hr, if_neg hne]
      by_cases hk : k' = k
      · simp [hk, hne]
      · simp [hk]

theorem get?_alter (m : SortedMap κ ν) (k k' : κ) (f : Option ν → Option ν) :
    (m.alter k f).get? k' = if k' = k then f (m.get? k) else m.get? k' :=
  lookup_alterList k k' f m.ascending

theorem get?_insert (m : SortedMap κ ν) (k k' : κ) (v : ν) :
    (m.insert k v).get? k' = if k' = k then some v else m.get? k' :=
  m.get?_alter k k' _

theorem get?_modify (m : SortedMap κ ν) (k k' : κ) (f : ν → ν) :
    (m.modify k f).get? k' = if k' = k then (m.get? k).map f else m.get? k' :=
  m.get?_alter k k' _

end Lawful

end ProviderScout.SortedMap
