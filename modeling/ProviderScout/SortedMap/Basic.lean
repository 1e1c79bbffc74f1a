/-!
Finite maps kept as a list of entries in strictly ascending key order, so that a map has one form
and its entries come out in key order.
-/

namespace ProviderScout

/-- A finite map from `κ` to `ν`. -/
structure SortedMap (κ : Type) (ν : Type) [Ord κ] where
  entries : List (κ × ν)
  ascending : entries.Pairwise fun a b => compare a.1 b.1 = .lt

namespace SortedMap

variable {κ ν μ : Type} [Ord κ]

/-- Changes the entry of `k` as `f` says, in a list in ascending key order. -/
def alterList (k : κ) (f : Option ν → Option ν) : List (κ × ν) → List (κ × ν)
  | [] => match f none with
    | none => []
    | some v => [(k, v)]
  | (a, u) :: rest => match compare k a with
    | .lt => match f none with
      | none => (a, u) :: rest
      | some v => (k, v) :: (a, u) :: rest
    | .eq => match f (some u) with
      | none => rest
      | some v => (a, v) :: rest
    | .gt => (a, u) :: alterList k f rest

theorem mem_alterList {k : κ} {f : Option ν → Option ν} {e : κ × ν} {l : List (κ × ν)}
    (h : e ∈ alterList k f l) : e ∈ l ∨ e.1 = k ∨ ∃ u, (e.1, u) ∈ l := by
  induction l with
  | nil =>
    rw [alterList] at h
    cases hf : f none <;> simp_all
  | cons d rest ih =>
    obtain ⟨a, u⟩ := d
    rw [alterList] at h
    cases hc : compare k a <;> rw [hc] at h
    · cases hf : f none <;> grind
    · cases hf : f (some u) <;> grind
    · grind

variable [Std.TransOrd κ]

theorem alterList_ascending (k : κ) (f : Option ν → Option ν) {l : List (κ × ν)}
    (h : l.Pairwise fun a b => compare a.1 b.1 = .lt) :
    (alterList k f l).Pairwise fun a b => compare a.1 b.1 = .lt := by
  induction l with
  | nil =>
    rw [alterList]
    cases f none <;> simp
  | cons d rest ih =>
    obtain ⟨a, u⟩ := d
    rw [List.pairwise_cons] at h
    obtain ⟨ha, hr⟩ := h
    rw [alterList]
    cases hc : compare k a with
    | lt =>
      cases f none with
      | none => exact List.pairwise_cons.2 ⟨ha, hr⟩
      | some v =>
        refine List.pairwise_cons.2 ⟨fun b hb => ?_, List.pairwise_cons.2 ⟨ha, hr⟩⟩
        rcases List.mem_cons.1 hb with rfl | hb
        · exact hc
        · exact Std.TransCmp.lt_trans hc (ha b hb)
    | eq =>
      cases f (some u) with
      | none => exact hr
      | some v => exact List.pairwise_cons.2 ⟨ha, hr⟩
    | gt =>
      refine List.pairwise_cons.2 ⟨fun b hb => ?_, ih hr⟩
      rcases mem_alterList hb with hb | hb | ⟨w, hw⟩
      · exact ha b hb
      · rw [hb]
        exact Std.OrientedCmp.lt_of_gt hc
      · exact ha (b.1, w) hw

def empty : SortedMap κ ν := ⟨[], .nil⟩

instance : EmptyCollection (SortedMap κ ν) := ⟨empty⟩

instance : Inhabited (SortedMap κ ν) := ⟨empty⟩

def get? (m : SortedMap κ ν) (k : κ) : Option ν :=
  (m.entries.find? fun e => compare k e.1 == .eq).map (·.2)

def contains (m : SortedMap κ ν) (k : κ) : Bool := (m.get? k).isSome

/-- Changes the value at one key: `f` is given the old value and answers the new one. -/
def alter (m : SortedMap κ ν) (k : κ) (f : Option ν → Option ν) : SortedMap κ ν :=
  ⟨alterList k f m.entries, alterList_ascending k f m.ascending⟩

def insert (m : SortedMap κ ν) (k : κ) (v : ν) : SortedMap κ ν := m.alter k fun _ => some v

def modify (m : SortedMap κ ν) (k : κ) (f : ν → ν) : SortedMap κ ν := m.alter k (·.map f)

def filter (m : SortedMap κ ν) (p : κ → ν → Bool) : SortedMap κ ν :=
  ⟨m.entries.filter fun e => p e.1 e.2, m.ascending.filter _⟩

def map (m : SortedMap κ ν) (f : κ → ν → μ) : SortedMap κ μ :=
  ⟨m.entries.map fun e => (e.1, f e.1 e.2), List.pairwise_map.2 m.ascending⟩

def keys (m : SortedMap κ ν) : List κ := m.entries.map (·.1)

def values (m : SortedMap κ ν) : List ν := m.entries.map (·.2)

def size (m : SortedMap κ ν) : Nat := m.entries.length

/-- The entries of a list as a map; of several values of one key the last one counts. -/
def ofList (l : List (κ × ν)) : SortedMap κ ν := l.foldl (fun m e => m.insert e.1 e.2) empty

end SortedMap

end ProviderScout
