import Mathlib.Data.List.Nodup
import ProviderScout.Json.Record
import ProviderScout.Proofs.Number.Double

namespace ProviderScout

open Double

namespace Json

mutual

/-- Whether all numbers in the value are such as a text can give: whole numbers have 64 bits, with
or without a sign, and doubles are finite. -/
def isProper : Json → Bool
  | .int n => -9223372036854775808 ≤ n && n ≤ Counter.max
  | .float x => x.isFinite
  | .array items => areProper items
  | .object fields => fieldsAreProper fields
  | _ => true

def areProper : List Json → Bool
  | [] => true
  | v :: rest => v.isProper && areProper rest

def fieldsAreProper : List (String × Json) → Bool
  | [] => true
  | f :: rest => f.2.isProper && fieldsAreProper rest

end

theorem areProper_iff (items : List Json) :
    areProper items = true ↔ ∀ v ∈ items, v.isProper = true := by
  induction items with
  | nil => simp [areProper]
  | cons v rest ih => rw [areProper, Bool.and_eq_true, ih, List.forall_mem_cons]

theorem fieldsAreProper_iff (fields : List (String × Json)) :
    fieldsAreProper fields = true ↔ ∀ f ∈ fields, f.2.isProper = true := by
  induction fields with
  | nil => simp [fieldsAreProper]
  | cons f rest ih => rw [fieldsAreProper, Bool.and_eq_true, ih, List.forall_mem_cons]

theorem isFinite_of_float? {v : Json} (hv : v.isProper = true) {x : Float} (h : v.float? = some x) :
    x.isFinite = true := by
  cases v with
  | float y =>
    cases h
    exact hv
  | int n =>
    cases h
    rw [isProper, Bool.and_eq_true, decide_eq_true_eq, decide_eq_true_eq, Counter.max] at hv
    exact isFinite_ofInt (by omega)
  | _ => cases h

end Json

section Options

variable {α β : Type} {l : List α} {f : α → Option β}

theorem mapM_of_forall {g : α → β} (h : ∀ a ∈ l, f a = some (g a)) : l.mapM f = some (l.map g) := by
  induction l with
  | nil => rfl
  | cons a rest ih =>
    rw [List.mapM_cons, h a List.mem_cons_self, ih fun b hb => h b (List.mem_cons_of_mem a hb)]
    rfl

theorem exists_of_mem_mapM {bs : List β} (h : l.mapM f = some bs) {b : β} (hb : b ∈ bs) :
    ∃ a ∈ l, f a = some b := by
  induction l generalizing bs with
  | nil =>
    cases h
    cases hb
  | cons a rest ih =>
    simp only [List.mapM_cons, Option.bind_eq_bind, Option.bind_eq_some_iff, Option.pure_def,
      Option.some.injEq] at h
    obtain ⟨b', ha, bs', hrest, rfl⟩ := h
    rcases List.mem_cons.1 hb with rfl | hb
    · exact ⟨a, List.mem_cons_self, ha⟩
    · obtain ⟨c, hc, hread⟩ := ih hrest hb
      exact ⟨c, List.mem_cons_of_mem a hc, hread⟩

end Options

namespace Slot

def IsProper (s : Slot) : Prop := ∀ v, s = given v → v.isProper = true

variable {α : Type}

@[simp] theorem required_given (read : Json → Option α) (v : Json) :
    (given v).required read = read v := rfl

@[simp] theorem withDefault_given (d : α) (read : Json → Option α) (v : Json) :
    (given v).withDefault d read = read v := rfl

theorem IsProper.of_withDefault {s : Slot} (hs : s.IsProper) {P : α → Prop} {d a : α}
    (hdefault : P d) {read : Json → Option α} (h : s.withDefault d read = some a)
    (hread : ∀ v, v.isProper = true → read v = some a → P a) : P a := by
  cases s with
  | given v => exact hread v (hs v rfl) h
  | unnamed | cutOff =>
    cases h
    exact hdefault

theorem IsProper.isFinite_of_withDefault {s : Slot} (hs : s.IsProper) {d x : Float}
    (hdefault : d.isFinite = true) (h : s.withDefault d Json.float? = some x) :
    x.isFinite = true :=
  hs.of_withDefault (P := fun y => y.isFinite = true) hdefault h
    fun _ hv hread => Json.isFinite_of_float? hv hread

end Slot

namespace Record

theorem named?_of_nodup {fields : List (String × Json)} (hnodup : (fields.map (·.1)).Nodup)
    {f : String × Json} (hf : f ∈ fields) : named? fields f.1 = some (.given f.2) := by
  have hfilter : (fields.filter fun g => g.1 == f.1) = [f] := by
    induction fields with
    | nil => cases hf
    | cons g rest ih =>
      rw [List.map_cons, List.nodup_cons] at hnodup
      obtain ⟨hg, hrest⟩ := hnodup
      rcases List.mem_cons.1 hf with rfl | hf
      · have hothers : (rest.filter fun g => g.1 == f.1) = [] := by
          rw [List.filter_eq_nil_iff]
          intro g hmem heq
          exact hg (eq_of_beq heq ▸ List.mem_map_of_mem hmem)
        rw [List.filter_cons, hothers, if_pos (beq_self_eq_true f.1)]
      · rw [List.filter_cons, ih hrest hf, if_neg]
        intro heq
        exact hg (eq_of_beq heq ▸ List.mem_map_of_mem hf)
  rw [named?, hfilter]

theorem ofFields?_of_nodup (names : List String) (fields : List (String × Json))
    (hnames : fields.map (·.1) = names) (hnodup : names.Nodup) :
    ∃ r, ofFields? names fields = some r ∧ ∀ f ∈ fields, r.slot f.1 = .given f.2 := by
  subst hnames
  refine ⟨⟨fields.map fun f => (f.1, .given f.2)⟩, ?_, fun f hf => ?_⟩
  · rw [ofFields?, List.mapM_map, mapM_of_forall (g := fun f => (f.1, .given f.2))]
    · rfl
    · intro f hf
      rw [Function.comp, named?_of_nodup hnodup hf]
      rfl
  · have hmem : (f.1, Slot.given f.2) ∈ fields.map fun f => (f.1, Slot.given f.2) :=
      List.mem_map_of_mem hf
    rw [slot]
    cases hfind : (fields.map fun f => (f.1, Slot.given f.2)).find? fun s => s.1 == f.1 with
    | none =>
      rw [List.find?_eq_none] at hfind
      exact (hfind _ hmem (beq_self_eq_true f.1)).elim
    | some s =>
      obtain ⟨g, hg, rfl⟩ := List.mem_map.1 (List.mem_of_find?_eq_some hfind)
      have hfound := List.find?_some hfind
      have hname : g.1 = f.1 := eq_of_beq hfound
      rw [List.inj_on_of_nodup_map hnodup hg hf hname]

theorem ofJson?_of_nodup (names : List String) {v : Json} {fields : List (String × Json)}
    (hv : v = .object fields) (hnames : fields.map (·.1) = names) (hnodup : names.Nodup) :
    ∃ r, ofJson? names v = some r ∧ ∀ f ∈ fields, r.slot f.1 = .given f.2 := by
  subst hv
  exact ofFields?_of_nodup names fields hnames hnodup

theorem given_of_named? {fields : List (String × Json)} {name : String} {v : Json}
    (h : named? fields name = some (.given v)) : ∃ f ∈ fields, f.2 = v := by
  rw [named?] at h
  split at h
  · cases h
  · rename_i f hfilter
    cases h
    exact ⟨f, (List.mem_filter.1 (hfilter ▸ List.mem_singleton_self f)).1, rfl⟩
  · cases h

theorem isProper_slot_of_slots {r : Record} (h : ∀ s ∈ r.slots, s.2.IsProper) (name : String) :
    (r.slot name).IsProper := by
  rw [slot]
  split
  · rename_i s hfind
    exact h s (List.mem_of_find?_eq_some hfind)
  · exact nofun

theorem isProper_slot_of_fields {names : List String} {fields : List (String × Json)} {r : Record}
    (hfields : ∀ f ∈ fields, f.2.isProper = true) (h : ofFields? names fields = some r)
    (name : String) : (r.slot name).IsProper := by
  obtain ⟨slots, hslots, rfl⟩ := Option.map_eq_some_iff.1 h
  apply isProper_slot_of_slots
  intro s hs v hv
  obtain ⟨name', _, hnamed⟩ := exists_of_mem_mapM hslots hs
  obtain ⟨given, hgiven, rfl⟩ := Option.map_eq_some_iff.1 hnamed
  cases hv
  obtain ⟨f, hf, rfl⟩ := given_of_named? hgiven
  exact hfields f hf

theorem isProper_slot_of_items {names : List String} {items : List Json} {r : Record}
    (hitems : ∀ v ∈ items, v.isProper = true) (h : ofItems? names items = some r) (name : String) :
    (r.slot name).IsProper := by
  rw [ofItems?] at h
  split at h
  · cases h
    apply isProper_slot_of_slots
    intro s hs v hv
    have hmem := (List.of_mem_zip hs).2
    rw [hv, List.mem_append, List.mem_map, List.mem_replicate] at hmem
    rcases hmem with ⟨w, hw, heq⟩ | ⟨_, heq⟩
    · cases heq
      exact hitems _ hw
    · cases heq
  · cases h

theorem isProper_slot {names : List String} {v : Json} {r : Record} (hv : v.isProper = true)
    (h : ofJson? names v = some r) (name : String) : (r.slot name).IsProper := by
  cases v with
  | object fields =>
    exact isProper_slot_of_fields ((Json.fieldsAreProper_iff fields).1 hv) h name
  | array items => exact isProper_slot_of_items ((Json.areProper_iff items).1 hv) h name
  | _ => cases h

end Record

namespace Json

theorem nat?_ofNat {n high : Nat} (h : n ≤ high) : nat? high (.ofNat n) = some n := by
  have hrange : (0 : Int) ≤ n ∧ (n : Int) ≤ high := ⟨Int.natCast_nonneg n, Int.ofNat_le.2 h⟩
  rw [ofNat, nat?, if_pos hrange, Int.toNat_natCast]

theorem uint16?_ofNat (n : UInt16) : uint16? (.ofNat n.toNat) = some n := by
  rw [uint16?, nat?_ofNat (Nat.le_of_lt_succ n.toNat_lt), Option.map_some, UInt16.ofNat_toNat]

theorem uint32?_ofNat (n : UInt32) : uint32? (.ofNat n.toNat) = some n := by
  rw [uint32?, nat?_ofNat (Nat.le_of_lt_succ n.toNat_lt), Option.map_some, UInt32.ofNat_toNat]

theorem uint64?_ofNat (n : UInt64) : uint64? (.ofNat n.toNat) = some n := by
  have hmost : n.toNat ≤ Counter.max := Nat.le_of_lt_succ n.toNat_lt
  rw [uint64?, nat?_ofNat hmost, Option.map_some, UInt64.ofNat_toNat]

theorem int32?_int (n : Int32) : int32? (.int n.toInt) = some n := by
  have hrange : Int32.minValue.toInt ≤ n.toInt ∧ n.toInt ≤ Int32.maxValue.toInt :=
    ⟨n.minValue_le_toInt, n.toInt_le⟩
  rw [int32?, int?, if_pos hrange, Option.map_some, Int32.ofInt_toInt]

theorem column?_int (n : Column) : column? (.int n.toInt) = some n := by
  have hrange : Int64.minValue.toInt ≤ n.toInt ∧ n.toInt ≤ Int64.maxValue.toInt :=
    ⟨n.minValue_le_toInt, n.toInt_le⟩
  rw [column?, int?, if_pos hrange, Option.map_some, Int64.ofInt_toInt]

theorem float?_ofFloat {x : Float} (h : x.isFinite = true) : float? (.ofFloat x) = some x := by
  rw [ofFloat, if_pos h]
  rfl

theorem nullable_ofOption (s : Option String) :
    Slot.nullable string? (.ofOption .string s) = some s := by
  cases s <;> rfl

theorem list?_map {α : Type} {read : Json → Option α} {write : α → Json} {items : List α}
    (h : ∀ a ∈ items, read (write a) = some a) :
    list? read (.array (items.map write)) = some items := by
  have hitems : items.mapM (read ∘ write) = some (items.map id) := mapM_of_forall h
  rw [list?, List.mapM_map, hitems, List.map_id]

end Json

end ProviderScout
