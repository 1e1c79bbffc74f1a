import ProviderScout.Engine.Persistence
import ProviderScout.Proofs.Performance.Totals
import ProviderScout.SortedMap.Lookup
import ProviderScout.Store.Tables

namespace ProviderScout

namespace ModelKey

def stored (k : ModelKey) : StatsKey := ⟨k.job, Column.ofCounter k.provider⟩

/-- Whether a column holds the provider of a key. -/
def Fits (k : ModelKey) : Prop := k.provider ≤ Column.max

instance (k : ModelKey) : Decidable k.Fits := inferInstanceAs (Decidable (_ ≤ _))

theorem stored_inj {a b : ModelKey} (ha : a.Fits) (hb : b.Fits) (h : a.stored = b.stored) :
    a = b := by
  have hp := congrArg (Counter.ofColumn ∘ StatsKey.provider) h
  simp only [Function.comp, stored, Counter.ofColumn_ofCounter] at hp
  have hj : a.job = b.job := congrArg StatsKey.job h
  cases a
  cases b
  cases hj
  congr
  simp only [Fits] at ha hb hp
  omega

end ModelKey

namespace StatsRow

/-- The key whose model a row stores; there is none for a negative provider. -/
def owner? (r : StatsRow) : Option ModelKey :=
  if r.provider < 0 then none else some ⟨r.job, r.provider.toInt.toNat⟩

theorem owner?_eq_some_iff (r : StatsRow) {k : ModelKey} (hk : k.Fits) :
    r.owner? = some k ↔ r.key = k.stored := by
  have hp : (Column.ofCounter k.provider).toInt = k.provider := by
    rw [Column.toInt_ofCounter, Nat.min_eq_left hk]
  have hz : (0 : Column).toInt = 0 := rfl
  simp only [owner?, key, ModelKey.stored, Int64.lt_iff_toInt_lt, hz]
  constructor
  · intro h
    split at h
    · cases h
    · cases h
      congr
      rw [← Int64.toInt_inj, hp]
      exact (Int.toNat_of_nonneg (by omega)).symm
  · intro h
    have hj : r.job = k.job := congrArg StatsKey.job h
    have hc : r.provider = Column.ofCounter k.provider := congrArg StatsKey.provider h
    rw [hc, hp, hj]
    simp

theorem fits_of_owner? {r : StatsRow} {k : ModelKey} (h : r.owner? = some k) : k.Fits := by
  simp only [owner?] at h
  split at h
  · cases h
  · cases h
    exact Counter.ofColumn_le r.provider

end StatsRow

theorem Model.key_row (k : ModelKey) (now : Instant) (m : Model Float) :
    (m.row k.job k.provider now).key = k.stored := rfl

namespace Model

/-- The model after a save in which the storage answered as `ok` says. -/
def saved (now : Instant) (ok : Bool) (m : Model Float) : Model Float :=
  if m.dirty then { m with dirty := !ok, lastUsed := some now } else m

def absorb (r : StatsRow) : Option (Model Float) → Model Float
  | none => .ofRow r
  | some m => m.merge r

@[simp] theorem saved_performance (now : Instant) (ok : Bool) (m : Model Float) :
    (m.saved now ok).performance = m.performance := by
  rw [saved]
  split <;> rfl

theorem dirty_saved (now : Instant) (m : Model Float) : (m.saved now true).dirty = false := by
  rw [saved]
  split
  · rfl
  · rwa [Bool.not_eq_true] at *

theorem saved_of_clean {m : Model Float} (h : m.dirty = false) (now : Instant) (ok : Bool) :
    m.saved now ok = m := by
  rw [saved, h]
  rfl

theorem persist_snd (job : String) (provider : Nat) (now : Instant) (m : Model Float) :
    (m.persist job provider now).2 = m.saved now true := by
  rw [persist, saved]
  split <;> rfl

end Model

namespace Engine

def model? (e : Engine) (k : ModelKey) : Option (Model Float) := e.models.get? k

def tally (e : Engine) (k : ModelKey) : Tally := (e.model? k).elim .zero Model.tally

/-- Whether columns hold the providers of all models. -/
def Fits (e : Engine) : Prop := ∀ k m, e.model? k = some m → k.Fits

theorem model?_update (e : Engine) (key k : ModelKey) (f : Model Float → Model Float) :
    (e.update key f).model? k =
      if k = key then some (f ((e.model? key).getD .fresh)) else e.model? k :=
  e.models.get?_alter key k _

theorem model?_clearJob (e : Engine) (job : String) (k : ModelKey) :
    (e.clearJob job).model? k = if k.job = job then none else e.model? k := by
  have hget : (e.clearJob job).model? k = (e.model? k).filter fun _ => k.job != job :=
    e.models.get?_filter _ k
  rw [hget]
  by_cases hj : k.job = job <;> cases e.model? k <;> simp [Option.filter, hj]

theorem model?_forget (e : Engine) (job : Option String) (k : ModelKey) :
    (e.forget job).model? k = if job.all (· == k.job) then none else e.model? k := by
  cases job with
  | none => rfl
  | some job =>
    rw [forget, model?_clearJob, Option.all_some]
    simp only [beq_iff_eq, @eq_comm _ job]

theorem model?_collect (now : Instant) (e : Engine) (k : ModelKey) :
    (e.collect now).2.model? k = (e.model? k).map (Model.saved now true) := by
  simp only [collect, model?, SortedMap.get?_map, Option.map_map]
  congr 1
  funext m
  exact m.persist_snd k.job k.provider now

theorem mem_collect_iff (now : Instant) (e : Engine) (k : ModelKey) (r : StatsRow) :
    (k, r) ∈ (e.collect now).1 ↔
      ∃ m, e.model? k = some m ∧ m.dirty = true ∧ r = m.row k.job k.provider now := by
  simp only [collect, List.mem_filterMap, Prod.exists, SortedMap.mem_entries_iff,
    SortedMap.get?_map, Option.map_eq_some_iff, Prod.mk.injEq, model?]
  constructor
  · rintro ⟨k', o, m', ⟨m, hm, hp⟩, r', rfl, rfl, rfl⟩
    rw [Model.persist] at hp
    split at hp
    · rename_i hd
      cases hp
      exact ⟨m, hm, hd, rfl⟩
    · cases hp
  · rintro ⟨m, hm, hd, rfl⟩
    have hp : m.persist k.job k.provider now =
        (some (m.row k.job k.provider now), { m with dirty := false, lastUsed := some now }) :=
      if_pos hd
    exact ⟨k, _, _, ⟨m, hm, hp⟩, _, rfl, rfl, rfl⟩

theorem model?_restore (keys : List ModelKey) (e : Engine) (k : ModelKey) :
    (e.restore keys).model? k =
      (e.model? k).map fun m => if k ∈ keys then m.markDirty else m := by
  have hfold (models : SortedMap ModelKey (Model Float)) :
      (keys.foldl (fun models k => models.modify k Model.markDirty) models).get? k =
        (models.get? k).map fun m => if k ∈ keys then m.markDirty else m := by
    induction keys generalizing models with
    | nil => simp
    | cons a rest ih =>
      rw [List.foldl_cons, ih, SortedMap.get?_modify]
      by_cases hk : k = a
      · subst hk
        cases models.get? k <;> simp [Model.markDirty]
      · simp [hk]
  exact hfold e.models

theorem model?_absorb (e : Engine) (r : StatsRow) (k : ModelKey) :
    (e.absorb r).model? k =
      if r.owner? = some k then some (Model.absorb r (e.model? k)) else e.model? k := by
  rw [absorb, StatsRow.owner?]
  split
  · simp
  · simp only [model?, SortedMap.get?_alter, Option.some.injEq]
    by_cases hk : k = ⟨r.job, r.provider.toInt.toNat⟩
    · subst hk
      rw [if_pos rfl, if_pos rfl]
      cases e.models.get? _ <;> rfl
    · rw [if_neg hk, if_neg (Ne.symm hk)]

theorem model?_absorbs_of_ne {rows : List StatsRow} {k : ModelKey}
    (h : ∀ r ∈ rows, r.owner? ≠ some k) (e : Engine) :
    (rows.foldl absorb e).model? k = e.model? k := by
  induction rows generalizing e with
  | nil => rfl
  | cons r rest ih =>
    rw [List.foldl_cons, ih fun s hs => h s (List.mem_cons_of_mem r hs), model?_absorb,
      if_neg (h r List.mem_cons_self)]

theorem model?_absorbs_of_mem {rows : List StatsRow} (hrows : (rows.map StatsRow.key).Nodup)
    {r : StatsRow} (hr : r ∈ rows) {k : ModelKey} (hk : k.Fits) (hrk : r.key = k.stored)
    (e : Engine) : (rows.foldl absorb e).model? k = some (Model.absorb r (e.model? k)) := by
  induction rows generalizing e with
  | nil => cases hr
  | cons s rest ih =>
    rw [List.map_cons, List.nodup_cons] at hrows
    rw [List.foldl_cons]
    rcases List.mem_cons.1 hr with rfl | hr
    · have hne : ∀ s ∈ rest, s.owner? ≠ some k := fun s hs ho =>
        hrows.1 (hrk ▸ (s.owner?_eq_some_iff hk).1 ho ▸ List.mem_map_of_mem hs)
      rw [model?_absorbs_of_ne hne, model?_absorb, if_pos ((r.owner?_eq_some_iff hk).2 hrk)]
    · have hne : s.owner? ≠ some k := fun ho =>
        hrows.1 ((s.owner?_eq_some_iff hk).1 ho ▸ hrk ▸ List.mem_map_of_mem hr)
      rw [ih hrows.2 hr, model?_absorb, if_neg hne]

theorem absorbs_eq (rows : List StatsRow) (e : Engine) :
    ∃ models, rows.foldl absorb e = { e with models := models } := by
  induction rows generalizing e with
  | nil => exact ⟨e.models, rfl⟩
  | cons r rest ih =>
    obtain ⟨models, h⟩ := ih (e.absorb r)
    refine ⟨models, ?_⟩
    rw [List.foldl_cons, h, absorb]
    split <;> rfl

theorem config_absorbs (rows : List StatsRow) (e : Engine) :
    (rows.foldl absorb e).config = e.config := by
  obtain ⟨models, h⟩ := absorbs_eq rows e
  rw [h]

theorem Fits.absorbs {e : Engine} (he : e.Fits) (rows : List StatsRow) :
    (rows.foldl absorb e).Fits := by
  induction rows generalizing e with
  | nil => exact he
  | cons r rest ih =>
    refine ih fun k m hm => ?_
    rw [model?_absorb] at hm
    split at hm
    · exact StatsRow.fits_of_owner? ‹_›
    · exact he k m hm

theorem Fits.collect {e : Engine} (he : e.Fits) (now : Instant) : (e.collect now).2.Fits := by
  intro k m hm
  rw [model?_collect] at hm
  obtain ⟨m', hm', _⟩ := Option.map_eq_some_iff.1 hm
  exact he k m' hm'

theorem Fits.restore {e : Engine} (he : e.Fits) (keys : List ModelKey) : (e.restore keys).Fits := by
  intro k m hm
  rw [model?_restore] at hm
  obtain ⟨m', hm', _⟩ := Option.map_eq_some_iff.1 hm
  exact he k m' hm'

end Engine

end ProviderScout
