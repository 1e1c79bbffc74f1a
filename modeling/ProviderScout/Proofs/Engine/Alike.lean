import ProviderScout.Proofs.Engine.Refreshes
import ProviderScout.Proofs.Engine.Restarts
import ProviderScout.Proofs.Store.Answers

namespace ProviderScout

def Model.untimed (m : Model Float) : Model Float := { m with lastUsed := none }

/-- A row with the first second of all in place of the time of its last save. -/
def StatsRow.untimed (r : StatsRow) : StatsRow := { r with lastUsed := 0 }

namespace Cell

def untimed (c : Cell) : Cell :=
  ⟨c.loaded, c.model.map Model.untimed, c.row.map StatsRow.untimed⟩

variable {c d : Cell}

theorem untimed_ext (hloaded : c.loaded = d.loaded)
    (hmodel : c.model.map Model.untimed = d.model.map Model.untimed)
    (hrow : c.row.map StatsRow.untimed = d.row.map StatsRow.untimed) : c.untimed = d.untimed := by
  rw [untimed, untimed, hloaded, hmodel, hrow]

theorem untimed_update {f : Model Float → Model Float}
    (hf : ∀ m, (f m).untimed = (f m.untimed).untimed) (c : Cell) :
    (c.update f).untimed = (c.untimed.update f).untimed := by
  obtain ⟨loaded, _ | m, _ | r⟩ := c
  · rfl
  · rfl
  · exact untimed_ext rfl (congrArg some (hf m)) rfl
  · exact untimed_ext rfl (congrArg some (hf m)) rfl

theorem untimed_load (c : Cell) : c.load.untimed = c.untimed.load.untimed := by
  obtain ⟨_ | _, _ | m, _ | r⟩ := c <;> rfl

theorem untimed_save (c : Cell) (key : ModelKey) (now now' : Instant) (ok stray : Bool) :
    (c.save key now ok stray).untimed = (c.untimed.save key now' ok stray).untimed := by
  obtain ⟨loaded, _ | ⟨performance, _ | _, lastUsed⟩, _ | r⟩ := c <;> cases ok <;> cases stray <;>
    rfl

theorem Clean.of_untimed (hc : c.Clean) (h : c.untimed = d.untimed) : d.Clean := by
  intro m hm
  have hmodel : c.model.map Model.untimed = d.model.map Model.untimed := congrArg Cell.model h
  rw [hm, Option.map_some, Option.map_eq_some_iff] at hmodel
  obtain ⟨m', hm', hsame⟩ := hmodel
  have hdirty : m'.untimed.dirty = m.untimed.dirty := congrArg Model.dirty hsame
  exact hdirty.symm.trans (hc m' hm')

theorem savedRow_of_failed (c : Cell) (key : ModelKey) (now : Instant) :
    c.savedRow key now false false = c.row := by
  obtain ⟨loaded, _ | ⟨performance, _ | _, lastUsed⟩, row⟩ := c <;> rfl

theorem Clean.save_eq (hc : c.Clean) (key : ModelKey) (now : Instant) (ok stray : Bool) :
    c.save key now ok stray = c := by
  rw [save, savedRow_of_clean hc]
  obtain ⟨loaded, _ | m, row⟩ := c
  · rfl
  · rw [Option.map_some, Model.saved_of_clean (hc m rfl)]

end Cell

namespace SortedMap

variable {κ ν μ : Type} [Ord κ] [Std.TransOrd κ] [Std.LawfulEqOrd κ] [DecidableEq κ]

theorem map_insert (m : SortedMap κ ν) (k : κ) (v : ν) (f : ν → μ) :
    (m.insert k v).map (fun _ => f) = (m.map fun _ => f).insert k (f v) := by
  apply ext_get?
  intro k'
  rw [get?_map, get?_insert, get?_insert, get?_map]
  split <;> rfl

theorem map_ofList (l : List (κ × ν)) (f : ν → μ) :
    (ofList l).map (fun _ => f) = ofList (l.map fun e => (e.1, f e.2)) := by
  induction l using List.reverseRecOn with
  | nil => rfl
  | append_singleton l e ih =>
    rw [ofList_snoc, map_insert, ih, List.map_append, List.map_singleton, ofList_snoc]

end SortedMap

namespace BenchmarkCache

variable {α : Type} [Quantity α]

def rates (c : BenchmarkCache α) : SortedMap Nat α := c.speeds.map fun _ s => s.mbps

theorem normalized?_eq (c : BenchmarkCache α) (provider : Nat) :
    c.normalized? provider = (c.rates.get? provider).map fun rate =>
      if Quantity.largest c.rates.values ≤ (0.0 : α) then (50.0 : α)
      else (100.0 : α) * rate / Quantity.largest c.rates.values := by
  have hfastest : c.fastest = Quantity.largest c.rates.values := by
    rw [fastest, rates, toList, SortedMap.values, SortedMap.values, SortedMap.map, List.map_map,
      List.map_map]
    rfl
  rw [normalized?, hfastest, rates, SortedMap.get?_map, Option.map_map]
  rfl

omit [Quantity α] in
theorem isEmpty_eq (c : BenchmarkCache α) : c.isEmpty = (c.rates.size == 0) := by
  rw [isEmpty, size, rates, SortedMap.size, SortedMap.size, SortedMap.map, List.length_map]

end BenchmarkCache

theorem Policy.ranking_congr {α : Type} [Quantity α] {c c' : BenchmarkCache α}
    (h : c.rates = c'.rates) (p : Policy) (models : List (Nat × Performance α)) :
    p.ranking models c = p.ranking models c' := by
  have hscore (full : α) (m : Nat × Performance α) : score c full m = score c' full m := by
    rw [score, score, c.normalized?_eq, c'.normalized?_eq, c.isEmpty_eq, c'.isEmpty_eq, h]
  simp only [ranking, scored, hscore]

theorem Policy.choices_congr {α : Type} [Quantity α] {c c' : BenchmarkCache α}
    (h : c.rates = c'.rates) (p : Policy) (models : List (Nat × Performance α)) (kind : UsageKind) :
    p.choices models c kind = p.choices models c' kind := by
  have hbest : p.best models c kind = p.best models c' kind := by
    rw [best, best, ranking_congr h]
  simp only [choices, hbest]

theorem Database.rates_speedsOf (now now' : Instant) (rows : List StoredBenchmark) :
    (BenchmarkCache.ofList (speedsOf now rows)).rates =
      (BenchmarkCache.ofList (speedsOf now' rows)).rates := by
  have hspeed (b : StoredBenchmark) :
      ((speed? now b).map fun s => (s.provider, s)).map (fun e => (e.1, e.2.mbps)) =
        ((speed? now' b).map fun s => (s.provider, s)).map fun e => (e.1, e.2.mbps) := by
    rw [speed?, speed?]
    split <;> rfl
  simp only [BenchmarkCache.rates, BenchmarkCache.ofList, SortedMap.map_ofList, speedsOf,
    List.map_filterMap, hspeed]

namespace Session

theorem frame_step (op : Operation) (s : Session (Remote Database)) :
    (s.step op).2.store.store.frame = s.store.store.frame := by
  refine store_step (P := fun store : Remote Database => store.store.frame = s.store.store.frame)
    ?_ ?_ ?_ ?_ rfl op
  · intro store h
    exact (Remote.frame_call (f := ModelStore.loadRows) (fun _ => rfl) store).trans h
  · intro rows store h
    exact (Remote.frame_call (Database.frame_upsertRows rows) store).trans h
  · intro job store h
    exact (Remote.frame_call (Database.frame_deleteRows job) store).trans h
  · intro now store h
    exact (Remote.frame_call (f := ModelStore.latestSpeeds now) (fun _ => rfl) store).trans h

section Atomic

variable {σ : Type} [ModelStore σ] [AtomicModelStore σ]

theorem cell_flush_eq {s : Session σ} (hs : s.engine.Fits) (now : Instant) (k : ModelKey) :
    (ofCall (s.engine.flush now s.store)).2.cell k =
      if s.engine.loaded then (s.cell k).save k now (s.engine.flush now s.store).1.isOk false
      else s.cell k := by
  obtain ⟨stray, hcell⟩ := cell_flush hs now k
  rw [Engine.loaded_flush] at hcell
  cases hl : s.engine.loaded with
  | false =>
    rw [hl] at hcell
    exact hcell
  | true =>
    rw [hl, if_pos rfl] at hcell
    rw [hcell, if_pos rfl]
    cases hok : (s.engine.flush now s.store).1.isOk with
    | true => rfl
    | false =>
      have hrow : ((ofCall (s.engine.flush now s.store)).2.cell k).row = (s.cell k).row :=
        congrArg (·.rowOf? k) (Engine.table_flush_of_error hok)
      rw [hcell, hok] at hrow
      rw [Cell.save, Cell.save, (s.cell k).savedRow_of_failed]
      exact congrArg (Cell.mk _ _) hrow

end Atomic

end Session

/-- Two sessions hold the same of a job and of what all jobs share, apart from times. -/
structure Session.Alike (job : String) (s t : Session (Remote Database)) : Prop where
  config : s.engine.config = t.engine.config
  roles : s.engine.roles = t.engine.roles
  rates : s.engine.benchmarks.rates = t.engine.benchmarks.rates
  frame : s.store.store.frame = t.store.store.frame
  cell : ∀ key, key.job = job → (s.cell key).untimed = (t.cell key).untimed
  /-- Rows that have no model. -/
  row : ∀ key : StatsKey, key.job = job → key.provider < 0 → s.table.get? key = t.table.get? key

namespace Session.Alike

variable {job : String} {s t u : Session (Remote Database)}

theorem refl (job : String) (s : Session (Remote Database)) : s.Alike job s :=
  ⟨rfl, rfl, rfl, rfl, fun _ _ => rfl, fun _ _ _ => rfl⟩

theorem trans (h : s.Alike job t) (h' : t.Alike job u) : s.Alike job u where
  config := h.config.trans h'.config
  roles := h.roles.trans h'.roles
  rates := h.rates.trans h'.rates
  frame := h.frame.trans h'.frame
  cell key hkey := (h.cell key hkey).trans (h'.cell key hkey)
  row key hkey hneg := (h.row key hkey hneg).trans (h'.row key hkey hneg)

theorem symm (h : s.Alike job t) : t.Alike job s where
  config := h.config.symm
  roles := h.roles.symm
  rates := h.rates.symm
  frame := h.frame.symm
  cell key hkey := (h.cell key hkey).symm
  row key hkey hneg := (h.row key hkey hneg).symm

theorem loaded (h : s.Alike job t) : s.engine.loaded = t.engine.loaded :=
  congrArg Cell.loaded (h.cell ⟨job, 0⟩ rfl)

theorem answers (h : s.Alike job t) (hreached : s.store.reached = t.store.reached) :
    s.store.answers = t.store.answers := by
  have hopen : s.store.store.isOpen = t.store.store.isOpen := congrArg Prod.fst h.frame
  have hstats : s.store.store.schema.stats.isSome = t.store.store.schema.stats.isSome :=
    congrArg (fun frame => frame.2.1) h.frame
  rw [Remote.answers, Remote.answers, Database.holdsRows, Database.holdsRows, hreached, hopen,
    hstats]

theorem of_frames (h : s.Alike job t) {s' t' : Session (Remote Database)}
    (hs : s.engine.Frames s'.engine) (ht : t.engine.Frames t'.engine)
    (hstore : s'.store.store.frame = s.store.store.frame)
    (hstore' : t'.store.store.frame = t.store.store.frame)
    (hcell : ∀ key, key.job = job → (s'.cell key).untimed = (t'.cell key).untimed)
    (hrow : ∀ key : StatsKey, key.job = job → key.provider < 0 →
      s'.table.get? key = t'.table.get? key) : s'.Alike job t' := by
  obtain ⟨_, _, hs⟩ := hs
  obtain ⟨_, _, ht⟩ := ht
  exact {
    config := by rw [hs, ht]; exact h.config
    roles := by rw [hs, ht]; exact h.roles
    rates := by rw [hs, ht]; exact h.rates
    frame := (hstore.trans h.frame).trans hstore'.symm
    cell := hcell
    row := hrow }

end Session.Alike

namespace Session

theorem reached_load (s : Session (Remote Database)) :
    (s.step .load).2.store.reached =
      if s.engine.loaded then s.store.reached else s.store.reached.tail := by
  have hcall : (ModelStore.loadRows s.store).2.reached = s.store.reached.tail :=
    Remote.reached_call ModelStore.loadRows s.store
  change (s.engine.load s.store).2.2.reached = _
  rw [Engine.load]
  split
  · rfl
  · split <;> rename_i hs <;> rw [hs] at hcall <;> exact hcall

namespace Alike

variable {job : String} {s t : Session (Remote Database)}

theorem record (h : s.Alike job t) (key : ModelKey) {f : AffinityConfig → Model Float → Model Float}
    (hf : ∀ config m, (f config m).untimed = (f config m.untimed).untimed) :
    (⟨if s.engine.isActive key.job then s.engine.update key (f s.engine.config) else s.engine,
        s.store⟩ : Session (Remote Database)).Alike job
      ⟨if t.engine.isActive key.job then t.engine.update key (f t.engine.config) else t.engine,
        t.store⟩ := by
  refine h.of_frames (s.engine.frames_record key _) (t.engine.frames_record key _) rfl rfl ?_ h.row
  intro k hk
  rw [s.cell_record, t.cell_record, h.config]
  split
  · rw [Cell.untimed_update (hf _), h.cell k hk, ← Cell.untimed_update (hf _)]
  · exact h.cell k hk

theorem load (h : s.Alike job t) (hreached : s.store.reached = t.store.reached) :
    (s.step .load).2.Alike job (t.step .load).2 := by
  refine h.of_frames (s.engine.frames_load s.store) (t.engine.frames_load t.store)
    (s.frame_step .load) (t.frame_step .load) ?_ ?_
  · intro k hk
    have hok : (s.engine.load s.store).2.1.loaded = (t.engine.load t.store).2.1.loaded := by
      rw [Engine.loaded_load, Engine.loaded_load, Engine.isOk_load, Engine.isOk_load, h.loaded,
        Remote.isOk_loadRows, Remote.isOk_loadRows, h.answers hreached]
    simp only [step, apply]
    rw [s.cell_load, t.cell_load, hok]
    split
    · rw [Cell.untimed_load, h.cell k hk, ← Cell.untimed_load]
    · exact h.cell k hk
  · intro key hkey hneg
    have hs : (s.step .load).2.table = s.table := s.engine.table_load s.store
    have ht : (t.step .load).2.table = t.table := t.engine.table_load t.store
    rw [hs, ht]
    exact h.row key hkey hneg

theorem isOk_flush (h : s.Alike job t) (hreached : s.store.reached = t.store.reached)
    {key : ModelKey} (hkey : key.job = job) (hclean : ¬ (s.cell key).Clean)
    (hl : s.engine.loaded = true) (now now' : Instant) :
    (s.engine.flush now s.store).1.isOk = (t.engine.flush now' t.store).1.isOk := by
  have hrows {u : Session (Remote Database)} (hu : ¬ (u.cell key).Clean) (now : Instant) :
      (u.engine.collect now).1 ≠ [] := by
    intro hnil
    apply hu
    intro m hm
    rw [Bool.eq_false_iff]
    intro hd
    have hmem := (u.engine.mem_collect_iff now key _).2 ⟨m, hm, hd, rfl⟩
    rw [hnil] at hmem
    cases hmem
  have hclean' : ¬ (t.cell key).Clean := fun hc => hclean (hc.of_untimed (h.cell key hkey).symm)
  have hl' : t.engine.loaded = true := h.loaded ▸ hl
  have hcollected {rows : List (ModelKey × StatsRow)} (hne : rows ≠ []) : rows.map (·.2) ≠ [] :=
    fun hnil => hne (List.map_eq_nil_iff.1 hnil)
  rw [Engine.isOk_flush_eq hl (hrows hclean now), Engine.isOk_flush_eq hl' (hrows hclean' now'),
    Remote.isOk_upsertRows (hcollected (hrows hclean now)),
    Remote.isOk_upsertRows (hcollected (hrows hclean' now')), h.answers hreached]

theorem flush (h : s.Alike job t) (hs : s.engine.Fits) (ht : t.engine.Fits)
    (hreached : s.store.reached = t.store.reached) (now now' : Instant) :
    (s.step (.flush now)).2.Alike job (t.step (.flush now')).2 := by
  refine h.of_frames (s.engine.frames_flush now s.store) (t.engine.frames_flush now' t.store)
    (s.frame_step _) (t.frame_step _) ?_ ?_
  · intro k hk
    simp only [step, apply]
    rw [cell_flush_eq hs, cell_flush_eq ht, ← h.loaded]
    split
    case isFalse => exact h.cell k hk
    case isTrue hl =>
      by_cases hclean : (s.cell k).Clean
      · rw [hclean.save_eq, (hclean.of_untimed (h.cell k hk)).save_eq, h.cell k hk]
      · rw [h.isOk_flush hreached hk hclean hl now now', Cell.untimed_save _ k now now',
          h.cell k hk, ← Cell.untimed_save]
  · intro key hkey hneg
    exact ((s.get?_flush_of_neg now hneg).trans (h.row key hkey hneg)).trans
      (t.get?_flush_of_neg now' hneg).symm

theorem forget (h : s.Alike job t) (forgotten : Option String) :
    (⟨s.engine.forget forgotten, s.store⟩ : Session (Remote Database)).Alike job
      ⟨t.engine.forget forgotten, t.store⟩ := by
  refine h.of_frames (s.engine.frames_forget _) (t.engine.frames_forget _) rfl rfl ?_ h.row
  intro k hk
  have hcell := h.cell k hk
  rw [s.cell_forget, t.cell_forget]
  split
  · exact Cell.untimed_ext h.loaded rfl (congrArg Cell.row hcell)
  · exact hcell

theorem reset (h : s.Alike job t) (hreached : s.store.reached = t.store.reached)
    (forgotten : Option String) :
    (s.step (.reset forgotten)).2.Alike job (t.step (.reset forgotten)).2 := by
  have hok :
      (s.engine.reset forgotten s.store).1.isOk = (t.engine.reset forgotten t.store).1.isOk := by
    rw [Engine.isOk_reset, Engine.isOk_reset, Remote.isOk_deleteRows, Remote.isOk_deleteRows,
      h.answers hreached]
  refine h.of_frames (s.engine.frames_reset forgotten s.store)
    (t.engine.frames_reset forgotten t.store) (s.frame_step _) (t.frame_step _) ?_ ?_
  · intro k hk
    simp only [step, apply]
    rw [s.cell_reset, t.cell_reset, hok]
    split
    · exact Cell.untimed_ext h.loaded rfl rfl
    · exact h.cell k hk
  · intro key hkey hneg
    rw [s.get?_reset, t.get?_reset, hok]
    split
    · rfl
    · exact h.row key hkey hneg

theorem persist (h : s.Alike job t) (hs : s.engine.Fits) (ht : t.engine.Fits)
    (hreached : s.store.reached = t.store.reached) (now now' : Instant) :
    (s.step (.persist now)).2.Alike job (t.step (.persist now')).2 := by
  have hload := h.load hreached
  rw [step_persist, step_persist, hload.loaded]
  split
  · apply hload.flush (hs.load s.store) (ht.load t.store)
    rw [reached_load, reached_load, h.loaded, hreached]
  · exact hload

theorem refresh (h : s.Alike job t) (hreached : s.store.reached = t.store.reached)
    (now now' : Instant) : (s.step (.refresh now)).2.Alike job (t.step (.refresh now')).2 := by
  have hok : (ModelStore.latestSpeeds now s.store).1.isOk =
      (ModelStore.latestSpeeds now' t.store).1.isOk := by
    rw [Remote.isOk_latestSpeeds, Remote.isOk_latestSpeeds, hreached, h.frame]
  have hbenchmarks : s.store.store.benchmarks = t.store.store.benchmarks :=
    congrArg (fun frame => (frame.2.2.map BenchmarkTable.rows).getD []) h.frame
  have hs := s.engine_refresh now
  have ht := t.engine_refresh now'
  rw [hok] at hs
  refine {
    config := ?_
    roles := ?_
    rates := ?_
    frame := ((s.frame_step _).trans h.frame).trans (t.frame_step _).symm
    cell := fun key hkey => by rw [s.cell_refresh, t.cell_refresh]; exact h.cell key hkey
    row := fun key hkey hneg => ?_ }
  · rw [hs, ht]
    split <;> exact h.config
  · rw [hs, ht]
    split <;> exact h.roles
  · rw [hs, ht]
    split
    · rw [hbenchmarks]
      exact Database.rates_speedsOf ..
    · exact h.rates
  · have hs : (s.step (.refresh now)).2.table = s.table :=
      (s.engine.refreshBenchmarks_models now s.store).2.2.2
    have ht : (t.step (.refresh now')).2.table = t.table :=
      (t.engine.refreshBenchmarks_models now' t.store).2.2.2
    rw [hs, ht]
    exact h.row key hkey hneg

end Alike

end Session

namespace Operation

def untimed : Operation → Operation
  | .flush _ => .flush ⟨0, 0⟩
  | .persist _ => .persist ⟨0, 0⟩
  | .refresh _ => .refresh ⟨0, 0⟩
  | op => op

/-- Whether an operation is on a job or on all jobs. -/
def concerns (job : String) : Operation → Bool
  | .success key _ _ | .failure key => key.job == job
  | .clearJob other | .reset (some other) => other == job
  | _ => true

theorem fits_of_untimed {op op' : Operation} (h : op'.untimed = op.untimed) (hop : op.Fits) :
    op'.Fits := by
  cases op <;> cases op' <;> cases h <;> exact hop

end Operation

namespace Session.Alike

variable {job : String} {s t : Session (Remote Database)}

/-- The same operation on both keeps sessions alike, whatever the time. -/
theorem step (h : s.Alike job t) (hs : s.engine.Fits) (ht : t.engine.Fits)
    (hreached : s.store.reached = t.store.reached) {op op' : Operation}
    (hsame : op.untimed = op'.untimed) : (s.step op).2.Alike job (t.step op').2 := by
  cases op <;> cases op' <;> cases hsame
  case success.success key bytes millis => 
    exact h.record key (f := fun config => Model.recordSuccess config.ewmaAlpha bytes millis)
      fun _ _ => rfl
  case failure.failure key => exact h.record key (f := fun _ => Model.recordFailure) fun _ _ => rfl
  case load.load => exact h.load hreached
  case flush.flush now now' => exact h.flush hs ht hreached now now'
  case persist.persist now now' => exact h.persist hs ht hreached now now'
  case reset.reset forgotten => exact h.reset hreached forgotten
  case clearJob.clearJob other => exact h.forget (some other)
  case clearAll.clearAll => exact h.forget none
  case refresh.refresh now now' => exact h.refresh hreached now now'

theorem record_other {key : ModelKey} (hkey : (key.job == job) = false)
    (f : Model Float → Model Float) (s : Session (Remote Database)) :
    (⟨if s.engine.isActive key.job then s.engine.update key f else s.engine, s.store⟩ :
      Session (Remote Database)).Alike job s := by
  refine (refl job s).of_frames (s.engine.frames_record key f) (.refl _) rfl rfl ?_
    fun _ _ _ => rfl
  intro k hk
  rw [s.cell_record, if_neg]
  rintro ⟨rfl, _⟩
  exact beq_eq_false_iff_ne.1 hkey hk

theorem forget_other {other : String} (hother : (other == job) = false)
    (s : Session (Remote Database)) :
    (⟨s.engine.forget (some other), s.store⟩ : Session (Remote Database)).Alike job s := by
  refine (refl job s).of_frames (s.engine.frames_forget (some other)) (.refl _) rfl rfl ?_
    fun _ _ _ => rfl
  intro k hk
  rw [s.cell_forget, Option.all_some, hk, hother]
  rfl

theorem reset_other {other : String} (hother : (other == job) = false)
    (s : Session (Remote Database)) : (s.step (.reset (some other))).2.Alike job s := by
  refine (refl job s).of_frames (s.engine.frames_reset _ s.store) (.refl _) (s.frame_step _) rfl
    ?_ ?_
  · intro k hk
    simp only [Session.step, apply]
    rw [s.cell_reset, Option.all_some, hk, hother, Bool.and_false]
    rfl
  · intro key hkey _
    rw [s.get?_reset, Option.all_some, hkey, hother, Bool.and_false]
    rfl

theorem step_other {op : Operation} (hop : op.concerns job = false)
    (s : Session (Remote Database)) : (s.step op).2.Alike job s := by
  cases op with
  | success key bytes millis => exact record_other hop _ s
  | failure key => exact record_other hop _ s
  | clearJob other => exact forget_other hop s
  | reset other? =>
    cases other? with
    | none => cases hop
    | some other => exact reset_other hop s
  | _ => cases hop

end Session.Alike

end ProviderScout
