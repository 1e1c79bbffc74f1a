import ProviderScout.Proofs.Config.Validation
import ProviderScout.Service.Basic
import ProviderScout.Store.Database
import ProviderScout.Time.Calendar

namespace ProviderScout

namespace Instant

def yearStart (year : Int) : Int := 86400 * (Calendar.Date.mk year 1 1).toDays

/-- Whether an instant lies in the years 2000 to 2100. -/
def IsPresent (t : Instant) : Prop := yearStart 2000 ≤ t.secs ∧ t.secs < yearStart 2101

instance (t : Instant) : Decidable t.IsPresent := inferInstanceAs (Decidable (_ ∧ _))

theorem isPresent_iff (t : Instant) :
    t.IsPresent ↔ 946684800 ≤ t.secs ∧ t.secs < 4133980800 := by
  have hfirst : yearStart 2000 = 946684800 := by decide
  have hlast : yearStart 2101 = 4133980800 := by decide
  rw [IsPresent, hfirst, hlast]

theorem isSome_hoursBefore?_iff (t : Instant) (hours : Int) :
    (t.hoursBefore? hours).isSome = true ↔
      hours.natAbs ≤ maxHours ∧
        inRange ((if hours = 0 then t else t.outsideLeapSecond (0 < hours)).secs - 3600 * hours) =
          true := by
  simp only [hoursBefore?, Option.isSome_ite, Bool.and_eq_true, decide_eq_true_iff]

/-- On the way to the past a leap second may be left forward. -/
theorem secs_outsideLeapSecond (t : Instant) (toPast : Bool) :
    (t.outsideLeapSecond toPast).secs = t.secs ∨
      toPast = true ∧ (t.outsideLeapSecond toPast).secs = t.secs + 1 := by
  rw [outsideLeapSecond]
  split
  · cases toPast with
    | false => exact .inl rfl
    | true => exact .inr ⟨rfl, rfl⟩
  · exact .inl rfl

/-- The hours that can be taken away from every instant of these years. -/
theorem isSome_hoursBefore?_of_isPresent_iff (hours : Int) :
    (∀ t : Instant, t.IsPresent → (t.hoursBefore? hours).isSome = true) ↔
      -2279481360 ≤ hours ∧ hours ≤ 2315429976 := by
  have hrange (secs : Int) :
      inRange secs = true ↔ -8334601228800 ≤ secs ∧ secs ≤ 8210266876799 := by
    rw [inRange, Bool.and_eq_true, decide_eq_true_iff, decide_eq_true_iff]
    rfl
  simp only [isSome_hoursBefore?_iff, hrange, isPresent_iff]
  constructor
  · intro h
    -- The first second of these years bounds the past, and the last one the future.
    have hfirst := (h ⟨946684800, 0⟩ (by decide)).2
    have hlast := (h ⟨4133980799, 0⟩ (by decide)).2
    have houtside (secs : Int) (toPast : Bool) :
        (outsideLeapSecond ⟨secs, 0⟩ toPast).secs = secs := rfl
    simp only [apply_ite Instant.secs, houtside, ite_self] at hfirst hlast
    omega
  · rintro ⟨hfuture, hpast⟩ t ⟨hfirst, hlast⟩
    have hmost : hours.natAbs ≤ maxHours := by
      rw [maxHours]
      omega
    refine ⟨hmost, ?_⟩
    split
    · omega
    · rcases t.secs_outsideLeapSecond (decide (0 < hours)) with hsecs | ⟨hpos, hsecs⟩
      · rw [hsecs]
        omega
      · have hpos : 0 < hours := of_decide_eq_true hpos
        rw [hsecs]
        omega

end Instant

namespace Aggregator

variable {σ : Type} [EventStore σ]

theorem isSome_refreshWindows_iff (now : Instant) (windows : List Int64)
    (cache : SortedMap Int64 StatsBucket) (done : Nat) (s : σ) :
    (refreshWindows now windows cache done s).1.isSome = true ↔
      ∀ hours ∈ windows, (cutoff? hours now).isSome = true := by
  induction windows generalizing cache done s with
  | nil => exact iff_of_true rfl nofun
  | cons hours rest ih =>
    rw [refreshWindows, List.forall_mem_cons]
    cases cutoff? hours now with
    | none => exact iff_of_false nofun fun h => Bool.false_ne_true h.1
    | some since =>
      rw [Option.isSome_some, eq_self, true_and]
      dsimp only
      split
      · exact ih _ _ _
      · exact ih _ _ _

theorem isSome_refresh_iff (now : Instant) (a : Aggregator) (s : σ) :
    (a.refresh now s).1.isSome = true ↔
      ∀ hours ∈ a.windows, (cutoff? hours now).isSome = true := by
  rw [← isSome_refreshWindows_iff now a.windows a.cache 0 s, refresh, Option.isSome_map]

end Aggregator

namespace Service

variable {σ : Type} [EventStore σ]

theorem start_cases {config : Config} (hconfig : config.validate = .ok ()) (now : Instant)
    (store : σ) :
    ((∀ hours ∈ config.stats.windowsHours, (Aggregator.cutoff? hours now).isSome = true) ∧
      ∃ s, start config now store = .ok s) ∨
    ((¬ ∀ hours ∈ config.stats.windowsHours, (Aggregator.cutoff? hours now).isSome = true) ∧
      start config now store = .error .windowOutOfRange) := by
  have hrefresh :=
    Aggregator.isSome_refresh_iff now (.ofWindows config.stats.windowsHours) store
  rw [start, hconfig]
  generalize (Aggregator.ofWindows config.stats.windowsHours).refresh now store = result at hrefresh
  obtain ⟨answer, after⟩ := result
  cases answer with
  | some counted => exact .inl ⟨hrefresh.1 rfl, _, rfl⟩
  | none => exact .inr ⟨mt hrefresh.2 Bool.false_ne_true, rfl⟩

/-- With acceptable settings the statistics are counted and a service starts, whatever is stored, at
any time of these years exactly if no window reaches too far into the past or the future. -/
theorem starts_in_all_years_iff {config : Config} (hconfig : config.validate = .ok ()) (store : σ) :
    (∀ now : Instant, now.IsPresent →
      (∀ hours ∈ config.stats.windowsHours, (Aggregator.cutoff? hours now).isSome = true) ∧
      (∀ cache, ((Aggregator.mk config.stats.windowsHours cache).refresh now store).1.isSome =
        true) ∧
      ∃ s, start config now store = .ok s) ↔
    ∀ hours ∈ config.stats.windowsHours,
      -2279481360 ≤ hours.toInt ∧ hours.toInt ≤ 2315429976 := by
  constructor
  · intro h hours hmem
    apply (Instant.isSome_hoursBefore?_of_isPresent_iff hours.toInt).1
    intro now hnow
    exact (h now hnow).1 hours hmem
  · intro h now hnow
    have hall : ∀ hours ∈ config.stats.windowsHours,
        (Aggregator.cutoff? hours now).isSome = true := by
      intro hours hmem
      exact (Instant.isSome_hoursBefore?_of_isPresent_iff hours.toInt).2 (h hours hmem) now hnow
    refine ⟨hall, fun cache => (Aggregator.isSome_refresh_iff now _ store).2 hall, ?_⟩
    rcases start_cases hconfig now store with ⟨_, hstart⟩ | ⟨hnot, _⟩
    · exact hstart
    · exact absurd hall hnot

/-- Windows may end in the future, last no time and reach back to the first year there is. -/
theorem starts_in_all_years_iff_of_distant_windows :
    let config := { Config.standard with
      stats := { StatsConfig.standard with windowsHours := [2315429976, 0, -2279481360, 0] } }
    let now : Instant := ⟨4102444799, 1999999999⟩
    config.validate = .ok () ∧ now.IsPresent ∧
      (∀ hours ∈ config.stats.windowsHours, (Aggregator.cutoff? hours now).isSome = true) ∧
      ∃ s, start config now Database.fresh = .ok s := by
  intro config now
  have hconfig : config.validate = .ok () :=
    config.validate_iff_fault?.2 (Option.isNone_iff_eq_none.1 (by decide +kernel))
  have hnow : now.IsPresent := by decide
  have hwindows : ∀ hours ∈ config.stats.windowsHours,
      -2279481360 ≤ hours.toInt ∧ hours.toInt ≤ 2315429976 := by
    simp only [config, List.forall_mem_cons]
    exact ⟨by decide, by decide, by decide, by decide, nofun⟩
  obtain ⟨hall, _, hstart⟩ := (starts_in_all_years_iff hconfig Database.fresh).2 hwindows now hnow
  exact ⟨hconfig, hnow, hall, hstart⟩

/-- A service does not start although its settings are acceptable: no number of hours is refused, and
there are some that cannot be taken away. -/
theorem not_start_of_far_window :
    let config := { Config.standard with
      stats := { StatsConfig.standard with windowsHours := [24, 9223372036854775807] } }
    let now : Instant := ⟨1763555555, 0⟩
    config.validate = .ok () ∧ now.IsPresent ∧
      ((Aggregator.ofWindows config.stats.windowsHours).refresh now Database.fresh).1.isSome =
        false ∧
      start config now Database.fresh = .error .windowOutOfRange ∧
      ¬ ∀ now : Instant, now.IsPresent →
        ((Aggregator.ofWindows config.stats.windowsHours).refresh now Database.fresh).1.isSome =
          true ∧
        ∃ s, start config now Database.fresh = .ok s := by
  intro config now
  have hconfig : config.validate = .ok () :=
    config.validate_iff_fault?.2 (Option.isNone_iff_eq_none.1 (by decide +kernel))
  have hnow : now.IsPresent := by decide
  have hnone : Aggregator.cutoff? 9223372036854775807 now = none := by decide +kernel
  have hmem : (9223372036854775807 : Int64) ∈ config.stats.windowsHours := by decide
  have hnot : ¬ ∀ hours ∈ config.stats.windowsHours,
      (Aggregator.cutoff? hours now).isSome = true := by
    intro hall
    have hsome := hall _ hmem
    rw [hnone] at hsome
    cases hsome
  have hrefresh := Bool.eq_false_iff.2 (mt (Aggregator.isSome_refresh_iff now
    (.ofWindows config.stats.windowsHours) Database.fresh).1 hnot)
  refine ⟨hconfig, hnow, hrefresh, ?_, ?_⟩
  · rcases start_cases hconfig now Database.fresh with ⟨hall, _⟩ | ⟨_, hstart⟩
    · exact absurd hall hnot
    · exact hstart
  · intro h
    exact Bool.false_ne_true (hrefresh.symm.trans (h now hnow).1)

end Service

end ProviderScout
