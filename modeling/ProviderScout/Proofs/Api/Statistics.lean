import ProviderScout.Proofs.Api.Requests
import ProviderScout.Proofs.Service.Course
import ProviderScout.Proofs.Statistics.Cutoffs
import ProviderScout.Proofs.Statistics.Serving
import ProviderScout.Proofs.Text.Bytes

namespace ProviderScout

namespace Aggregator

section

variable {σ : Type} [EventStore σ]

theorem refresh_eq {a : Aggregator} {now : Instant}
    (h : ∀ hours ∈ a.windows, (cutoff? hours now).isSome = true) (s : σ) :
    let log := computations now a.windows s
    a.refresh now s =
      (some (log.1.countP Computation.succeeds, ⟨a.windows, log.1.foldl Computation.keep a.cache⟩),
        log.2) := by
  rw [refresh, refreshWindows_eq h, Nat.zero_add]
  rfl

/-- Counting anew leaves alone what is served of other windows than the configured ones. -/
theorem cached?_refresh {a b : Aggregator} {now : Instant} {s t : σ} {done : ℕ}
    (h : a.refresh now s = (some (done, b), t)) :
    b.windows = a.windows ∧ ∀ hours, hours ∉ a.windows → b.cached? hours = a.cached? hours := by
  have hadmits : ∀ hours ∈ a.windows, (cutoff? hours now).isSome = true := by
    rw [← isSome_refresh_iff now a s, h]
    rfl
  rw [refresh_eq hadmits] at h
  cases h
  refine ⟨rfl, ?_⟩
  intro hours hmem
  apply Computation.get?_foldl_keep_of_not_yields
  rintro c hc ⟨b, rfl⟩
  apply hmem
  rw [← hours_computations hadmits s]
  exact List.mem_map_of_mem hc

end

/-- Counting in a database leaves it as it is, so each window is counted in the same one. -/
theorem answer_of_mem_computations {now : Instant} {windows : List Int64} {d : Database}
    {c : Computation} (h : c ∈ (computations now windows d).1) :
    ∃ since, cutoff? c.hours now = some since ∧ c.answer = (compute c.hours since now d).1 := by
  induction windows with
  | nil => cases h
  | cons hours rest ih =>
    rw [computations] at h
    split at h
    · cases h
    · rename_i since hsince
      rcases List.mem_cons.1 h with rfl | h
      · exact ⟨since, hsince, rfl⟩
      · exact ih h

end Aggregator

namespace Service

section

variable {σ : Type} [EventStore σ] {config : Config}

/-- A service at any time after its start. Counting is the only thing done with its aggregator;
whatever else happens may change all but that and the settings. -/
inductive Reached (config : Config) : Service σ → Prop where
  | start {now : Instant} {store : σ} {s : Service σ} (h : start config now store = .ok s) :
      Reached config s
  | count {s : Service σ} (now : Instant) (h : Reached config s) :
      Reached config (s.refreshStatistics now).2
  | other {s t : Service σ} (h : Reached config s) (hconfig : t.config = s.config)
      (haggregator : t.aggregator = s.aggregator) : Reached config t

theorem Reached.proceed {c : Course σ} (h : Reached config c.service) (a : Action) :
    Reached config (c.proceed a).service := by
  rw [Course.proceed]
  split
  · exact h
  · rw [Course.service_handOver]
    exact .other h rfl rfl

theorem Reached.step [ModelStore σ] {c : Course σ} (h : Reached config c.service) (a : Activity) :
    Reached config (c.step a).service := by
  cases a with
  | operate op => exact .other h rfl rfl
  | track e =>
    rw [Course.step]
    split
    · exact h.proceed (.send e)
    · exact h
  | proceed a => exact h.proceed a
  | count now => exact .count now h

theorem Reached.run [ModelStore σ] {c : Course σ} (h : Reached config c.service)
    (activities : List Activity) : Reached config (c.run activities).service := by
  induction activities generalizing c with
  | nil => exact h
  | cons a rest ih => exact ih (h.step a)

/-- What is served is only of configured windows. -/
theorem Reached.keeps {s : Service σ} (h : Reached config s) :
    s.aggregator.windows = config.stats.windowsHours ∧
      ∀ hours, hours ∉ config.stats.windowsHours → s.aggregator.cached? hours = none := by
  induction h with
  | @start now store s h =>
    rw [Service.start] at h
    split at h
    · cases h
    · split at h
      · cases h
      · rename_i hrefresh
        cases h
        exact Aggregator.cached?_refresh hrefresh
  | @count s now _ ih =>
    obtain ⟨hwindows, hnone⟩ := ih
    rw [refreshStatistics]
    split
    · exact ⟨hwindows, hnone⟩
    · rename_i hrefresh
      obtain ⟨hsame, hothers⟩ := Aggregator.cached?_refresh hrefresh
      refine ⟨hsame.trans hwindows, ?_⟩
      intro hours hmem
      exact (hothers hours (hwindows ▸ hmem)).trans (hnone hours hmem)
  | other _ _ haggregator ih =>
    rw [haggregator]
    exact ih

end

theorem total_of_mem_computations {now : Instant} {windows : List Int64} {e : UsageEvent}
    (htime : now.secs ≤ e.createdAt.secs) (hoperation : e.operation.isSome = true) {b : StatsBucket}
    (h : (⟨0, .ok b⟩ : Computation) ∈ (Aggregator.computations now windows
      (Database.fresh.withEvents ⟨[.ofEvent e], []⟩)).1) : b.total = 1 := by
  obtain ⟨since, hsince, hanswer⟩ := Aggregator.answer_of_mem_computations h
  obtain ⟨bucket, hbucket, -, htotal⟩ :=
    Aggregator.compute_shows (d := Database.fresh.withEvents ⟨[.ofEvent e], []⟩)
      (t := ⟨[.ofEvent e], []⟩) rfl (show 1 ≤ EventTable.maxRows by decide) 0 since now
  obtain rfl : b = bucket := Except.ok.inj (hanswer.trans hbucket)
  have hback : since.secs = now.secs - 3600 * 0 ∨ (0 : ℤ) < 0 ∧ _ :=
    Instant.secs_hoursBefore? hsince
  have hsecs : since.secs ≤ e.createdAt.secs := by omega
  have hcounts : (StoredEvent.ofEvent e).isSince since = true := decide_eq_true hsecs
  have hnamed : (StoredEvent.ofEvent e).operation.isSome = true := hoperation
  rw [htotal, List.countP_singleton, hcounts, hnamed]
  rfl

/-- A start with a window of no hours on a database with an event that is still to come. -/
theorem exists_start_of_zero_mem {config : Config} (hvalid : config.validate = .ok ())
    {now : Instant}
    (hnow : ∀ hours ∈ config.stats.windowsHours, (Aggregator.cutoff? hours now).isSome = true)
    (hzero : 0 ∈ config.stats.windowsHours) {e : UsageEvent}
    (htime : now.secs ≤ e.createdAt.secs) (hoperation : e.operation.isSome = true) :
    ∃ s b, start config now (Database.fresh.withEvents ⟨[.ofEvent e], []⟩) = .ok s ∧
      s.aggregator.cached? 0 = some b ∧ b.total = 1 := by
  let d := Database.fresh.withEvents ⟨[.ofEvent e], []⟩
  let r := Aggregator.computations now config.stats.windowsHours d
  have hstart : start config now d =
      .ok (fresh config ⟨config.stats.windowsHours, r.1.foldl Computation.keep ∅⟩ r.2) := by
    rw [start, hvalid, Aggregator.refresh_eq (a := .ofWindows config.stats.windowsHours) hnow]
    rfl
  obtain ⟨b, hb⟩ : ∃ b, Computation.LastGood 0 b r.1 := by
    apply Computation.exists_lastGood
    rw [← Aggregator.hours_computations hnow d] at hzero
    obtain ⟨⟨hours, answer⟩, hc, rfl⟩ := List.mem_map.1 hzero
    obtain ⟨since, -, hanswer⟩ := Aggregator.answer_of_mem_computations hc
    obtain ⟨b, hbucket, -⟩ := Aggregator.compute_shows (d := d) (t := ⟨[.ofEvent e], []⟩) rfl
      (show 1 ≤ EventTable.maxRows by decide) 0 since now
    exact ⟨_, hc, b, congrArg (Computation.mk 0) (hanswer.trans hbucket)⟩
  have hmem : (⟨0, .ok b⟩ : Computation) ∈ r.1 := by
    obtain ⟨before, after, hlog, -⟩ := hb
    rw [hlog]
    exact List.mem_append_right before List.mem_cons_self
  exact ⟨_, b, hstart, (Computation.get?_foldl_keep_iff r.1 0 b).2 hb,
    total_of_mem_computations htime hoperation hmem⟩

end Service

namespace Api

/-- Whether a request asks for usage. The window may be left out. -/
structure AsksForUsage (r : Http.Request) (hours : Option String) : Prop where
  method : r.method = "GET"
  path : r.target.path = "/provider-stats"
  parameter : parameter? "hours" r.target.parameters = .ok hours

theorem answer_of_asksForUsage {σ : Type} [ModelStore σ] [EventStore σ] {r : Http.Request}
    {hours : Option String} (h : AsksForUsage r hours) (now : Instant) (s : Service σ) :
    ∃ a, (answer r now s).1 = some a ∧ a.status = 200 ∧
      a.body = .json (bucket (windowHours hours) now s).toJson := by
  obtain ⟨hmethod, hpath, hparameter⟩ := h
  have hroute : Route.ofPath? s.config.api.swaggerUi r.target.path = some .statistics := by
    rw [hpath]
    rfl
  have hread := (answer_of_get hmethod hroute (.head _) now).1
  rw [read, hparameter] at hread
  obtain ⟨a, ha, hsame⟩ := Option.map_eq_some_iff.1 hread
  exact ⟨a, ha, (Prod.mk.inj hsame).1, (Prod.mk.inj hsame).2⟩

/-- Whether an answer tells of no usage. -/
def TellsNothing (a : Http.Response) : Prop :=
  ∃ b : StatsBucket, a.body = .json b.toJson ∧ b.providers = [] ∧ b.total = 0

theorem not_tellsNothing {a : Http.Response} {b : StatsBucket} (h : a.body = .json b.toJson)
    (htotal : b.total = 1) : ¬ TellsNothing a := by
  rintro ⟨b', hbody, -, hnone⟩
  have hjson : b.toJson = b'.toJson := Http.Body.json.inj (h.symm.trans hbody)
  simp only [StatsBucket.toJson, Json.object.injEq, List.cons.injEq, Prod.mk.injEq] at hjson
  have hsame : b.total = b'.total := Int.ofNat.inj (Json.int.inj hjson.2.1.2)
  omega

def wordRequest : Http.Request := ⟨"GET", ⟨"/provider-stats", "hours=abc"⟩, []⟩

theorem asksForUsage_word : AsksForUsage wordRequest (some "abc") := by
  have hparts : (Text.splitBytes 0x26 (Text.bytes "hours=abc")).filter (fun part => !part.isEmpty) =
      [[104, 111, 117, 114, 115, 61, 97, 98, 99]] := by decide +kernel
  have hfields : wordRequest.target.parameters = [("hours", "abc")] := by
    rw [Http.Target.parameters, wordRequest, Text.formFields, hparts, List.map_singleton,
      Text.formField, Text.formText, Text.formText, Text.ofBytes_of_lt (by decide +kernel),
      Text.ofBytes_of_lt (by decide +kernel)]
    decide +kernel
  refine ⟨rfl, rfl, ?_⟩
  rw [hfields]
  rfl

/-- Usage is answered as it was counted last, at any time after a start with acceptable settings:
for 24 hours if no window is asked for, else for the whole number that the trimmed text is, and
there is none where nothing was counted. A text that is no whole number is answered as 0 is, so that
it finds nothing just if a window of no hours is not among the settings. -/
theorem answers_usage {config : Config} (hvalid : config.validate = .ok ()) {start : Instant}
    (hstart : ∀ hours ∈ config.stats.windowsHours,
      (Aggregator.cutoff? hours start).isSome = true) :
    (∀ (σ : Type) [ModelStore σ] [EventStore σ] (s : Service σ), s.Reached config →
      ∀ (r : Http.Request) (now : Instant) (hours : Option String), AsksForUsage r hours →
        let served (window : Int64) := (s.aggregator.cached? window).getD (.empty window now)
        ∃ a, (answer r now s).1 = some a ∧ a.status = 200 ∧
          (hours = none → a.body = .json (served 24).toJson) ∧
          (∀ text n, hours = some text → Text.column? (Text.trim text.toList) = some n →
            a.body = .json (served n).toJson) ∧
          (∀ text, hours = some text → Text.column? (Text.trim text.toList) = none →
            a.body = .json (served 0).toJson) ∧
          ∀ window, window ∉ config.stats.windowsHours → served window = .empty window now) ∧
    ((∀ (σ : Type) [ModelStore σ] [EventStore σ] (s : Service σ), s.Reached config →
      ∀ (r : Http.Request) (now : Instant) (text : String), AsksForUsage r (some text) →
        Text.column? (Text.trim text.toList) = none →
          ∃ a, (answer r now s).1 = some a ∧ TellsNothing a) ↔
      0 ∉ config.stats.windowsHours) := by
  have hserved {σ : Type} [EventStore σ] {s : Service σ} (hs : s.Reached config) (now : Instant)
      {window : Int64} (hmem : window ∉ config.stats.windowsHours) :
      (s.aggregator.cached? window).getD (.empty window now) = .empty window now := by
    rw [hs.keeps.2 window hmem]
    rfl
  refine ⟨?_, ?_, ?_⟩
  · intro σ _ _ s hs r now hours hr
    obtain ⟨a, ha, hstatus, hbody⟩ := answer_of_asksForUsage hr now s
    refine ⟨a, ha, hstatus, ?_, ?_, ?_, fun window => hserved hs now⟩
    · rintro rfl
      exact hbody
    · rintro text n rfl hn
      rw [hbody, windowHours, hn]
      rfl
    · rintro text rfl hn
      rw [hbody, windowHours, hn]
      rfl
  · intro hnothing hzero
    let e : UsageEvent := ⟨⟨1⟩, start, "news.example.org", "Pooled", some "BODY", none⟩
    obtain ⟨s, b, hs, hb, htotal⟩ :=
      Service.exists_start_of_zero_mem hvalid hstart hzero (e := e) (le_refl _) rfl
    have hword : Text.column? (Text.trim "abc".toList) = none := by decide
    obtain ⟨a, ha, -, hbody⟩ := answer_of_asksForUsage asksForUsage_word start s
    rw [windowHours, hword, Option.getD_none, bucket, hb] at hbody
    obtain ⟨a', ha', htells⟩ :=
      hnothing Database s (.start hs) _ start _ asksForUsage_word hword
    obtain rfl : a = a' := Option.some.inj (ha.symm.trans ha')
    exact not_tellsNothing hbody htotal htells
  · intro hzero σ _ _ s hs r now text hr hword
    obtain ⟨a, ha, -, hbody⟩ := answer_of_asksForUsage hr now s
    rw [windowHours, hword, Option.getD_none, bucket, hserved hs now hzero] at hbody
    exact ⟨a, ha, _, hbody, rfl, rfl⟩

def withWindows (windows : List Int64) : Config :=
  { Config.standard with stats := { StatsConfig.standard with windowsHours := windows } }

/-- Windows of a day, of an hour and up to three hours from now. -/
theorem answers_usage_of_future_window :
    let config := withWindows [24, -3, 1]
    config.validate = .ok () ∧
      (∀ hours ∈ config.stats.windowsHours,
        (Aggregator.cutoff? hours ⟨1700000000, 0⟩).isSome = true) ∧
      ∀ s : Service Database, s.Reached config → ∀ now,
        ∃ a, (answer wordRequest now s).1 = some a ∧ TellsNothing a := by
  intro config
  have hvalid : config.validate = .ok () := by decide +kernel
  have hstart : ∀ hours ∈ config.stats.windowsHours,
      (Aggregator.cutoff? hours ⟨1700000000, 0⟩).isSome = true := by
    simp only [config, withWindows, List.forall_mem_cons]
    exact ⟨by decide, by decide, by decide, nofun⟩
  have hzero : 0 ∉ config.stats.windowsHours := by decide
  refine ⟨hvalid, hstart, ?_⟩
  intro s hs now
  exact (answers_usage hvalid hstart).2.2 hzero Database s hs wordRequest now "abc"
    asksForUsage_word (by decide)

/-- With a window of no hours and an event of the future a word is answered with usage. -/
theorem word_answered_with_usage :
    let config := withWindows [0, 24]
    let e : UsageEvent :=
      ⟨⟨1⟩, ⟨4102444800, 0⟩, "news.a.example", "Pooled", some "BODY", none⟩
    let d := Database.fresh.withEvents ⟨[.ofEvent e], []⟩
    config.validate = .ok () ∧ AsksForUsage wordRequest (some "abc") ∧
      Text.column? (Text.trim "abc".toList) = none ∧
      ∃ s a, Service.start config ⟨1700000000, 0⟩ d = .ok s ∧
        (answer wordRequest ⟨1700000000, 0⟩ s).1 = some a ∧ a.status = 200 ∧
        ¬ TellsNothing a := by
  intro config e d
  have hvalid : config.validate = .ok () := by decide +kernel
  have hword : Text.column? (Text.trim "abc".toList) = none := by decide
  have hadmits : ∀ hours ∈ config.stats.windowsHours,
      (Aggregator.cutoff? hours ⟨1700000000, 0⟩).isSome = true := by
    simp only [config, withWindows, List.forall_mem_cons]
    exact ⟨by decide, by decide, nofun⟩
  obtain ⟨s, b, hs, hb, htotal⟩ :=
    Service.exists_start_of_zero_mem hvalid hadmits (by decide) (e := e)
      (show (1700000000 : ℤ) ≤ 4102444800 by omega) rfl
  obtain ⟨a, ha, hstatus, hbody⟩ := answer_of_asksForUsage asksForUsage_word ⟨1700000000, 0⟩ s
  rw [windowHours, hword, Option.getD_none, bucket, hb] at hbody
  exact ⟨hvalid, asksForUsage_word, hword, s, a, hs, ha, hstatus, not_tellsNothing hbody htotal⟩

end Api

end ProviderScout
