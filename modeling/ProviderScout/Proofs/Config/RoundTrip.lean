import ProviderScout.Config.Format
import ProviderScout.Proofs.Config.Validation
import ProviderScout.Proofs.Engine.Measures
import ProviderScout.Proofs.Json.Reading
import ProviderScout.Proofs.Text.Addresses

namespace ProviderScout

open Double

namespace Duration

/-- A length without its part below a second. -/
def inSeconds (d : Duration) : Duration := .ofSeconds (.ofNat d.seconds)

theorem seconds_lt (d : Duration) : d.seconds < 2 ^ 64 := by
  have h := d.inRange
  rw [limit, perSecond] at h
  rw [seconds, perSecond]
  omega

theorem toNat_seconds (d : Duration) : (UInt64.ofNat d.seconds).toNat = d.seconds :=
  UInt64.toNat_ofNat_of_lt' d.seconds_lt

theorem ofJson?_toJson (d : Duration) : ofJson? d.toJson = some d.inSeconds := by
  have hread := Json.uint64?_ofNat (UInt64.ofNat d.seconds)
  rw [toNat_seconds] at hread
  rw [toJson, ofJson?, hread]
  rfl

theorem isZero_inSeconds (d : Duration) : d.inSeconds.isZero = false ↔ 1 ≤ d.seconds := by
  have hnanos : d.inSeconds.nanos = d.seconds * perSecond :=
    congrArg (· * perSecond) d.toNat_seconds
  rw [isZero, hnanos, beq_eq_false_iff_ne, perSecond]
  omega

theorem inSeconds_ofSeconds (n : UInt64) : (ofSeconds n).inSeconds = ofSeconds n := by
  have hseconds : (ofSeconds n).seconds = n.toNat := Nat.mul_div_cancel n.toNat (by decide)
  rw [inSeconds, hseconds, UInt64.ofNat_toNat]

theorem inSeconds_of_ofJson? {v : Json} {d : Duration} (h : ofJson? v = some d) :
    d.inSeconds = d := by
  obtain ⟨n, _, rfl⟩ := Option.map_eq_some_iff.1 h
  exact inSeconds_ofSeconds n

/-- A length that a record gives in seconds, or leaves out where the default is whole seconds. -/
theorem inSeconds_of_withDefault {s : Slot} {n : UInt64} {d : Duration}
    (h : s.withDefault (ofSeconds n) ofJson? = some d) : d.inSeconds = d := by
  cases s with
  | given v => exact inSeconds_of_ofJson? h
  | unnamed | cutOff =>
    cases h
    exact inSeconds_ofSeconds n

end Duration

theorem Role.ofJson?_toJson (r : Role) : ofJson? r.toJson = some r := r.ofName?_name

namespace ProviderConfig

theorem ofJson?_toJson (p : ProviderConfig) : ofJson? p.toJson = some p := by
  obtain ⟨r, hr, hslot⟩ := Record.ofJson?_of_nodup fieldNames (v := p.toJson) rfl rfl (by decide)
  simp only [List.forall_mem_cons] at hslot
  obtain ⟨hhost, hport, htls, husername, hpassword, hconnections, hpriority, htype, _⟩ := hslot
  rw [ofJson?, hr]
  simp only [Option.bind_eq_bind, Option.bind_some, hhost, hport, htls, husername, hpassword,
    hconnections, hpriority, htype, Slot.required_given, Slot.withDefault_given,
    Json.uint16?_ofNat, Json.nullable_ofOption, Json.uint64?_ofNat, Json.int32?_int,
    Role.ofJson?_toJson]
  rfl

end ProviderConfig

namespace RetryPolicy

def inSeconds (p : RetryPolicy) : RetryPolicy :=
  { p with initialDelay := p.initialDelay.inSeconds, maxDelay := p.maxDelay.inSeconds }

theorem ofJson?_toJson {p : RetryPolicy} (h : p.multiplier.isFinite = true) :
    ofJson? p.toJson = some p.inSeconds := by
  obtain ⟨r, hr, hslot⟩ := Record.ofJson?_of_nodup fieldNames (v := p.toJson) rfl rfl (by decide)
  simp only [List.forall_mem_cons] at hslot
  obtain ⟨hattempts, hinitial, hmax, hmultiplier, hjitter, _⟩ := hslot
  rw [ofJson?, hr]
  simp only [Option.bind_eq_bind, Option.bind_some, hattempts, hinitial, hmax, hmultiplier, hjitter,
    Slot.withDefault_given, Json.uint32?_ofNat, Duration.ofJson?_toJson, Json.float?_ofFloat h]
  rfl

theorem isFinite_standard : standard.multiplier.isFinite = true := by decide +kernel

theorem inSeconds_standard : standard.inSeconds = standard := by
  rw [inSeconds, standard]
  simp only [Duration.inSeconds_ofSeconds]

theorem of_ofJson? {v : Json} (hv : v.isProper = true) {p : RetryPolicy} (h : ofJson? v = some p) :
    p.multiplier.isFinite = true ∧ p.inSeconds = p := by
  simp only [ofJson?, Option.bind_eq_bind, Option.bind_eq_some_iff] at h
  obtain ⟨r, hr, attempts, -, initial, hinitial, max, hmax, multiplier, hmultiplier, jitter, -,
    heq⟩ := h
  cases heq
  have hproper := Record.isProper_slot hv hr
  constructor
  · exact (hproper _).isFinite_of_withDefault isFinite_standard hmultiplier
  · rw [inSeconds, Duration.inSeconds_of_withDefault hinitial,
      Duration.inSeconds_of_withDefault hmax]

end RetryPolicy

namespace AffinityConfig

def inSeconds (c : AffinityConfig) : AffinityConfig :=
  { c with
    persistInterval := c.persistInterval.inSeconds
    benchmarkRefreshInterval := c.benchmarkRefreshInterval.inSeconds
    benchmarkInitialDelay := c.benchmarkInitialDelay.inSeconds }

/-- Whether the numbers have a form in JSON. -/
structure IsWritable (c : AffinityConfig) : Prop where
  rate : c.explorationRate.isFinite = true
  alpha : c.ewmaAlpha.isFinite = true

theorem ofJson?_toJson {c : AffinityConfig} (h : c.IsWritable) :
    ofJson? c.toJson = some c.inSeconds := by
  obtain ⟨r, hr, hslot⟩ := Record.ofJson?_of_nodup fieldNames (v := c.toJson) rfl rfl (by decide)
  simp only [List.forall_mem_cons] at hslot
  obtain ⟨henabled, hrate, hsamples, halpha, hpersist, hrefresh, hinitial, _⟩ := hslot
  rw [ofJson?, hr]
  simp only [Option.bind_eq_bind, Option.bind_some, henabled, hrate, hsamples, halpha, hpersist,
    hrefresh, hinitial, Slot.withDefault_given, Json.uint64?_ofNat, Duration.ofJson?_toJson,
    Json.float?_ofFloat h.rate, Json.float?_ofFloat h.alpha]
  rfl

theorem isWritable_standard : standard.IsWritable where
  rate := by decide +kernel
  alpha := by decide +kernel

theorem inSeconds_standard : standard.inSeconds = standard := by
  rw [inSeconds, standard]
  simp only [Duration.inSeconds_ofSeconds]

theorem of_ofJson? {v : Json} (hv : v.isProper = true) {c : AffinityConfig}
    (h : ofJson? v = some c) : c.IsWritable ∧ c.inSeconds = c := by
  simp only [ofJson?, Option.bind_eq_bind, Option.bind_eq_some_iff] at h
  obtain ⟨r, hr, enabled, -, rate, hrate, samples, -, alpha, halpha, persist, hpersist, refresh,
    hrefresh, initial, hinitial, heq⟩ := h
  cases heq
  have hproper := Record.isProper_slot hv hr
  refine ⟨⟨?_, ?_⟩, ?_⟩
  · exact (hproper _).isFinite_of_withDefault isWritable_standard.rate hrate
  · exact (hproper _).isFinite_of_withDefault isWritable_standard.alpha halpha
  · rw [inSeconds, Duration.inSeconds_of_withDefault hpersist,
      Duration.inSeconds_of_withDefault hrefresh, Duration.inSeconds_of_withDefault hinitial]

end AffinityConfig

namespace UsageConfig

def inSeconds (c : UsageConfig) : UsageConfig := { c with batchWindow := c.batchWindow.inSeconds }

theorem ofJson?_toJson (c : UsageConfig) : ofJson? c.toJson = some c.inSeconds := by
  obtain ⟨r, hr, hslot⟩ := Record.ofJson?_of_nodup fieldNames (v := c.toJson) rfl rfl (by decide)
  simp only [List.forall_mem_cons] at hslot
  obtain ⟨henabled, hsize, hwindow, _⟩ := hslot
  rw [ofJson?, hr]
  simp only [Option.bind_eq_bind, Option.bind_some, henabled, hsize, hwindow,
    Slot.withDefault_given, Json.uint64?_ofNat, Duration.ofJson?_toJson]
  rfl

theorem inSeconds_standard : standard.inSeconds = standard := by
  rw [inSeconds, standard, Duration.inSeconds_ofSeconds]

theorem inSeconds_of_ofJson? {v : Json} {c : UsageConfig} (h : ofJson? v = some c) :
    c.inSeconds = c := by
  simp only [ofJson?, Option.bind_eq_bind, Option.bind_eq_some_iff] at h
  obtain ⟨r, -, enabled, -, size, -, window, hwindow, heq⟩ := h
  cases heq
  rw [inSeconds, Duration.inSeconds_of_withDefault hwindow]

end UsageConfig

namespace StatsConfig

def inSeconds (c : StatsConfig) : StatsConfig :=
  { c with refreshInterval := c.refreshInterval.inSeconds }

theorem ofJson?_toJson (c : StatsConfig) : ofJson? c.toJson = some c.inSeconds := by
  obtain ⟨r, hr, hslot⟩ := Record.ofJson?_of_nodup fieldNames (v := c.toJson) rfl rfl (by decide)
  simp only [List.forall_mem_cons] at hslot
  obtain ⟨hhours, hinterval, _⟩ := hslot
  rw [ofJson?, hr]
  simp only [Option.bind_eq_bind, Option.bind_some, hhours, hinterval, Slot.withDefault_given,
    Json.list?_map fun h _ => Json.column?_int h, Duration.ofJson?_toJson]
  rfl

theorem inSeconds_standard : standard.inSeconds = standard := by
  rw [inSeconds, standard, Duration.inSeconds_ofSeconds]

theorem inSeconds_of_ofJson? {v : Json} {c : StatsConfig} (h : ofJson? v = some c) :
    c.inSeconds = c := by
  simp only [ofJson?, Option.bind_eq_bind, Option.bind_eq_some_iff] at h
  obtain ⟨r, -, hours, -, interval, hinterval, heq⟩ := h
  cases heq
  rw [inSeconds, Duration.inSeconds_of_withDefault hinterval]

end StatsConfig

namespace PersistenceConfig

def inSeconds (c : PersistenceConfig) : PersistenceConfig :=
  { c with startupRetry := c.startupRetry.inSeconds }

theorem ofJson?_toJson {c : PersistenceConfig} (h : c.startupRetry.multiplier.isFinite = true) :
    ofJson? c.toJson = some c.inSeconds := by
  obtain ⟨r, hr, hslot⟩ := Record.ofJson?_of_nodup fieldNames (v := c.toJson) rfl rfl (by decide)
  simp only [List.forall_mem_cons] at hslot
  obtain ⟨hpath, hretry, _⟩ := hslot
  rw [ofJson?, hr]
  simp only [Option.bind_eq_bind, Option.bind_some, hpath, hretry, Slot.withDefault_given,
    RetryPolicy.ofJson?_toJson h]
  rfl

theorem inSeconds_standard : standard.inSeconds = standard := by
  rw [inSeconds, standard, RetryPolicy.inSeconds_standard]

theorem of_ofJson? {v : Json} (hv : v.isProper = true) {c : PersistenceConfig}
    (h : ofJson? v = some c) :
    c.startupRetry.multiplier.isFinite = true ∧ c.inSeconds = c := by
  simp only [ofJson?, Option.bind_eq_bind, Option.bind_eq_some_iff] at h
  obtain ⟨r, hr, path, -, retry, hretry, heq⟩ := h
  cases heq
  obtain ⟨hfinite, hseconds⟩ :=
    (Record.isProper_slot hv hr _).of_withDefault
      (P := fun p => p.multiplier.isFinite = true ∧ p.inSeconds = p)
      ⟨RetryPolicy.isFinite_standard, RetryPolicy.inSeconds_standard⟩ hretry
      fun _ hw hread => RetryPolicy.of_ofJson? hw hread
  exact ⟨hfinite, by rw [inSeconds, hseconds]⟩

end PersistenceConfig

theorem SocketAddress.ofJson?_toJson (s : SocketAddress) : ofJson? s.toJson = some s :=
  s.parse?_text

namespace ApiConfig

theorem ofJson?_toJson (c : ApiConfig) : ofJson? c.toJson = some c := by
  obtain ⟨r, hr, hslot⟩ := Record.ofJson?_of_nodup fieldNames (v := c.toJson) rfl rfl (by decide)
  simp only [List.forall_mem_cons] at hslot
  obtain ⟨haddress, henabled, horigins, hui, _⟩ := hslot
  have hread : Json.list? Json.string? (.ofStrings c.corsOrigins) = some c.corsOrigins :=
    Json.list?_map fun _ _ => rfl
  rw [ofJson?, hr]
  simp only [Option.bind_eq_bind, Option.bind_some, haddress, henabled, horigins, hui,
    Slot.withDefault_given, SocketAddress.ofJson?_toJson, hread]
  rfl

theorem isWhole_toJson (c : ApiConfig) (depth : Nat) : c.toJson.isWhole (depth + 2) = true := by
  have horigins (ss : List String) : Json.areWhole depth (ss.map .string) = true := by
    induction ss with
    | nil => rfl
    | cons s rest ih => exact ih
  have harray : (Json.ofStrings c.corsOrigins).isWhole (depth + 1) = true := horigins c.corsOrigins
  simp only [toJson, Json.isWhole, Json.fieldsAreWhole, harray, SocketAddress.toJson, Bool.and_true]

end ApiConfig

namespace Config

/-- The settings with every length of time cut to whole seconds. -/
def inSeconds (c : Config) : Config :=
  { c with
    affinity := c.affinity.inSeconds
    usage := c.usage.inSeconds
    stats := c.stats.inSeconds
    persistence := c.persistence.inSeconds }

/-- Whether all numbers have a form in JSON. -/
structure IsWritable (c : Config) : Prop where
  affinity : c.affinity.IsWritable
  multiplier : c.persistence.startupRetry.multiplier.isFinite = true

theorem othersAreWhole_toJson (c : Config) {fields : List (String × Json)}
    (h : c.toJson = .object fields) : othersAreWhole fields = true := by
  cases h
  have hown (name : String) (v : Json) (hname : name ∈ ownNames) :
      (ownNames.contains name || v.isWhole fieldDepth) = true := by
    rw [List.contains_iff_mem.2 hname, Bool.true_or]
  have hapi : c.api.toJson.isWhole fieldDepth = true := c.api.isWhole_toJson 124
  simp only [othersAreWhole, List.all_cons, List.all_nil, Bool.and_true, Bool.and_eq_true]
  refine ⟨hown _ _ ?_, hown _ _ ?_, hown _ _ ?_, hown _ _ ?_, hown _ _ ?_, ?_⟩
  case refine_6 => rw [hapi, Bool.or_true]
  all_goals decide

/-- Settings are read back as they were written, in whole seconds. -/
theorem ofJson?_toJson {c : Config} (h : c.IsWritable) :
    ofJson? c.toJson = some c.inSeconds := by
  obtain ⟨r, hr, hslot⟩ := Record.ofFields?_of_nodup (ownNames ++ ["api"]) [
    ("providers", .array (c.providers.map ProviderConfig.toJson)),
    ("affinity", c.affinity.toJson),
    ("usage", c.usage.toJson),
    ("stats", c.stats.toJson),
    ("persistence", c.persistence.toJson),
    ("api", c.api.toJson)] rfl (by decide)
  simp only [List.forall_mem_cons] at hslot
  obtain ⟨hproviders, haffinity, husage, hstats, hpersistence, hapi, _⟩ := hslot
  rw [toJson, ofJson?, hr]
  simp only [Option.bind_eq_bind, Option.bind_some, hproviders, haffinity, husage, hstats,
    hpersistence, hapi, othersAreWhole_toJson c rfl, guard_true, Slot.withDefault_given,
    Json.list?_map fun p _ => ProviderConfig.ofJson?_toJson p,
    AffinityConfig.ofJson?_toJson h.affinity, UsageConfig.ofJson?_toJson,
    StatsConfig.ofJson?_toJson, PersistenceConfig.ofJson?_toJson h.multiplier,
    ApiConfig.ofJson?_toJson]
  rfl

/-- Settings that are read have only numbers with a form in JSON, and no length of time in them has
a part below a second. -/
theorem of_ofJson? {v : Json} (hv : v.isProper = true) {c : Config} (h : ofJson? v = some c) :
    c.IsWritable ∧ c.inSeconds = c := by
  cases v with
  | object fields =>
    simp only [ofJson?, Option.bind_eq_bind, Option.bind_eq_some_iff] at h
    obtain ⟨r, hr, -, -, providers, -, affinity, haffinity, usage, husage, stats, hstats,
      persistence, hpersistence, api, -, heq⟩ := h
    cases heq
    have hproper := Record.isProper_slot_of_fields ((Json.fieldsAreProper_iff fields).1 hv) hr
    obtain ⟨hwritable, haffinity⟩ :=
      (hproper _).of_withDefault (P := fun c => c.IsWritable ∧ c.inSeconds = c)
        ⟨AffinityConfig.isWritable_standard, AffinityConfig.inSeconds_standard⟩ haffinity
        fun _ hw hread => AffinityConfig.of_ofJson? hw hread
    obtain ⟨hmultiplier, hpersistence⟩ :=
      (hproper _).of_withDefault
        (P := fun c => c.startupRetry.multiplier.isFinite = true ∧ c.inSeconds = c)
        ⟨RetryPolicy.isFinite_standard, PersistenceConfig.inSeconds_standard⟩ hpersistence
        fun _ hw hread => PersistenceConfig.of_ofJson? hw hread
    have husage : usage.inSeconds = usage :=
      (hproper _).of_withDefault (P := fun c => c.inSeconds = c) UsageConfig.inSeconds_standard
        husage fun _ _ hread => UsageConfig.inSeconds_of_ofJson? hread
    have hstats : stats.inSeconds = stats :=
      (hproper _).of_withDefault (P := fun c => c.inSeconds = c) StatsConfig.inSeconds_standard
        hstats fun _ _ hread => StatsConfig.inSeconds_of_ofJson? hread
    refine ⟨⟨hwritable, hmultiplier⟩, ?_⟩
    rw [inSeconds, haffinity, husage, hstats, hpersistence]
  | _ => cases h

/-- The numbers of settings that are accepted have a form in JSON, the factor of the delays apart,
which is not looked at. -/
theorem isWritable_affinity_of_validate {c : Config} (h : c.validate = .ok ()) :
    c.affinity.IsWritable where
  rate := by
    obtain ⟨-, -, ⟨hzero, hone⟩, -⟩ := (validate_iff c).1 h
    exact isFinite_of_between (x := 0) (z := 1) (by decide +kernel) (by decide +kernel) hzero hone
  alpha := isFinite_of_below (isWeight_of_validate h).below

theorem validate_inSeconds {c : Config} (h : c.validate = .ok ()) :
    c.inSeconds.validate = .ok () ↔ ∀ i ∈ c.intervals, 1 ≤ i.2.seconds := by
  obtain ⟨-, hrest⟩ := (validate_iff c).1 h
  refine (validate_iff c.inSeconds).trans ((and_iff_left hrest).trans ?_)
  have hintervals : c.inSeconds.intervals = c.intervals.map fun i => (i.1, i.2.inSeconds) := rfl
  rw [hintervals, List.forall_mem_map]
  exact forall₂_congr fun i _ => i.2.isZero_inSeconds

def withPersistInterval (d : Duration) : Config :=
  { standard with affinity := { AffinityConfig.standard with persistInterval := d } }

theorem inSeconds_withPersistInterval (d : Duration) :
    (withPersistInterval d).inSeconds = withPersistInterval d.inSeconds := by
  simp only [inSeconds, withPersistInterval, standard, AffinityConfig.inSeconds,
    AffinityConfig.standard, Duration.inSeconds_ofSeconds, UsageConfig.inSeconds_standard,
    StatsConfig.inSeconds_standard, PersistenceConfig.inSeconds_standard]

/-- Settings that are accepted are read back with all lengths of time in whole seconds, and they
are accepted again just if each interval lasts a second or more. -/
theorem ofJson?_toJson_of_validate {c : Config} (h : c.validate = .ok ())
    (hmultiplier : c.persistence.startupRetry.multiplier.isFinite = true) :
    ofJson? c.toJson = some c.inSeconds ∧
      (c.inSeconds.validate = .ok () ↔ ∀ i ∈ c.intervals, 1 ≤ i.2.seconds) :=
  ⟨ofJson?_toJson ⟨isWritable_affinity_of_validate h, hmultiplier⟩, validate_inSeconds h⟩

theorem ofJson?_toJson_of_second_and_half :
    let c := withPersistInterval (.ofMillis 1500)
    c.validate = .ok () ∧ c.persistence.startupRetry.multiplier.isFinite = true ∧
      ofJson? c.toJson = some (withPersistInterval (.ofSeconds 1)) ∧
      (withPersistInterval (.ofSeconds 1)).validate = .ok () := by
  intro c
  have hvalid : c.validate = .ok () := by decide +kernel
  have hmultiplier : c.persistence.startupRetry.multiplier.isFinite = true := by decide +kernel
  have hone : (Duration.ofMillis 1500).inSeconds = .ofSeconds 1 := by decide
  have hseconds : c.inSeconds = withPersistInterval (.ofSeconds 1) := by
    rw [inSeconds_withPersistInterval, hone]
  obtain ⟨hread, haccepted⟩ := ofJson?_toJson_of_validate hvalid hmultiplier
  rw [hseconds] at hread haccepted
  exact ⟨hvalid, hmultiplier, hread, haccepted.2 (by decide +kernel)⟩

/-- Half a second is written as nothing and refused when it is read back. -/
theorem not_validate_of_half_second :
    let c := withPersistInterval (.ofMillis 500)
    c.validate = .ok () ∧ c.persistence.startupRetry.multiplier.isFinite = true ∧
      ∃ c', ofJson? c.toJson = some c' ∧
        c'.validate = .error (Fault.zeroInterval "affinity.persist_interval").error := by
  intro c
  have hvalid : c.validate = .ok () := by decide +kernel
  have hmultiplier : c.persistence.startupRetry.multiplier.isFinite = true := by decide +kernel
  have hzero : (Duration.ofMillis 500).inSeconds = .ofSeconds 0 := by decide
  have hread := ofJson?_toJson ⟨isWritable_affinity_of_validate hvalid, hmultiplier⟩
  rw [inSeconds_withPersistInterval, hzero] at hread
  exact ⟨hvalid, hmultiplier, withPersistInterval (.ofSeconds 0), hread, by decide +kernel⟩

/-- What is written for settings that were read is read as the same settings and written again the
same way. -/
theorem ofJson?_toJson_of_read {v : Json} (hv : v.isProper = true) {c : Config}
    (h : ofJson? v = some c) :
    ofJson? c.toJson = some c ∧ (ofJson? c.toJson).map toJson = some c.toJson := by
  obtain ⟨hwritable, hseconds⟩ := of_ofJson? hv h
  have hread := ofJson?_toJson hwritable
  rw [hseconds] at hread
  rw [hread]
  exact ⟨rfl, rfl⟩

/-- Settings with a field that no one knows, a provider and a part given as arrays, a role given as
an object, a null and whole numbers for doubles. -/
theorem ofJson?_toJson_of_mixed_forms :
    let v : Json := .object [
      ("comment", .array [.float 0.5]),
      ("providers", .array [
        .object [("host", .string "a"), ("port", .int 119), ("username", .null),
          ("type", .object [("BackupOnly", .null)])],
        .array [.string "b", .int 563, .bool true]]),
      ("affinity", .array [.bool true, .int 1, .int 10, .int 1, .int 7]),
      ("api", .object [("bind_address", .string "[::1]:6790")])]
    v.isProper = true ∧ ∃ c, ofJson? v = some c ∧ c.roles = [.backupOnly, .pooled] ∧
      c.affinity.persistInterval = .ofSeconds 7 ∧ ofJson? c.toJson = some c ∧
      (ofJson? c.toJson).map toJson = some c.toJson := by
  intro v
  have hproper : v.isProper = true := by decide +kernel
  have hread : (ofJson? v).map (fun c => (c.roles, c.affinity.persistInterval)) =
      some ([.backupOnly, .pooled], .ofSeconds 7) := by decide +kernel
  obtain ⟨c, hc, heq⟩ := Option.map_eq_some_iff.1 hread
  obtain ⟨hroles, hinterval⟩ := Prod.mk.inj heq
  exact ⟨hproper, c, hc, hroles, hinterval, ofJson?_toJson_of_read hproper hc⟩

end Config

end ProviderScout
