/-
How far the clock arithmetic of the dispatcher goes on the settings of an
accepted configuration. `validate` looks for zeros only; beyond
`WithinLimits` the reclaim cutoff or a retry time leaves the years whose
text sorts and parses back, is silently computed from a fallback, or
panics (`arithmetic_in_range_iff`).

The retry delays grow with the attempts, so the largest one that is ever
computed is that before the last attempt.
-/
import OxidRelay.Startup
import OxidRelay.TimeFacts

namespace OxidRelay

/-! ## What is asked of the arithmetic -/

namespace DateTime

/-- The text of the instant parses back and sorts with the others as the
instant does. -/
structure Storable (t : DateTime) : Prop where
  year : t.YearInRange
  parse : parseFromRfc3339 t.toRfc3339 = some t
  sort : ∀ u : DateTime, u.YearInRange →
    (t.toRfc3339 ≤ u.toRfc3339 ↔ t ≤ u) ∧ (u.toRfc3339 ≤ t.toRfc3339 ↔ u ≤ t)

theorem YearInRange.storable {t : DateTime} (h : t.YearInRange) : t.Storable :=
  ⟨h, parseFromRfc3339_toRfc3339 h, fun _ hu => ⟨toRfc3339_le_iff h hu, toRfc3339_le_iff hu h⟩⟩

end DateTime

open DateTime

/-- The semaphore is built, the cutoff is the clock less the configured
lease, and the retry times are the clock plus the configured delays, none
of which panics or leaves the years that are stored faithfully. -/
structure Dispatcher.ArithmeticInRange {τ : Type} (d : Dispatcher τ) (settings : DispatcherSettings) : Prop where
  semaphore : d.config.concurrency ≤ maxPermits
  cutoff : ∀ now : DateTime, now.Contemporary → ∃ c, d.cutoff now = some c ∧
    now.checkedSub (chronoSeconds settings.sendingLeaseSecs.toNat) = some c ∧ c.Storable
  retryAt : ∀ (mail : Mail) (err : CoreError) (now : DateTime), mail.attempts < settings.maxAttempts →
    now.Contemporary → ∃ mark, d.onError mail err now = some mark ∧ ∀ message t,
      mark = .failed message t →
        now.checkedAdd (d.config.retry.backoff (mail.attempts + 1)).toNanos = some t ∧ t.Storable

/-- The settings on which the dispatcher's arithmetic stays in range. -/
structure WithinLimits (settings : DispatcherSettings) : Prop where
  /-- The permits of the semaphore. -/
  permits : settings.concurrency.toNat ≤ maxPermits
  /-- The seconds from the year 0 to 1970. -/
  lease : settings.sendingLeaseSecs.toNat ≤ 62167219200
  /-- The seconds from the end of 2100 to that of 9999. -/
  retry : settings.maxAttempts = 1 ∨ settings.retryMaxSecs.toNat ≤ 249268320000 ∨
    settings.retryBaseSecs.toNat * 2 ^ min (settings.maxAttempts.toNat - 2) 31 ≤ 249268320000

/-! ## The delays -/

/-- The seconds before the next attempt, after `n` attempts. -/
def DispatcherSettings.delaySecs (settings : DispatcherSettings) (n : Nat) : Nat :=
  min (saturatingMul settings.retryBaseSecs.toNat (2 ^ min (n - 1) 31)) settings.retryMaxSecs.toNat

theorem DispatcherSettings.delaySecs_mono (settings : DispatcherSettings) {n m : Nat} (h : n ≤ m) :
    settings.delaySecs n ≤ settings.delaySecs m := by
  have hpow : 2 ^ min (n - 1) 31 ≤ 2 ^ min (m - 1) 31 := Nat.pow_le_pow_right (by decide) (by omega)
  have hmul := saturatingMul_mono (a := settings.retryBaseSecs.toNat) hpow
  simp only [delaySecs]
  omega

/-- No delay below the limit has saturated. -/
theorem DispatcherSettings.delaySecs_le_iff (settings : DispatcherSettings) (n : Nat) :
    settings.delaySecs n ≤ 249268320000 ↔ settings.retryMaxSecs.toNat ≤ 249268320000 ∨
      settings.retryBaseSecs.toNat * 2 ^ min (n - 1) 31 ≤ 249268320000 := by
  simp only [delaySecs, saturatingMul, u64Max]
  omega

theorem dispatcherConfig_backoff (config : Config) (n : UInt32) :
    (((dispatcherConfig config).retry.backoff n).toNanos : Int) =
      chronoSeconds (config.dispatcher.delaySecs n.toNat) := by
  rw [RetryPolicy.backoff_toNanos, DispatcherSettings.delaySecs, chronoSeconds]
  simp only [dispatcherConfig, Duration.toNanos_fromSecs]
  simp only [Duration.fromSecs]
  omega

/-- A delay below the limit is the chrono duration of its seconds. -/
theorem dispatcherConfig_backoff_toChrono {config : Config} {n : UInt32}
    (h : config.dispatcher.delaySecs n.toNat ≤ 249268320000) :
    ((dispatcherConfig config).retry.backoff n).toChrono =
      some (chronoSeconds (config.dispatcher.delaySecs n.toNat)) := by
  have hnanos := dispatcherConfig_backoff config n
  have hchrono : chronoSeconds (config.dispatcher.delaySecs n.toNat) =
      (config.dispatcher.delaySecs n.toNat : Int) * 1000000000 := rfl
  rw [Duration.toChrono, if_pos (by omega), hnanos]

/-! ## Cutoff and retry time -/

/-- A clock value of the time in question less a lease within the limit. -/
theorem checkedSub_storable {now : DateTime} (hnow : now.Contemporary) {lease : Nat} (hl : lease ≤ 62167219200) :
    ∃ c, now.checkedSub (chronoSeconds lease) = some c ∧ c.Storable := by
  obtain ⟨hfrom, hto⟩ := contemporary_iff.1 hnow
  have hsub := checkedSub_seconds (d := now) (k := lease) (by omega)
  obtain ⟨c, hc⟩ := hsub.1 (by simp only [minSecs]; omega)
  have hle := checkedSub_le (d := now) (by simp only [chronoSeconds]; omega) hc
  have hsecs := (hsub.2 c hc).1
  refine ⟨c, hc, (yearInRange_iff.2 ⟨by omega, ?_⟩).storable⟩
  rcases le_iff.1 hle with h | ⟨h, -⟩ <;> omega

/-- A clock value of the time in question and a delay within the limit. -/
theorem checkedAdd_storable {now : DateTime} (hnow : now.Contemporary) {delay : Nat}
    (hd : delay ≤ 249268320000) : ∃ t, now.checkedAdd (chronoSeconds delay) = some t ∧ t.Storable := by
  obtain ⟨hfrom, hto⟩ := contemporary_iff.1 hnow
  have hadd := checkedAdd_seconds (d := now) (k := delay) (by omega)
  obtain ⟨t, ht⟩ := hadd.1 (by simp only [maxSecs]; omega)
  have hsecs := hadd.2 t ht
  exact ⟨t, ht, (yearInRange_iff.2 ⟨by omega, by omega⟩).storable⟩

/-- 1970-01-01T00:00:00Z and 2100-12-31T23:59:59Z, the ends of the time in question. -/
def clockStart : DateTime := default
def clockEnd : DateTime := ⟨4133980799, 0, frac_zero_lt, by decide, by decide, by decide⟩

section
variable {τ : Type} {config : Config} {d : Dispatcher τ}

theorem WithinLimits.arithmeticInRange (h : WithinLimits config.dispatcher)
    (hd : d.config = dispatcherConfig config) : d.ArithmeticInRange config.dispatcher where
  semaphore := by rw [hd]; exact h.permits
  cutoff now hnow := by
    obtain ⟨c, hc, hstorable⟩ := checkedSub_storable hnow h.lease
    have hlease : (dispatcherConfig config).sendingLease.toChrono =
        some (chronoSeconds config.dispatcher.sendingLeaseSecs.toNat) := by
      have := h.lease
      simp only [dispatcherConfig, Duration.toChrono, Duration.toNanos_fromSecs]
      rw [if_pos (by omega)]
      rfl
    refine ⟨c, ?_, hc, hstorable⟩
    rw [Dispatcher.cutoff, hd, hlease]
    exact hc
  retryAt mail err now hattempts hnow := by
    simp only [Dispatcher.onError, hd]
    split
    · exact ⟨_, rfl, fun _ _ h => by cases h⟩
    rename_i hleft
    -- the delay is at most the one before the last attempt
    have hadd := RetryPolicy.toNat_succ_of_lt hattempts
    have hnext : mail.attempts.toNat + 1 < config.dispatcher.maxAttempts.toNat :=
      not_le.1 (mt (RetryPolicy.isExhausted_succ_iff (p := (dispatcherConfig config).retry) hattempts).2 hleft)
    have hlast : config.dispatcher.delaySecs (config.dispatcher.maxAttempts.toNat - 1) ≤ 249268320000 := by
      rw [DispatcherSettings.delaySecs_le_iff]
      rcases h.retry with hone | hmax
      · rw [hone] at hnext
        simp at hnext
      · exact hmax
    have hdelay : config.dispatcher.delaySecs (mail.attempts + 1).toNat ≤ 249268320000 :=
      (DispatcherSettings.delaySecs_mono _ (by omega)).trans hlast
    obtain ⟨t, ht, hstorable⟩ := checkedAdd_storable hnow hdelay
    refine ⟨.failed err.toString t, ?_, fun _ _ h => ?_⟩
    · rw [dispatcherConfig_backoff_toChrono hdelay, Option.getD_some, ht]
      rfl
    · cases h
      rw [dispatcherConfig_backoff]
      exact ⟨ht, hstorable⟩

theorem Dispatcher.ArithmeticInRange.lease_le (h : d.ArithmeticInRange config.dispatcher) :
    config.dispatcher.sendingLeaseSecs.toNat ≤ 62167219200 := by
  obtain ⟨c, -, hc, hstorable⟩ := h.cutoff clockStart (contemporary_iff.2 (by decide))
  have hsecs := ((checkedSub_seconds (by omega)).2 c hc).2 (by decide)
  have := (yearInRange_iff.1 hstorable.year).1
  have hstart : clockStart.secs = 0 := rfl
  omega

theorem Dispatcher.ArithmeticInRange.retry_le (hv : config.validate = .ok ())
    (hd : d.config = dispatcherConfig config) (h : d.ArithmeticInRange config.dispatcher) :
    config.dispatcher.maxAttempts = 1 ∨ config.dispatcher.retryMaxSecs.toNat ≤ 249268320000 ∨
      config.dispatcher.retryBaseSecs.toNat * 2 ^ min (config.dispatcher.maxAttempts.toNat - 2) 31 ≤
        249268320000 := by
  have hpos := (Config.validate_ok hv).2
  by_cases hone : config.dispatcher.maxAttempts = 1
  · exact .inl hone
  right
  have hzero : config.dispatcher.maxAttempts.toNat ≠ 0 := fun h => hpos (UInt32.toNat_inj.1 h)
  have hone' : config.dispatcher.maxAttempts.toNat ≠ 1 := fun h => hone (UInt32.toNat_inj.1 h)
  have htwo : 2 ≤ config.dispatcher.maxAttempts.toNat := by omega
  -- the failure after which the last attempt is scheduled
  obtain ⟨attempts, hattempts⟩ : ∃ n : UInt32, n.toNat = config.dispatcher.maxAttempts.toNat - 2 :=
    ⟨config.dispatcher.maxAttempts - 2, UInt32.toNat_sub_of_le _ _ (UInt32.le_iff_toNat_le.2 htwo)⟩
  have hlt : attempts < config.dispatcher.maxAttempts := by
    rw [UInt32.lt_iff_toNat_lt]
    omega
  have hadd := RetryPolicy.toNat_succ_of_lt hlt
  have hleft : ¬ (dispatcherConfig config).retry.isExhausted (attempts + 1) = true := by
    rw [RetryPolicy.isExhausted_succ_iff (p := (dispatcherConfig config).retry) hlt]
    change ¬ config.dispatcher.maxAttempts.toNat ≤ _
    omega
  obtain ⟨mark, hmark, hstored⟩ := h.retryAt { (default : Mail) with attempts } (.queue "") clockEnd hlt
    (contemporary_iff.2 (by decide))
  simp only [Dispatcher.onError, hd, if_neg hleft] at hmark
  obtain ⟨t, -, rfl⟩ := Option.map_eq_some_iff.1 hmark
  obtain ⟨ht, hstorable⟩ := hstored _ _ rfl
  rw [hd, dispatcherConfig_backoff] at ht
  have hsecs := (checkedAdd_seconds (by omega)).2 t ht
  have := (yearInRange_iff.1 hstorable.year).2
  simp only [clockEnd, hadd, hattempts] at hsecs
  have hlast : config.dispatcher.maxAttempts.toNat - 2 + 1 = config.dispatcher.maxAttempts.toNat - 1 := by omega
  have hdelay : config.dispatcher.delaySecs (config.dispatcher.maxAttempts.toNat - 1) ≤ 249268320000 := by
    rw [hlast] at hsecs
    omega
  exact (config.dispatcher.delaySecs_le_iff _).1 hdelay

/-- **The arithmetic of an accepted configuration is in range exactly
within the limits.** The last attempt schedules no other, so it computes
no retry time. -/
theorem arithmetic_in_range_iff (hv : config.validate = .ok ()) (hd : d.config = dispatcherConfig config) :
    d.ArithmeticInRange config.dispatcher ↔ WithinLimits config.dispatcher := by
  refine ⟨fun h => ⟨?_, h.lease_le, h.retry_le hv hd⟩, fun h => h.arithmeticInRange hd⟩
  have := h.semaphore
  rw [hd] at this
  exact this

theorem arithmetic_in_range_example :
    (default : Config).validate = .ok () ∧
      (⟨[("smtp", ())], some "smtp", dispatcherConfig default⟩ : Dispatcher Unit).ArithmeticInRange
        (default : Config).dispatcher :=
  have hv : (default : Config).validate = .ok () := by decide
  ⟨hv, (arithmetic_in_range_iff hv rfl).2 ⟨by decide, by decide, .inr (.inl (by decide))⟩⟩

/-- A lease of ten million million seconds. -/
def longLease : Config :=
  { (default : Config) with dispatcher := { (default : Config).dispatcher with sendingLeaseSecs := 10000000000000 } }

/-- Its cutoff lies before the first instant there is, so every tick panics. -/
theorem long_lease_panics :
    longLease.validate = .ok () ∧
    (⟨[("smtp", ())], some "smtp", dispatcherConfig longLease⟩ : Dispatcher Unit).cutoff clockStart = none ∧
    ¬ (⟨[("smtp", ())], some "smtp", dispatcherConfig longLease⟩ : Dispatcher Unit).ArithmeticInRange
      longLease.dispatcher := by
  have hnone : (⟨[("smtp", ())], some "smtp", dispatcherConfig longLease⟩ : Dispatcher Unit).cutoff clockStart =
      none := by decide
  refine ⟨by decide, hnone, fun h => ?_⟩
  obtain ⟨c, hc, -⟩ := h.cutoff clockStart (contemporary_iff.2 (by decide))
  rw [hnone] at hc
  cases hc

end

end OxidRelay
