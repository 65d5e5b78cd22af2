/-
No retry comes early. A failure writes its retry time into the row, every
other statement keeps it there (`Track.Waiting`), and a fetch takes the
row only in a tick that started at or after it, so the send that follows
starts no earlier either, when the clock never goes back. Only the starts
of ticks and sends have to be in order: the clock value of a status write
is read before its statement runs, and another may be read in between.

`Life` does not say which tick a fetch belongs to. `TimedLife` adds that:
the tick is in the log.
-/
import OxidRelay.Stranded

namespace OxidRelay

open DateTime SqliteQueue

variable {τ : Type} {C : Codec} {d : Dispatcher τ} {s s' : State τ} {now : DateTime} {u : MailId} {t t' : Track τ}

/-! ## The tick of a fetch -/

/-- The clock value of the tick that has not fetched yet. -/
def Control.tick? : Control → Option DateTime
  | .reclaiming tick _ | .fetching tick => some tick
  | _ => none

/-- It is in the log. -/
def TickLogged (s : State τ) : Prop := ∀ tick, s.control.tick? = some tick → ⟨tick, .tickStarted⟩ ∈ s.log

/-- A mail that is fetched is due in a tick of the log. -/
def FetchedIn (C : Codec) (s : State τ) (m : Mail) : Prop :=
  ∃ tick r, ⟨tick, .tickStarted⟩ ∈ s.log ∧ s.table.find (C.uuidText m.id) = some r ∧ isDue tick r = true

/-- What no step inside a batch does. -/
def Event.outsideBatch : Event τ → Bool
  | .requeued _ | .tickStarted | .fetched _ => true
  | _ => false

/-- What a step adds to the log. -/
theorem Step.events (h : Exclusive C d s) (ht : TickLogged s) (hs : Step C d s now s') :
    ∃ events : List (Event τ), s'.log = events.map (fun e => ⟨now, e⟩) ++ s.log ∧
      (∀ m, .fetched m ∈ events → FetchedIn C s m) ∧
      (s.control.inBatch = true → ∀ e ∈ events, e.outsideBatch = false) := by
  cases hs with
  | start => exact ⟨[.started], rfl, by simp, by simp [Event.outsideBatch]⟩
  | crash | tickPanics | fetchPanics => exact ⟨[.crashed], rfl, by simp, by simp [Event.outsideBatch]⟩
  | exit => exact ⟨[.exited], rfl, by simp, by simp [Event.outsideBatch]⟩
  | enqueue => exact ⟨[.enqueued _], rfl, by simp, by simp [Event.outsideBatch]⟩
  | recover hc | reclaim hc =>
    refine ⟨State.requeuedEvents s.table _, rfl, by simp [State.requeuedEvents], fun hb => ?_⟩
    rw [hc] at hb
    cases hb
  | tick hc =>
    refine ⟨[.tickStarted], rfl, by simp, fun hb => ?_⟩
    rw [hc] at hb
    cases hb
  | fetchFails | fetchNone => exact ⟨[.tickEnded 0], rfl, by simp, by simp [Event.outsideBatch]⟩
  | fetch hc hscan hf =>
    refine ⟨_, rfl, fun m hm => ?_, fun hb => ?_⟩
    · obtain ⟨m', hm', heq⟩ := List.mem_map.1 hm
      cases heq
      obtain ⟨r, hr, hdue, -⟩ := (fetchDue_ok h.canonical hscan hf).1 m hm'
      exact ⟨_, r, ht _ (by rw [hc]; rfl), hr, hdue⟩
    · rw [hc] at hb
      cases hb
  | claim => exact ⟨[.claimed _], rfl, by simp, by simp [Event.outsideBatch]⟩
  | claimFails => exact ⟨[.claimFailed _], rfl, by simp, by simp [Event.outsideBatch]⟩
  | tickEnds => exact ⟨[.tickEnded _], rfl, by simp, by simp [Event.outsideBatch]⟩
  | sendStarts => exact ⟨[.sendStarted _ _], rfl, by simp, by simp [Event.outsideBatch]⟩
  | sendOk => exact ⟨[.sendEnded _ true], rfl, by simp, by simp [Event.outsideBatch]⟩
  | sendErr => exact ⟨[.sendEnded _ false], rfl, by simp, by simp [Event.outsideBatch]⟩
  | sendErrPanics => exact ⟨[.panicked _, .sendEnded _ false], rfl, by simp, by simp [Event.outsideBatch]⟩
  | mark => exact ⟨[.marked _ _], rfl, by simp, by simp [Event.outsideBatch]⟩
  | markFails => exact ⟨[.markFailed _], rfl, by simp, by simp [Event.outsideBatch]⟩
  | panic => exact ⟨[.panicked _], rfl, by simp, by simp [Event.outsideBatch]⟩
  | _ => exact ⟨[], rfl, by simp, by simp⟩

/-- The tick in progress is one that starts, or the one there was. -/
theorem Step.tick?_cases (hs : Step C d s now s') : s'.control.tick? = none ∨ s'.control.tick? = s.control.tick? ∨
    s'.control.tick? = some now ∧ ⟨now, .tickStarted⟩ ∈ s'.log := by
  cases hs with
  | tick => exact .inr (.inr ⟨rfl, List.mem_cons_self⟩)
  | reclaim hc | reclaimFails hc => exact .inr (.inl (by rw [hc]; rfl))
  | enqueue | elapse | joinOne | sendStarts | noTransport | sendOk | sendErr | sendErrPanics | mark | markFails
  | finish | panic => exact .inr (.inl rfl)
  | _ => exact .inl rfl

theorem Step.tickLogged (h : Exclusive C d s) (ht : TickLogged s) (hs : Step C d s now s') : TickLogged s' := by
  obtain ⟨events, hlog, -, -⟩ := hs.events h ht
  intro tick htick
  rcases hs.tick?_cases with hnone | hsame | ⟨hnow, hmem⟩
  · rw [hnone] at htick; cases htick
  · rw [hlog]
    exact List.mem_append_right _ (ht tick (hsame ▸ htick))
  · rw [hnow] at htick
    cases htick
    exact hmem

/-- A step in the life of a mail whose fetches are in a tick of the log. -/
structure TimedLife (C : Codec) (d : Dispatcher τ) (u : MailId) (t : Track τ) (now : DateTime) (t' : Track τ) :
    Prop where
  life : Life C d u t now t'
  fetched : ∀ m, t'.log = ⟨now, .fetched m⟩ :: t.log →
    ∃ tick r, ⟨tick, .tickStarted⟩ ∈ t.log ∧ t.row = some r ∧ isDue tick r = true

theorem Step.timedLife (h : Exclusive C d s) (ht : TickLogged s) (hs : Step C d s now s') (u : MailId) :
    TimedLife C d u (s.track C u) now (s'.track C u) := by
  refine ⟨hs.life h u, fun m hlog => ?_⟩
  obtain ⟨events, hevents, hfetched, -⟩ := hs.events h ht
  simp only [State.track, hevents, filter_emit] at hlog
  rw [← List.singleton_append, List.append_left_inj] at hlog
  have hm : .fetched m ∈ events.filter fun e => e.about C u := by
    obtain ⟨e, he, heq⟩ := List.mem_map.1 (hlog ▸ List.mem_singleton_self (⟨now, .fetched m⟩ : Entry τ))
    cases heq
    exact he
  obtain ⟨hmem, habout⟩ := List.mem_filter.1 hm
  have hid : m.id = u := by simpa [Event.about] using habout
  obtain ⟨tick, r, htick, hr, hdue⟩ := hfetched m hmem
  exact ⟨tick, r, List.mem_filter.2 ⟨htick, rfl⟩, by rw [← hid]; exact hr, hdue⟩

/-- **What every timed step of a life keeps holds of the mail in every
state reached from an empty queue.** -/
theorem ReachableFromEmpty.timed_invariant {I : Track τ → Prop} (h : ReachableFromEmpty C d s)
    (hinit : I (.initial none)) (step : ∀ {t now t'}, I t → TimedLife C d u t now t' → I t') :
    I (s.track C u) := by
  have hrun : Run (fun t t' => ∃ now, TimedLife C d u t now t') ((State.initial Table.empty : State τ).track C u)
      (s.track C u) :=
    Run.project (f := fun s : State τ => s.track C u) (I := fun s => Exclusive C d s ∧ TickLogged s)
      (fun ha ⟨_, hab⟩ => ⟨hab.exclusive ha.1, hab.tickLogged ha.1 ha.2⟩)
      (fun ha ⟨now, hab⟩ => ⟨now, hab.timedLife ha.1 ha.2 u⟩)
      ⟨.initial fun _ hr => absurd hr Table.not_mem_empty, fun tick h => by cases h⟩ h
  exact Run.invariant (fun ha ⟨_, hab⟩ => step ha hab) hinit hrun

/-! ## Logs entry by entry -/

/-- Every entry of a log stands in a relation to those before it. -/
def Each (P : Entry τ → List (Entry τ) → Prop) : List (Entry τ) → Prop
  | [] => True
  | e :: log => P e log ∧ Each P log

theorem Each.at {P : Entry τ → List (Entry τ) → Prop} {later earlier : List (Entry τ)} {e : Entry τ}
    (h : Each P (later ++ e :: earlier)) : P e earlier := by
  induction later with
  | nil => exact h.1
  | cons _ _ ih => exact ih h.2

/-- An entry of a kind, and the entries of that kind on both sides of it. -/
theorem filter_around (p : Event τ → Bool) {e : Entry τ} (he : p e.event = true) (newer older : List (Entry τ)) :
    (newer ++ e :: older).filter (fun e => p e.event) =
      newer.filter (fun e => p e.event) ++ e :: older.filter fun e => p e.event := by
  simp only [List.filter_append, List.filter_cons, he, if_true]

/-- The start of a tick or of a send, logged when its clock value is read. -/
def Event.isStart : Event τ → Bool
  | .tickStarted | .sendStarted _ _ => true
  | _ => false

/-- The clock does not go back between the starts of ticks and sends. -/
def Forwards (log : List (Entry τ)) : Prop :=
  (log.filter fun e => e.event.isStart).Pairwise fun later earlier => earlier.time ≤ later.time

instance (log : List (Entry τ)) : Decidable (Forwards log) := inferInstanceAs (Decidable (List.Pairwise _ _))

/-- The clock values read, and the instants written, have years 0 to 9999. -/
def InRange (log : List (Entry τ)) : Prop := ∀ e ∈ log, e.time.YearInRange ∧ ∀ at_ ∈ e.written, at_.YearInRange

instance (log : List (Entry τ)) : Decidable (InRange log) := inferInstanceAs (Decidable (∀ e ∈ log, _ ∧ _))

/-- A start is no earlier than the ticks before it. -/
theorem Forwards.tick_le {log : List (Entry τ)} {e : Event τ} (h : Forwards (⟨now, e⟩ :: log))
    (he : e.isStart = true) {tick : DateTime} (htick : ⟨tick, .tickStarted⟩ ∈ log) : tick ≤ now := by
  have hfilter : (⟨now, e⟩ :: log).filter (fun e => e.event.isStart) =
      ⟨now, e⟩ :: log.filter fun e => e.event.isStart := List.filter_cons_of_pos he
  rw [Forwards, hfilter] at h
  exact (List.pairwise_cons.1 h).1 _ (List.mem_filter.2 ⟨htick, rfl⟩)

/-- The `n`-th failure of a mail was scheduled by the policy, from the
clock value at the end of its send; a send starts at or after every retry
time recorded before it. -/
structure Entry.OnTime (d : Dispatcher τ) (u : MailId) (e : Entry τ) (earlier : List (Entry τ)) : Prop where
  scheduled : ∀ err retryAt, e.event = .marked u (.failed err retryAt) → ∃ (n : UInt32) (at_ : DateTime),
    n.toNat = count (Event.isFailureOf u) earlier + 1 ∧ ⟨at_, .sendEnded u false⟩ ∈ earlier ∧
      at_.checkedAdd ((d.config.retry.backoff n).toChrono.getD (chronoSeconds 60)) = some retryAt
  send : e.event.isSendOf u = true → ∀ x ∈ earlier, ∀ err retryAt, x.event = .marked u (.failed err retryAt) →
    retryAt ≤ e.time

/-- An entry that is neither a failure nor a send. -/
theorem Entry.OnTime.other {e : Event τ} {earlier : List (Entry τ)} (hs : e.isSendOf u = false)
    (hf : ∀ err retryAt, e ≠ .marked u (.failed err retryAt)) : Entry.OnTime d u ⟨now, e⟩ earlier :=
  ⟨fun err retryAt he => absurd he (hf err retryAt), fun he => by rw [hs] at he; cases he⟩

/-! ## Waiting for a retry -/

/-- The dispatcher is done with the mail, unless it fetches it again. -/
def Track.Idle (t : Track τ) : Prop := ∀ x, t.slot = some x → x.phase.isFetched = false ∧ x.phase.inFlight = false

/-- A tick has started at or after an instant. -/
def Track.Reached (t : Track τ) (at_ : DateTime) : Prop := ∃ tick, ⟨tick, .tickStarted⟩ ∈ t.log ∧ at_ ≤ tick

theorem Track.Reached.mono {at_ : DateTime} (h : t.Reached at_) (hlog : t.log ⊆ t'.log) : t'.Reached at_ := by
  obtain ⟨tick, htick, hle⟩ := h
  exact ⟨tick, hlog htick, hle⟩

/-- A retry time recorded has been reached, or else it stands in the row
and nothing is under way. -/
def Track.Waiting (u : MailId) (t : Track τ) : Prop :=
  ∀ x ∈ t.log, ∀ err retryAt, x.event = .marked u (.failed err retryAt) →
    t.Reached retryAt ∨
      t.Idle ∧ ∃ r, t.row = some r ∧ r.nextAttemptAt = retryAt.toRfc3339

theorem Track.Idle.none (h : t.slot = none) : t.Idle := by
  intro x hx
  rw [h] at hx
  cases hx

/-- A mail in flight has reached every retry time. -/
theorem Track.Waiting.reached (h : t.Waiting u) (hi : ¬ t.Idle) {x : Entry τ} (hx : x ∈ t.log) {err : String}
    {retryAt : DateTime} (he : x.event = .marked u (.failed err retryAt)) : t.Reached retryAt := by
  rcases h x hx err retryAt he with hy | ⟨hidle, -⟩
  · exact hy
  · exact absurd hidle hi

/-- A step that records no retry time and, when it meets an idle mail,
leaves it idle with its `next_attempt_at`. -/
theorem Track.Waiting.keep (h : t.Waiting u) (hlog : t.log ⊆ t'.log)
    (hnew : ∀ x ∈ t'.log, ∀ err retryAt, x.event = .marked u (.failed err retryAt) → x ∈ t.log)
    (hidle : t.Idle → ∀ r, t.row = some r →
      t'.Idle ∧ ∃ r', t'.row = some r' ∧ r'.nextAttemptAt = r.nextAttemptAt) : t'.Waiting u := by
  intro x hx err retryAt he
  rcases h x (hnew x hx err retryAt he) err retryAt he with hreached | ⟨hi, r, hr, hnext⟩
  · exact .inl (hreached.mono hlog)
  · obtain ⟨hi', r', hr', hnext'⟩ := hidle hi r hr
    exact .inr ⟨hi', r', hr', hnext'.trans hnext⟩

/-- What the marking of a failure was scheduled from. -/
def Track.Scheduled (d : Dispatcher τ) (u : MailId) (t : Track τ) : Prop :=
  ∀ m err retryAt, t.slot = some ⟨m, .running (.marking (.failed err retryAt))⟩ →
    d.config.retry.isExhausted (m.attempts + 1) = false ∧
    ∃ at_, ⟨at_, .sendEnded u false⟩ ∈ t.log ∧
      at_.checkedAdd ((d.config.retry.backoff (m.attempts + 1)).toChrono.getD (chronoSeconds 60)) = some retryAt

theorem onError_failed {m : Mail} {err : CoreError} {message : String} {retryAt : DateTime}
    (h : d.onError m err now = some (.failed message retryAt)) :
    d.config.retry.isExhausted (m.attempts + 1) = false ∧
      now.checkedAdd ((d.config.retry.backoff (m.attempts + 1)).toChrono.getD (chronoSeconds 60)) =
        some retryAt := by
  simp only [Dispatcher.onError] at h
  split at h
  · cases h
  · next hleft =>
    obtain ⟨at_, hat, heq⟩ := Option.map_eq_some_iff.1 h
    cases heq
    exact ⟨by simpa using hleft, hat⟩

theorem Life.scheduled (hs : t.Scheduled d u) (h : Life C d u t now t') : t'.Scheduled d u := by
  cases h with
  | stay => exact hs
  | tickStarted hslot =>
    intro m err retryAt hm
    rw [hslot] at hm
    cases hm
  | requeued _ _ hslot =>
    intro m err retryAt hm
    rw [hslot] at hm
    cases hm
  | enqueued =>
    intro m err retryAt hm
    obtain ⟨hleft, at_, hat, heq⟩ := hs m err retryAt hm
    exact ⟨hleft, at_, List.mem_cons_of_mem _ hat, heq⟩
  | sendErr hslot hmk =>
    intro m err retryAt hm
    cases hm
    obtain ⟨hleft, hat⟩ := onError_failed hmk
    exact ⟨hleft, now, List.mem_cons_self, hat⟩
  | _ => rintro m err retryAt ⟨⟩

/-- A fetch is in a tick that started at or after the retry time. -/
theorem fetched_reached (hr : InRange t.log) {tick : DateTime} {r : Row} (htick : ⟨tick, .tickStarted⟩ ∈ t.log)
    (hdue : isDue tick r = true) {x : Entry τ} (hx : x ∈ t.log) {err : String} {retryAt : DateTime}
    (he : x.event = .marked u (.failed err retryAt)) (hnext : r.nextAttemptAt = retryAt.toRfc3339) :
    t.Reached retryAt := by
  refine ⟨tick, htick, ?_⟩
  simp only [isDue, decide_eq_true_eq] at hdue
  have hretry : retryAt.YearInRange := (hr x hx).2 retryAt (by simp [Entry.written, he])
  have htickRange : tick.YearInRange := (hr _ htick).1
  rw [hnext, toRfc3339_le_iff hretry htickRange] at hdue
  exact hdue.2

theorem failure_of_cons {e : Event τ} {log : List (Entry τ)}
    (hf : ∀ err retryAt, e ≠ .marked u (.failed err retryAt)) :
    ∀ x ∈ (⟨now, e⟩ : Entry τ) :: log, ∀ err retryAt, x.event = .marked u (.failed err retryAt) → x ∈ log := by
  intro x hx err retryAt he
  rcases List.mem_cons.1 hx with rfl | hx
  · exact absurd he (hf err retryAt)
  · exact hx

/-- A held mail is not idle until its status write is over. -/
theorem Track.not_idle {m : Mail} {phase : Phase τ} (hs : t.slot = some ⟨m, phase⟩)
    (hb : (phase.isFetched || phase.inFlight) = true) : ¬ t.Idle := by
  intro hi
  obtain ⟨hf, hfl⟩ := hi _ hs
  simp [hf, hfl] at hb

theorem TimedLife.waiting (hw : t.Waiting u) (hr : InRange t.log) (h : TimedLife C d u t now t') :
    t'.Waiting u := by
  obtain ⟨hlife, hfetched⟩ := h
  cases hlife with
  | stay => exact hw
  | crashed =>
    exact hw.keep (List.subset_cons_self _ _) (failure_of_cons (by simp)) fun _ r hrow => ⟨.none rfl, r, hrow, rfl⟩
  | tickStarted hs =>
    exact hw.keep (List.subset_cons_self _ _) (failure_of_cons (by simp)) fun _ r hrow => ⟨.none hs, r, hrow, rfl⟩
  | enqueued hnone _ =>
    refine hw.keep (List.subset_cons_self _ _) (failure_of_cons (by simp)) fun _ r hrow => ?_
    rw [hnone] at hrow
    cases hrow
  | requeued hrow _ hs =>
    refine hw.keep (List.subset_cons_self _ _) (failure_of_cons (by simp)) fun _ r hr' => ?_
    rw [hrow] at hr'
    cases hr'
    exact ⟨.none hs, _, rfl, rfl⟩
  | fetched hrow hs hdue hm hid hwork =>
    obtain ⟨tick, r, htick, hrow', hdue'⟩ := hfetched _ rfl
    intro x hx err retryAt he
    have hx : x ∈ t.log := failure_of_cons (by simp) x hx err retryAt he
    left
    rcases hw x hx err retryAt he with hreached | ⟨-, r', hr', hnext⟩
    · exact hreached.mono (List.subset_cons_self _ _)
    · rw [hrow'] at hr'
      cases hr'
      exact (fetched_reached hr htick hdue' hx he hnext).mono (List.subset_cons_self _ _)
  | claimed hs _ | claimFailed hs | sendStarted hs _ | sendOk hs | sendErr hs _ | markFailed hs =>
    exact hw.keep (List.subset_cons_self _ _) (failure_of_cons (by simp))
      fun hi => absurd hi (Track.not_idle hs rfl)
  | sendErrPanicked hs =>
    refine hw.keep (fun x hx => List.mem_cons_of_mem _ (List.mem_cons_of_mem _ hx)) (fun x hx err retryAt he => ?_)
      fun hi => absurd hi (Track.not_idle hs rfl)
    exact failure_of_cons (by simp) x (failure_of_cons (by simp) x hx err retryAt he) err retryAt he
  | spawned hs | noTransport hs _ =>
    exact hw.keep (List.Subset.refl _) (fun x hx _ _ _ => hx) fun hi => absurd hi (Track.not_idle hs rfl)
  | marked hs hrow =>
    intro x hx err retryAt he
    rcases List.mem_cons.1 hx with rfl | hx
    · cases he
      refine .inr ⟨?_, _, rfl, rfl⟩
      intro x hx
      cases hx
      exact ⟨rfl, rfl⟩
    · exact .inl ((hw.reached (Track.not_idle hs rfl) hx he).mono (List.subset_cons_self _ _))
  | finished hs =>
    refine hw.keep (List.Subset.refl _) (fun x hx _ _ _ => hx) fun _ r hrow => ⟨?_, r, hrow, rfl⟩
    intro x hx
    cases hx
    exact ⟨rfl, rfl⟩
  | panicked hs _ =>
    refine hw.keep (List.subset_cons_self _ _) (failure_of_cons (by simp)) fun _ r hrow => ⟨?_, r, hrow, rfl⟩
    intro x hx
    cases hx
    exact ⟨rfl, rfl⟩
  | joined =>
    exact hw.keep (List.Subset.refl _) (fun x hx _ _ _ => hx) fun _ r hrow => ⟨.none rfl, r, hrow, rfl⟩

/-! ## Every entry is on time -/

/-- The attempts in a delivery's hand are the failures recorded so far. -/
theorem failures_of_marking (hc : t.Coherent C u) (hl : 1 ≤ d.maxAttempts → t.Lifecycle d u) {m : Mail} {mk : Mark}
    (hs : t.slot = some ⟨m, .running (.marking mk)⟩) {r : Row} (hrow : t.row = some r)
    (hleft : d.config.retry.isExhausted (m.attempts + 1) = false) :
    (m.attempts + 1).toNat = count (Event.isFailureOf u) t.log + 1 := by
  have hmax : 1 ≤ d.maxAttempts := by
    have hnot : ¬ d.config.retry.maxAttempts ≤ m.attempts + 1 := by
      simpa [RetryPolicy.isExhausted] using hleft
    rw [UInt32.le_iff_toNat_le] at hnot
    change 1 ≤ d.config.retry.maxAttempts.toNat
    omega
  obtain ⟨-, r', hr', hco⟩ := hc _ hs
  rw [hrow] at hr'
  cases hr'
  obtain ⟨hsending, hsnap⟩ := hco.inFlight rfl
  have hlife := (hl hmax).row r hrow
  have hbelow := hlife.below (by simp [hsending])
  have hattempts := hsnap.attempts_toNat hlife.attempts hbelow
  rw [RetryPolicy.toNat_succ_of_lt (m := d.config.retry.maxAttempts) ?_, hattempts]
  · rfl
  · rw [UInt32.lt_iff_toNat_lt, hattempts]
    exact hbelow

theorem Life.onTime (hc : t.Coherent C u) (hl : 1 ≤ d.maxAttempts → t.Lifecycle d u) (hs : t.Scheduled d u)
    (hw : t.Waiting u) (he : Each (Entry.OnTime d u) t.log) (hf : Forwards t'.log) (h : Life C d u t now t') :
    Each (Entry.OnTime d u) t'.log := by
  cases h with
  | stay | spawned | noTransport | finished | joined => exact he
  | sendErrPanicked => exact ⟨.other rfl (by simp), .other rfl (by simp), he⟩
  | sendStarted hslot _ =>
    refine ⟨⟨fun _ _ h => (nomatch h), fun _ x hx err retryAt hev => ?_⟩, he⟩
    obtain ⟨tick, htick, hle⟩ := hw.reached (Track.not_idle hslot rfl) hx hev
    exact hle.trans (hf.tick_le rfl htick)
  | marked hslot hrow =>
    rename_i r m mk
    refine ⟨⟨fun err retryAt h => ?_, fun h => (nomatch h)⟩, he⟩
    cases h
    obtain ⟨hleft, at_, hat, heq⟩ := hs m err retryAt hslot
    exact ⟨m.attempts + 1, at_, failures_of_marking hc hl hslot hrow hleft, hat, heq⟩
  | _ => exact ⟨.other rfl (by simp), he⟩

/-! ## No premature retry -/

/-- What holds of a mail as long as the log is in order. -/
structure Track.Timely (C : Codec) (d : Dispatcher τ) (u : MailId) (t : Track τ) : Prop where
  coherent : t.Coherent C u
  lifecycle : 1 ≤ d.maxAttempts → t.Lifecycle d u
  scheduled : t.Scheduled d u
  waiting : t.Waiting u
  entries : Each (Entry.OnTime d u) t.log

/-- A log that is in order: fresh mails, a clock that does not go back, and
years 0 to 9999. -/
structure Orderly (log : List (Entry τ)) : Prop where
  fresh : AllFresh log
  forwards : Forwards log
  inRange : InRange log

theorem Orderly.sublist {l l' : List (Entry τ)} (h : Orderly l') (hs : l.Sublist l') : Orderly l :=
  ⟨fun e he => h.fresh e (hs.subset he), h.forwards.sublist (hs.filter _), fun e he => h.inRange e (hs.subset he)⟩

theorem TimedLife.timely (ht : Orderly t.log → t.Timely C d u) (h : TimedLife C d u t now t')
    (ho : Orderly t'.log) : t'.Timely C d u := by
  have ho' : Orderly t.log := ho.sublist h.life.log_suffix.sublist
  obtain ⟨hc, hl, hs, hw, he⟩ := ht ho'
  exact ⟨h.life.coherent hc, fun hmax => h.life.lifecycle hmax hc (hl hmax) ho.fresh, h.life.scheduled hs,
    h.waiting hw ho'.inRange, h.life.onTime hc hl hs hw he ho.forwards⟩

theorem Track.Timely.initial : (Track.initial none : Track τ).Timely C d u where
  coherent := .initial none
  lifecycle _ := ⟨fun _ => rfl, by simp [Track.initial], by simp [Track.initial]⟩
  scheduled := fun m err retryAt h => by cases h
  waiting := fun x hx => by cases hx
  entries := trivial

theorem ReachableFromEmpty.timely (h : ReachableFromEmpty C d s) (ho : Orderly s.log) (u : MailId) :
    (s.track C u).Timely C d u :=
  h.timed_invariant (I := fun t => Orderly t.log → t.Timely C d u) (fun _ => .initial)
    (fun ht hstep ho => hstep.timely ht ho) (ho.sublist List.filter_sublist)

/-- **No premature retry.** In every run of one dispatcher from an empty
queue that only fresh mails enter, on a clock that never goes back, with
timestamps of the years 0 to 9999 and delays that chrono can hold: the
`n`-th failure recorded of a mail set as its retry time the clock value at
the end of the failed send plus `backoff(n)`; every later send of the mail
starts at or after it; and the delays grow with `n`, up to `max_delay`. -/
theorem no_premature_retry (h : ReachableFromEmpty C d s) (hfresh : AllFresh s.log) (hclock : Forwards s.log)
    (hrange : InRange s.log) (hdelays : ∀ n, (d.config.retry.backoff n).toChrono.isSome = true)
    {later earlier : List (Entry τ)} {at_ retryAt : DateTime} {err : String}
    (hlog : s.log = later ++ ⟨at_, .marked u (.failed err retryAt)⟩ :: earlier) :
    ∃ (n : UInt32) (failed : DateTime), n.toNat = count (Event.isFailureOf u) earlier + 1 ∧
      ⟨failed, .sendEnded u false⟩ ∈ earlier ∧
      failed.checkedAdd (d.config.retry.backoff n).toNanos = some retryAt ∧
      (∀ e ∈ later, e.event.isSendOf u = true → retryAt ≤ e.time) ∧
      d.config.retry.backoff n ≤ d.config.retry.maxDelay ∧
      ∀ m ≤ n, d.config.retry.backoff m ≤ d.config.retry.backoff n := by
  have hentries := (h.timely ⟨hfresh, hclock, hrange⟩ u).entries
  simp only [State.track, hlog] at hentries
  -- the entries about the mail, on both sides of the failure
  have habout : (Event.marked u (.failed err retryAt) : Event τ).about C u = true := by simp [Event.about]
  rw [filter_around (Event.about C u) habout] at hentries
  obtain ⟨n, failed, hn, hfailed, hadd⟩ := hentries.at.scheduled err retryAt rfl
  refine ⟨n, failed, ?_, (List.mem_filter.1 hfailed).1, ?_, fun e he hsend => ?_, RetryPolicy.backoff_le _ _,
    fun m hm => RetryPolicy.backoff_mono _ hm⟩
  · rw [hn, count_about fun _ => Event.about_of_isFailureOf]
  · obtain ⟨delay, hdelay⟩ := Option.isSome_iff_exists.1 (hdelays n)
    rw [hdelay, Option.getD_some] at hadd
    simp only [Duration.toChrono] at hdelay
    split at hdelay
    · cases hdelay
      exact hadd
    · cases hdelay
  · obtain ⟨newer, older, rfl⟩ := List.append_of_mem he
    have hmem : e.event.about C u = true := Event.about_of_isSendOf hsend
    rw [filter_around (Event.about C u) hmem, List.append_assoc, List.cons_append] at hentries
    exact hentries.at.send hsend _ (List.mem_append_right _ List.mem_cons_self) err retryAt rfl

/-! ## A first failure -/

theorem exampleDispatcher_delays (n : UInt32) :
    (exampleDispatcher.config.retry.backoff n).toChrono.isSome = true := by
  have hle := RetryPolicy.backoff_le exampleDispatcher.config.retry n
  have hmax : exampleDispatcher.config.retry.maxDelay.toNanos = 3600000000000 := rfl
  rw [Duration.le_iff, hmax] at hle
  rw [Duration.toChrono, if_pos (by omega)]
  rfl

/-- The first send of the letter fails in the sixth second, and both later
sends, the one after the failure and the one after the crash, start at the
retry time or after it. -/
theorem no_premature_retry_example : ∃ (n : UInt32) (failed : DateTime), n.toNat = 1 ∧
    ⟨failed, .sendEnded letter.id false⟩ ∈ joinedState.log ∧
    failed.checkedAdd (exampleDispatcher.config.retry.backoff n).toNanos = some (firstDay 36) ∧
    count (Event.isSendOf letter.id) (resentState.log.take 19) = 2 ∧
    ∀ e ∈ resentState.log.take 19, e.event.isSendOf letter.id = true → firstDay 36 ≤ e.time := by
  have hfresh : AllFresh resentState.log := by decide +kernel
  have hclock : Forwards resentState.log := by decide +kernel
  have hrange : InRange resentState.log := by decide +kernel
  have hlog : resentState.log = resentState.log.take 19 ++
      ⟨firstDay 6, .marked letter.id (.failed "transport error: 451" (firstDay 36))⟩ :: joinedState.log.drop 3 := rfl
  obtain ⟨n, failed, hn, hfailed, hadd, hlater, -⟩ :=
    no_premature_retry reachable_resentState hfresh hclock hrange exampleDispatcher_delays hlog
  exact ⟨n, failed, hn, List.mem_of_mem_drop hfailed, hadd, by decide, hlater⟩

end OxidRelay
