/-
What one tick does with its batch, on top of `Exclusive`: each mail is
claimed and sent at most once (`Track.Once`), and when every status write
took effect and no delivery panicked, a row fetched in the tick is
`sending` only while its delivery is in flight (`Track.Settled`), hence
never when the tick ends.

A tick is the part of the log since the last `tickStarted`, its `window`.
-/
import OxidRelay.Lifecycle

namespace OxidRelay

open SqliteQueue

variable {τ : Type} {C : Codec} {d : Dispatcher τ} {s s' : State τ} {now : DateTime} {u : MailId} {t t' : Track τ}

/-! ## Windows -/

@[simp] theorem window_cons (e : Event τ) (log : List (Entry τ)) :
    window (⟨now, e⟩ :: log) = if e.startsTick then [] else ⟨now, e⟩ :: window log := by
  cases h : e.startsTick <;> simp [window, h]

theorem count_window_track {p : Event τ → Bool} (hp : ∀ e, p e = true → e.about C u = true) :
    count p (window (s.track C u).log) = count p (window s.log) := by
  rw [State.track, window_filter, count, List.countP_filter]
  refine List.countP_congr fun e _ => ?_
  have := hp e.event
  simp only [Bool.and_eq_true]
  tauto

theorem count_eq_zero {p : Event τ → Bool} {log : List (Entry τ)} (h : ∀ e ∈ log, p e.event = false) :
    count p log = 0 := List.countP_eq_zero.2 fun e he => by simp [h e he]

theorem Event.isWork_of_isClaimOf {e : Event τ} (h : e.isWork = false) : e.isClaimOf u = false := by
  cases e <;> first | rfl | cases h

theorem Event.isWork_of_isSendOf {e : Event τ} (h : e.isWork = false) : e.isSendOf u = false := by
  cases e <;> first | rfl | cases h

/-! ## Once a tick -/

/-- One while the tick has the mail still to claim. -/
def Track.toClaim (t : Track τ) : Nat :=
  match t.slot with
  | some ⟨_, .fetched⟩ => 1
  | _ => 0

/-- One while the tick has the mail still to send. -/
def Track.toSend (t : Track τ) : Nat :=
  match t.slot with
  | some ⟨_, .fetched⟩ | some ⟨_, .claimed⟩ | some ⟨_, .running .spawned⟩ => 1
  | _ => 0

structure Track.Once (u : MailId) (t : Track τ) : Prop where
  claims : count (Event.isClaimOf u) (window t.log) + t.toClaim ≤ 1
  sends : count (Event.isSendOf u) (window t.log) + t.toSend ≤ 1

theorem Life.once (ho : t.Once u) (h : Life C d u t now t') : t'.Once u := by
  obtain ⟨hc, hs⟩ := ho
  cases h with
  | stay => exact ⟨hc, hs⟩
  | crashed | claimFailed | sendErrPanicked | markFailed | panicked =>
    constructor <;> simp [Event.startsTick, Event.isClaimOf, Event.isSendOf, Track.toClaim, Track.toSend] <;> omega
  | finished | joined => constructor <;> simp [Track.toClaim, Track.toSend] <;> omega
  | tickStarted hn => constructor <;> simp [Event.startsTick, Track.toClaim, Track.toSend, hn]
  | enqueued | requeued =>
    constructor <;> simp [Event.startsTick, Event.isClaimOf, Event.isSendOf]
    · exact hc
    · exact hs
  | fetched _ _ _ _ _ hw =>
    have hc0 : count (Event.isClaimOf u) (window t.log) = 0 :=
      count_eq_zero fun e he => Event.isWork_of_isClaimOf (hw e he)
    have hs0 : count (Event.isSendOf u) (window t.log) = 0 :=
      count_eq_zero fun e he => Event.isWork_of_isSendOf (hw e he)
    constructor <;> simp [Event.startsTick, Event.isClaimOf, Event.isSendOf, Track.toClaim, Track.toSend, hc0, hs0]
  | claimed hx _ =>
    simp only [Track.toClaim, Track.toSend, hx] at hc hs
    constructor <;> simp [Event.startsTick, Event.isClaimOf, Event.isSendOf, Track.toClaim, Track.toSend] <;> omega
  | spawned hx =>
    simp only [Track.toClaim, Track.toSend, hx] at hc hs
    exact ⟨hc, hs⟩
  | sendStarted hx _ =>
    simp only [Track.toClaim, Track.toSend, hx] at hc hs
    constructor <;> simp [Event.startsTick, Event.isClaimOf, Event.isSendOf, Track.toClaim, Track.toSend]
    · omega
    · split <;> omega
  | noTransport | sendOk | sendErr | marked =>
    constructor <;> simp [Event.startsTick, Event.isClaimOf, Event.isSendOf, Track.toClaim, Track.toSend] <;> omega

theorem Reachable.once (h : Reachable C d s) (u : MailId) : (s.track C u).Once u :=
  h.invariant (fun _ => ⟨Nat.zero_le _, Nat.zero_le _⟩) Life.once

/-! ## Settled at the end -/

def Fetched (m : Mail) (log : List (Entry τ)) : Prop := ∃ e ∈ log, e.event = .fetched m

/-- A row fetched in a tick without faults is `sending` only in flight. -/
def Track.Settled (t : Track τ) : Prop :=
  Faultless (window t.log) → (∃ m, Fetched m (window t.log)) →
    ∃ r, t.row = some r ∧ (r.status = "sending" → ∃ x, t.slot = some x ∧ x.phase.inFlight = true)

theorem Fetched.of_cons {log : List (Entry τ)} {e : Event τ} {m : Mail} (h : Fetched m (⟨now, e⟩ :: log))
    (hne : e ≠ .fetched m) : Fetched m log :=
  event_of_cons h hne

/-- What an event that is no fault and no fetch leaves to show. -/
theorem Track.Settled.of_cons (hs : t.Settled) {e : Event τ} (hlog : t'.log = ⟨now, e⟩ :: t.log)
    (hf : ∀ m, e ≠ .fetched m)
    (h : ∀ r, t.row = some r → (r.status = "sending" → ∃ x, t.slot = some x ∧ x.phase.inFlight = true) →
      ∃ r', t'.row = some r' ∧ (r'.status = "sending" → ∃ x, t'.slot = some x ∧ x.phase.inFlight = true)) :
    t'.Settled := by
  intro hno hfe
  rw [hlog, window_cons] at hno hfe
  split at hno
  · obtain ⟨m, x, hx, -⟩ := hfe
    simp_all
  · next hst =>
    simp only [hst, Bool.false_eq_true, if_false] at hfe
    obtain ⟨m, hm⟩ := hfe
    obtain ⟨r, hr, hfl⟩ := hs (hno.suffix (List.suffix_cons _ _)) ⟨m, hm.of_cons (hf m)⟩
    exact h r hr hfl

/-- After a fault the window is not faultless. -/
theorem Track.Settled.of_fault {e : Event τ} {log : List (Entry τ)} (hlog : t'.log = ⟨now, e⟩ :: log)
    (hf : e.isFault = true) : t'.Settled := by
  intro hno
  have hst : e.startsTick = false := by cases e <;> first | rfl | cases hf
  rw [hlog, window_cons, hst] at hno
  have := hno ⟨now, e⟩ (by simp)
  rw [hf] at this; cases this

theorem Life.settled (hs : t.Settled) (h : Life C d u t now t') : t'.Settled := by
  cases h with
  | stay => exact hs
  | crashed | claimFailed | markFailed | panicked | sendErrPanicked => exact .of_fault rfl rfl
  | tickStarted => exact hs.of_cons rfl (by simp) fun r hr h => ⟨r, hr, h⟩
  | enqueued hr _ => exact hs.of_cons rfl (by simp) fun r hr' => by rw [hr] at hr'; cases hr'
  | requeued hr _ _ => exact hs.of_cons rfl (by simp) fun r _ _ => ⟨_, rfl, fun h => by simp [requeueRow] at h⟩
  | fetched hr _ hdue =>
    intro _ _
    simp only [isDue, decide_eq_true_eq] at hdue
    exact ⟨_, hr, fun h => by rcases hdue.1 with h' | h' <;> simp [h'] at h⟩
  | claimed => exact hs.of_cons rfl (by simp) fun r _ _ => ⟨_, rfl, fun _ => ⟨_, rfl, rfl⟩⟩
  | sendStarted | sendOk | sendErr => exact hs.of_cons rfl (by simp) fun r hr _ => ⟨r, hr, fun _ => ⟨_, rfl, rfl⟩⟩
  | spawned | noTransport =>
    intro hno hfe
    obtain ⟨r, hr, -⟩ := hs hno hfe
    exact ⟨r, hr, fun _ => ⟨_, rfl, rfl⟩⟩
  | marked =>
    rename_i mk _ _
    exact hs.of_cons rfl (by simp) fun r _ _ => ⟨_, rfl,
      fun h => by cases mk <;> simp [Mark.row, setStatusRow, statusToStr] at h⟩
  | finished hx | joined hx =>
    intro hno hfe
    obtain ⟨r, hr, hfl⟩ := hs hno hfe
    refine ⟨r, hr, fun h => ?_⟩
    obtain ⟨x, hx', hi⟩ := hfl h
    cases hx.symm.trans hx'
    cases hi

theorem Reachable.settled (h : Reachable C d s) (u : MailId) : (s.track C u).Settled :=
  h.invariant (fun _ _ hf => by simp [Track.initial, Fetched, window] at hf) Life.settled

/-! ## The window of a tick that ends -/

/-- From the start of a tick to its end. -/
def Control.inTick (c : Control) : Bool := c.beforeFetch || c.inBatch

/-- A step ends the process, starts a tick, or goes on in the tick it was in. -/
theorem Step.inTick (hs : Step C d s now s') : s'.control = .down ∨ s'.log = ⟨now, .tickStarted⟩ :: s.log ∨
    (s'.control.inTick = true → s.control.inTick = true) ∧
      ∃ events : List (Event τ), s'.log = events.map (fun e => ⟨now, e⟩) ++ s.log ∧
        ∀ e ∈ events, e.startsTick = false ∧ e ≠ .crashed := by
  cases hs with
  | crash | exit | tickPanics | fetchPanics => exact .inl rfl
  | tick => exact .inr (.inl rfl)
  | recover | reclaim =>
    refine .inr (.inr ⟨?_, _, rfl, ?_⟩)
    · simp_all [State.emit, Control.inTick, Control.beforeFetch, Control.inBatch]
    · intro e he
      obtain ⟨r, -, rfl⟩ := List.mem_map.1 he
      simp [Event.startsTick]
  | start | enqueue | fetchFails | fetchNone | fetch | claim | claimFails | tickEnds | sendStarts | sendOk | sendErr
  | sendErrPanics | mark | markFails | panic =>
    refine .inr (.inr ⟨?_, _, rfl, by simp [Event.startsTick]⟩)
    simp_all [State.emit, State.setStage, State.endTask, Control.inTick, Control.beforeFetch, Control.inBatch]
  | recoverFails | elapse | shutdown | reclaimFails | spawn | endClaims | joinOne | noTransport | finish =>
    refine .inr (.inr ⟨?_, [], rfl, by simp⟩)
    simp_all [State.setStage, State.endTask, Control.inTick, Control.beforeFetch, Control.inBatch]

/-- Within a tick the process has not crashed. -/
theorem Step.unbroken (h : s.control.inTick = true → ∀ e ∈ window s.log, e.event ≠ .crashed)
    (hs : Step C d s now s') : s'.control.inTick = true → ∀ e ∈ window s'.log, e.event ≠ .crashed := by
  intro hin e he
  rcases hs.inTick with hd | hlog | ⟨hkeep, events, hlog, hev⟩
  · rw [hd] at hin; cases hin
  · rw [hlog, window_cons] at he
    cases he
  · rw [hlog, window_emit fun e he => (hev e he).1, List.mem_append] at he
    rcases he with he | he
    · obtain ⟨ev, hev', rfl⟩ := List.mem_map.1 he
      exact (hev ev hev').2
    · exact h (hkeep hin) e he

theorem Reachable.unbroken (h : Reachable C d s) (hin : s.control.inTick = true) :
    ∀ e ∈ window s.log, e.event ≠ .crashed := by
  obtain ⟨T, -, hs⟩ := h
  exact Run.invariant (I := fun s => s.control.inTick = true → ∀ e ∈ window s.log, e.event ≠ .crashed)
    (fun ha ⟨_, hab⟩ => hab.unbroken ha) (fun hin => by cases hin) hs hin

/-- The step that ends a tick, and what the tick held before it. -/
theorem Step.tickEnded (hs : Step C d s now s') {n : Nat}
    (hlog : s'.log = ⟨now, .tickEnded n⟩ :: s.log) :
    s'.table = s.table ∧ s.control.inTick = true ∧
      (s.control.beforeFetch = true ∨ s.slots = []) := by
  -- a step that only records requeues or fetches does not record the end of a tick
  have hevents : ∀ {events : List (Event τ)}, (∀ e ∈ events, ∀ n, e ≠ .tickEnded n) →
      events.map (fun e => (⟨now, e⟩ : Entry τ)) ++ s.log ≠ ⟨now, .tickEnded n⟩ :: s.log := fun hne h => by
    have hsingle := List.append_cancel_right (h.trans (List.singleton_append).symm)
    obtain ⟨e, he, hent⟩ := List.mem_map.1 (hsingle ▸ List.mem_singleton_self _)
    cases hent
    exact hne _ he n rfl
  cases hs with
  | fetchFails hc | fetchNone hc _ _ => exact ⟨rfl, by rw [hc]; rfl, .inl (by rw [hc]; rfl)⟩
  | tickEnds hc ht => exact ⟨rfl, by rw [hc]; rfl, .inr (by simp [State.slots, hc, Control.slots, ht])⟩
  | recover | reclaim | fetch =>
    refine absurd hlog (hevents fun e he n => ?_)
    obtain ⟨r, -, rfl⟩ := List.mem_map.1 he
    simp
  | _ => simp [State.emit, State.halt, State.setStage, State.endTask] at hlog

/-! ## Exclusive delivery -/

def Stage.isSending : Stage τ → Bool
  | .sending _ => true
  | _ => false

/-- The sends in progress for an id. -/
def State.sending (s : State τ) (u : MailId) : Nat := s.tasks.countP fun t => t.stage.isSending && t.mail.id = u

/-- Every status write of a piece of log took effect, and no delivery panicked. -/
def Effective (log : List (Entry τ)) : Prop :=
  ∀ e ∈ log, ∀ u, e.event ≠ .claimFailed u ∧ e.event ≠ .markFailed u ∧ e.event ≠ .panicked u

theorem Exclusive.alive_le (h : Exclusive C d s) : s.alive ≤ d.config.concurrency := by
  cases hb : s.control.inBatch with
  | true => have := h.permits hb; omega
  | false => simp [State.alive, h.quiet hb]

theorem Exclusive.sending_le (h : Exclusive C d s) (u : MailId) : s.sending u ≤ 1 := by
  have hn : (s.tasks.map fun t => t.mail.id).Nodup := by
    have := (List.nodup_append.1 (List.map_append ▸ h.nodup)).2.1
    rwa [List.map_map] at this
  calc s.sending u ≤ s.tasks.countP (fun t => t.mail.id = u) :=
        List.countP_mono_left fun t _ ht => by
          simp only [Bool.and_eq_true] at ht
          exact ht.2
    _ = (s.tasks.map fun t => t.mail.id).count u := by
        rw [List.count, List.countP_map]
        exact List.countP_congr fun t _ => by simp
    _ ≤ 1 := List.nodup_iff_count_le_one.1 hn u

/-- A row fetched in a tick whose status writes took effect and whose
deliveries did not panic is not `sending` when the tick ends. -/
theorem Reachable.settled_at_end (h : Reachable C d s) (hs : Step C d s now s') {n : Nat}
    (hlog : s'.log = ⟨now, .tickEnded n⟩ :: s.log) (heff : Effective (window s.log)) {m : Mail}
    (hm : Fetched m (window s.log)) : ∃ r, s'.table.find (C.uuidText m.id) = some r ∧ r.status ≠ "sending" := by
  obtain ⟨htable, hin, hbefore | hslots⟩ := hs.tickEnded hlog
  · obtain ⟨e, he, hev⟩ := hm
    have := h.exclusive.unworked hbefore e he
    simp [hev, Event.isWork] at this
  · have hwin : window (s.track C m.id).log = (window s.log).filter fun e => e.event.about C m.id := window_filter _
    have hno : Faultless (window (s.track C m.id).log) := by
      intro e he
      rw [hwin] at he
      have hmem := (List.mem_filter.1 he).1
      have hcr := h.unbroken hin e hmem
      have hef := heff e hmem
      cases hev : e.event <;> simp_all [Event.isFault]
    have hfe : Fetched m (window (s.track C m.id).log) := by
      obtain ⟨e, he, hev⟩ := hm
      exact ⟨e, hwin ▸ List.mem_filter.2 ⟨he, by simp [hev, Event.about]⟩, hev⟩
    obtain ⟨r, hr, hfl⟩ := h.settled m.id hno ⟨m, hfe⟩
    refine ⟨r, htable ▸ hr, fun hst => ?_⟩
    obtain ⟨x, hx, -⟩ := hfl hst
    simp [State.track, hslots] at hx

/-- **Exclusive delivery.** In every state that one dispatcher reaches on a
queue: at most one send is in progress for an id and at most `concurrency`
deliveries are alive; since its start, the current tick claimed and sent
each id at most once; no delivery is alive when a reclaim or a fetch
executes or when `run` has returned; and a tick that ends, all its status
writes having taken effect and none of its deliveries having panicked,
leaves no row it fetched in `sending`. -/
theorem exclusive_delivery (h : Reachable C d s) :
    (∀ u, s.sending u ≤ 1) ∧ s.alive ≤ d.config.concurrency ∧
    (∀ u, count (Event.isClaimOf u) (window s.log) ≤ 1 ∧ count (Event.isSendOf u) (window s.log) ≤ 1) ∧
    (s.control.beforeFetch = true ∨ s.control = .stopped → s.alive = 0) ∧
    ∀ now s' n, Step C d s now s' → s'.log = ⟨now, .tickEnded n⟩ :: s.log → Effective (window s.log) →
      ∀ m, Fetched m (window s.log) → ∃ r, s'.table.find (C.uuidText m.id) = some r ∧ r.status ≠ "sending" := by
  refine ⟨h.exclusive.sending_le, h.exclusive.alive_le, fun u => ?_, fun hc => ?_,
    fun now s' n hs hlog heff m hm => h.settled_at_end hs hlog heff hm⟩
  · obtain ⟨hcl, hse⟩ := h.once u
    rw [count_window_track (p := Event.isClaimOf u) fun _ => Event.about_of_isClaimOf] at hcl
    rw [count_window_track (p := Event.isSendOf u) fun _ => Event.about_of_isSendOf] at hse
    omega
  · have hb : s.control.inBatch = false := by
      rcases hc with hc | hc
      · cases hcon : s.control <;> simp_all [Control.beforeFetch, Control.inBatch]
      · rw [hc]; rfl
    simp [State.alive, h.exclusive.quiet hb]

/-- While two of the run's mails are being sent; when the next process
fetches; and when the first tick ends. -/
theorem exclusive_delivery_example :
    (sendsState.sending ⟨2⟩ ≤ 1 ∧ sendsState.sending ⟨3⟩ ≤ 1 ∧
      sendsState.alive ≤ exampleDispatcher.config.concurrency) ∧
    (count (Event.isClaimOf ⟨3⟩) (window sendsState.log) ≤ 1 ∧
      count (Event.isSendOf ⟨3⟩) (window sendsState.log) ≤ 1) ∧
    reclaimedState.alive = 0 ∧
    ∃ r, joinedState.table.find (textCodec.uuidText ⟨3⟩) = some r ∧ r.status ≠ "sending" := by
  obtain ⟨hsending, halive, honce, -⟩ := exclusive_delivery reachable_sendsState.reachable
  obtain ⟨-, -, -, hquiet, -⟩ := exclusive_delivery reachable_reclaimedState.reachable
  obtain ⟨-, -, -, -, hends⟩ := exclusive_delivery reachable_joinedState.reachable
  refine ⟨⟨hsending _, hsending _, halive⟩, honce _, hquiet (.inl rfl), ?_⟩
  have heffective : Effective (window joinedState.log) := by
    intro e he u
    simp only [joinedState, sendsState, fetchingState, window, List.cons_append, List.nil_append] at he
    fin_cases he <;> simp
  exact hends (firstDay 7) _ 3 (.tickEnds rfl rfl) rfl heffective letter
    ⟨⟨firstDay 1, .fetched letter⟩, by decide +kernel, rfl⟩

end OxidRelay
