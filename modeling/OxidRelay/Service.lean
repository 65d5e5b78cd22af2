/-
Runs without end in which the relay does its work. `Service` is one in
which from some state on the dispatcher goes on and nothing fails. Each tick
ends, so ticks recur (`Service.polls`), and a mail that a tick fetches is
marked before the tick ends (`Service.marks`).
-/
import OxidRelay.Lib.LeadsTo
import OxidRelay.TickEnds

namespace OxidRelay

open DateTime SqliteQueue

variable {τ : Type} {C : Codec} {d : Dispatcher τ} {s s' : State τ} {now : DateTime} {u v : MailId}
  {t t' : Track τ} {r : Row} {f : Nat → State τ} {clock : Nat → DateTime} {n i j : Nat}

/-! ## Runs without end -/

/-- A step in which nothing fails: no fault is recorded, the process runs
on, the reclaim reclaims and the fetch fetches. -/
structure Serves (C : Codec) (d : Dispatcher τ) (s : State τ) (now : DateTime) (s' : State τ) : Prop where
  step : Step C d s now s'
  up : s'.control.isLive = true
  faultless : ∃ events : List (Event τ), s'.log = events.map (fun e => ⟨now, e⟩) ++ s.log ∧
    ∀ e ∈ events, e.isFault = false
  reclaims : ∀ tick cutoff, s.control = .reclaiming tick cutoff → s'.control = .fetching tick →
    ∀ r ∈ s'.table, isStale cutoff r = false
  fetches : ∀ tick, s.control = .fetching tick → s'.control = .polling → ∀ r ∈ s.table, isDue tick r = false

/-- The clock, and the times of the mails enqueued, are past an instant, by the lease. -/
structure Passed (d : Dispatcher τ) (f : Nat → State τ) (clock : Nat → DateTime) (K : DateTime) (i : Nat) : Prop where
  cutoff : ∃ cutoff, d.cutoff (clock i) = some cutoff ∧ K < cutoff
  enqueued : ∀ mail, (f (i + 1)).log = ⟨clock i, .enqueued mail⟩ :: (f i).log → K < mail.nextAttemptAt

structure Service (C : Codec) (d : Dispatcher τ) (f : Nat → State τ) (clock : Nat → DateTime) : Prop where
  serves : ∀ i, Serves C d (f i) (clock i) (f (i + 1))
  /-- The main task or a delivery goes on. -/
  moves : Recurs fun i => (f i).Moves (f (i + 1))
  clock : ∀ i, (clock i).YearInRange
  written : ∀ n K, WrittenIn (f n).log K → K.YearInRange

/-- The clock passes the times that the row of a mail holds. -/
def PassesRow (C : Codec) (d : Dispatcher τ) (f : Nat → State τ) (clock : Nat → DateTime) (u : MailId) : Prop :=
  ∀ n r, (f n).table.find (C.uuidText u) = some r → ∀ K : DateTime, K.YearInRange →
    K.toRfc3339 = r.nextAttemptAt ∨ K.toRfc3339 = r.updatedAt → ∃ i, ∀ k, i ≤ k → Passed d f clock K k

theorem Service.reachable (h : Service C d f clock) (h₀ : ReachableFromEmpty C d (f 0)) (n : Nat) :
    ReachableFromEmpty C d (f n) := by
  induction n with
  | zero => exact h₀
  | succ n ih => exact ih.tail ⟨_, (h.serves n).step⟩

theorem Service.steps (h : Service C d f clock) (hi : n ≤ i) : Steps C d (f n) (f i) := by
  induction hi with
  | refl => exact .refl
  | step _ ih => exact ih.tail ⟨_, (h.serves _).step⟩

/-! ## Ticks recur -/

theorem Control.isLive_cases {c : Control} (hlive : c.isLive = true) (hout : c.inTick = false) :
    c = .starting ∨ c = .polling := by
  cases c with
  | starting => exact .inl rfl
  | polling => exact .inr rfl
  | down | stopped => cases hlive
  | reclaiming | fetching | claiming | acquiring | joining => cases hout

/-- Until something moves, the main task and the deliveries stay where they are. -/
theorem Service.next (h : Service C d f clock) (n : Nat) : ∃ i, n ≤ i ∧ (f i).Moves (f (i + 1)) ∧
    ∀ j, n ≤ j → j ≤ i → (f j).control = (f n).control ∧ (f j).tasks = (f n).tasks := by
  obtain ⟨i, hi, hmoves, hfirst⟩ := h.moves.next n
  refine ⟨i, hi, hmoves, fun j hj hji => ?_⟩
  induction hj with
  | refl => exact ⟨rfl, rfl⟩
  | @step j hj ih =>
    obtain ⟨hc, ht⟩ := ih (Nat.le_of_succ_le hji)
    have hstill := hfirst j hj hji
    rw [State.Moves, not_or, not_not, not_not] at hstill
    exact ⟨hstill.1.trans hc, hstill.2.trans ht⟩

/-- A tick ends. -/
theorem Service.ends (h : Service C d f clock) :
    LeadsTo (fun i => (f i).control.inTick = true) fun i => (f i).control.inTick = false := by
  refine .rank (fun i => (f i).left d) fun n hn => ?_
  obtain ⟨i, hi, hmoves, hsame⟩ := h.next n
  obtain ⟨hc, ht⟩ := hsame i hi (Nat.le_refl i)
  have hlt : (f (i + 1)).left d < (f i).left d := (h.serves i).step.left_lt (hc ▸ hn) hmoves
  have hle : (f i).left d = (f n).left d := by rw [State.left, State.left, hc, ht]
  refine ⟨i + 1, Nat.le_succ_of_le hi, ?_⟩
  cases hin : (f (i + 1)).control.inTick with
  | false => exact .inl rfl
  | true => exact .inr ⟨rfl, hle ▸ hlt⟩

/-- How the main task goes on outside a batch. -/
inductive Onward (C : Codec) (d : Dispatcher τ) (s : State τ) (now : DateTime) (s' : State τ) : Prop
  | started : s.control = .down → Onward C d s now s'
  | recovered : s.control = .starting → s'.control = .polling → Onward C d s now s'
  | ticks {cutoff : DateTime} : s.control = .polling → d.cutoff now = some cutoff →
      s'.control = .reclaiming now cutoff → Onward C d s now s'
  | reclaimed {tick cutoff : DateTime} : s.control = .reclaiming tick cutoff → s'.control = .fetching tick →
      Onward C d s now s'
  | fetchedNone {tick : DateTime} : s.control = .fetching tick → s'.control = .polling → Onward C d s now s'
  | fetched {tick : DateTime} {scan : List Row} {due : List Mail} : s.control = .fetching tick →
      scan.Perm s.table.rows → fetchDue C scan d.config.batchSize tick = .ok due → s'.control = .claiming due →
      s'.tasks = s.tasks → Onward C d s now s'
  | inBatch : s.control.inBatch = true → Onward C d s now s'

theorem Serves.onward (hexcl : Exclusive C d s) (h : Serves C d s now s') (hmoves : s.Moves s') :
    Onward C d s now s' := by
  have hup := h.up
  cases h.step with
  | start hc => exact .started hc
  | crash | exit | shutdown | tickPanics | fetchPanics => cases hup
  | enqueue | elapse => exact absurd hmoves (by simp [State.Moves, State.emit])
  | recover hc | recoverFails hc => exact .recovered hc rfl
  | tick hc _ hcutoff => exact .ticks hc hcutoff rfl
  | reclaim hc | reclaimFails hc => exact .reclaimed hc rfl
  | fetchFails hc | fetchNone hc => exact .fetchedNone hc rfl
  | fetch hc hscan hf => exact .fetched hc hscan hf rfl rfl
  | claim hc | claimFails hc | spawn hc | endClaims hc | joinOne hc | tickEnds hc => exact .inBatch (by rw [hc]; rfl)
  | sendStarts ht | noTransport ht | sendOk ht | sendErr ht | sendErrPanics ht | mark ht | markFails ht | finish ht
  | panic ht => exact .inBatch (hexcl.inBatch ht)

section Service

variable (h : Service C d f clock) (h₀ : ReachableFromEmpty C d (f 0))
include h h₀

theorem Service.exclusive (n : Nat) : Exclusive C d (f n) := (h.reachable h₀ n).reachable.exclusive

/-- The next time the main task goes on. -/
theorem Service.onward (n : Nat) : ∃ i, n ≤ i ∧ (f i).control = (f n).control ∧
    Onward C d (f i) (clock i) (f (i + 1)) := by
  obtain ⟨i, hi, hmoves, hsame⟩ := h.next n
  exact ⟨i, hi, (hsame i hi (Nat.le_refl i)).1, (h.serves i).onward (h.exclusive h₀ i) hmoves⟩

/-- **The dispatcher polls again and again.** -/
theorem Service.polls : Recurs fun i => (f i).control = .polling := by
  intro n
  obtain ⟨i, hi, hout⟩ : ∃ i, n + 1 ≤ i ∧ (f i).control.inTick = false := by
    cases hin : (f (n + 1)).control.inTick with
    | false => exact ⟨n + 1, Nat.le_refl _, hin⟩
    | true => exact h.ends (n + 1) hin
  obtain ⟨k, rfl⟩ : ∃ k, i = k + 1 := ⟨i - 1, by omega⟩
  rcases Control.isLive_cases (h.serves k).up hout with hc | hc
  · obtain ⟨j, hj, hsame, hon⟩ := h.onward h₀ (k + 1)
    rw [hc] at hsame
    cases hon with
    | recovered _ hc' => exact ⟨j + 1, by omega, hc'⟩
    | started hc' | ticks hc' | reclaimed hc' | fetchedNone hc' | fetched hc' =>
      rw [hsame] at hc'
      cases hc'
    | inBatch hb =>
      rw [hsame] at hb
      cases hb
  · exact ⟨k + 1, by omega, hc⟩

/-- A tick from its start to its fetch. -/
structure TickFrom (C : Codec) (d : Dispatcher τ) (f : Nat → State τ) (clock : Nat → DateTime) (n k a b : Nat)
    (cutoff : DateTime) : Prop where
  start : n ≤ k
  cutoff_eq : d.cutoff (clock k) = some cutoff
  after : k ≤ a
  reclaimed : ∀ r ∈ (f a).table, isStale cutoff r = false
  before : a ≤ b
  fetching : (f b).control = .fetching (clock k)
  onward : Onward C d (f b) (clock b) (f (b + 1))

theorem Service.ticks (hc : (f n).control = .polling) :
    ∃ k a b cutoff, TickFrom C d f clock n k a b cutoff := by
  obtain ⟨k, hk, hsame, hon⟩ := h.onward h₀ n
  rw [hc] at hsame
  cases hon with
  | @ticks cutoff _ hcutoff hc' =>
    obtain ⟨a, ha, hsame', hon'⟩ := h.onward h₀ (k + 1)
    rw [hc'] at hsame'
    cases hon' with
    | reclaimed hr hf =>
      obtain ⟨rfl, rfl⟩ := Control.reclaiming.inj (hsame'.symm.trans hr)
      obtain ⟨b, hb, hsame'', hon''⟩ := h.onward h₀ (a + 1)
      rw [hf] at hsame''
      exact ⟨k, a + 1, b, cutoff, hk, hcutoff, by omega, (h.serves a).reclaims _ _ hr hf, hb, hsame'', hon''⟩
    | started hx | recovered hx | ticks hx | fetchedNone hx | fetched hx =>
      rw [hsame'] at hx
      cases hx
    | inBatch hb =>
      rw [hsame'] at hb
      cases hb
  | started hx | recovered hx | reclaimed hx | fetchedNone hx | fetched hx =>
    rw [hsame] at hx
    cases hx
  | inBatch hb =>
    rw [hsame] at hb
    cases hb

end Service

/-! ## In the life of a mail -/

/-- What a step does to the row of a mail. -/
inductive RowStep (t : Track τ) (now : DateTime) (t' : Track τ) (r : Row) : Prop
  | same : t'.row = some r → RowStep t now t' r
  | requeued : r.status = "sending" → t'.row = some (requeueRow now r) → RowStep t now t' r
  | claimed {m : Mail} : t.slot = some ⟨m, .fetched⟩ → t'.slot = some ⟨m, .claimed⟩ →
      t'.row = some (setStatusRow now .sending none false none r) → RowStep t now t' r
  | marked {m : Mail} {mk : Mark} : t.slot = some ⟨m, .running (.marking mk)⟩ → t'.row = some (mk.row now r) →
      RowStep t now t' r

theorem Life.rowStep (h : Life C d u t now t') (hr : t.row = some r) : RowStep t now t' r := by
  cases h with
  | enqueued hn =>
    rw [hn] at hr
    cases hr
  | requeued hr' hst =>
    obtain rfl := Option.some.inj (hr.symm.trans hr')
    exact .requeued hst rfl
  | claimed hx hr' =>
    obtain rfl := Option.some.inj (hr.symm.trans hr')
    exact .claimed hx rfl rfl
  | marked hx hr' =>
    obtain rfl := Option.some.inj (hr.symm.trans hr')
    exact .marked hx rfl
  | _ => exact .same hr

/-- A failure that is about to be recorded was so before, or its send ended now. -/
theorem Life.marking (h : Life C d u t now t') {m : Mail} {mk : Mark}
    (hx : t'.slot = some ⟨m, .running (.marking mk)⟩) {err : String} {retryAt : DateTime}
    (hmk : mk = .failed err retryAt) :
    t.slot = some ⟨m, .running (.marking mk)⟩ ∨ ∃ e, d.onError m e now = some mk := by
  cases h with
  | sendErr _ herr =>
    cases hx
    exact .inr ⟨_, herr⟩
  | stay | tickStarted | enqueued => exact .inl hx
  | requeued _ _ hs =>
    rw [hs] at hx
    cases hx
  | noTransport | sendOk =>
    cases hx
    cases hmk
  | _ => cases hx

/-- The mail is fetched or in flight, with so many attempts. -/
def Track.InHand (a : Int) (t : Track τ) : Prop :=
  (∃ x, t.slot = some x ∧ (x.phase.isFetched || x.phase.inFlight) = true) ∧ ∃ r, t.row = some r ∧ r.attempts = a

/-- The status write of its delivery, by the step that follows. -/
def Marks (u : MailId) (a : Int) (t : Track τ) (now : DateTime) (t' : Track τ) : Prop :=
  ∃ m mk r, t.slot = some ⟨m, .running (.marking mk)⟩ ∧ t.row = some r ∧ r.attempts = a ∧
    t'.row = some (mk.row now r) ∧ t'.log = ⟨now, .marked u mk⟩ :: t.log

/-- A step in the life of a mail that records no fault. -/
structure Untroubled (C : Codec) (d : Dispatcher τ) (u : MailId) (t : Track τ) (now : DateTime) (t' : Track τ) :
    Prop where
  life : Life C d u t now t'
  faultless : ∀ new, t'.log = new ++ t.log → ∀ x ∈ new, x.event.isFault = false

theorem Serves.untroubled (hexcl : Exclusive C d s) (h : Serves C d s now s') (u : MailId) :
    Untroubled C d u (s.track C u) now (s'.track C u) := by
  refine ⟨h.step.life hexcl u, fun new hnew x hx => ?_⟩
  obtain ⟨events, hlog, hevents⟩ := h.faultless
  simp only [State.track, hlog, filter_emit, List.append_left_inj] at hnew
  rw [← hnew] at hx
  obtain ⟨e, he, rfl⟩ := List.mem_map.1 hx
  exact hevents e (List.mem_filter.1 he).1

/-- **A mail that is held stays held until it is marked.** -/
theorem Untroubled.inHand {a : Int} (h : Untroubled C d u t now t') (ht : t.InHand a) :
    t'.InHand a ∨ Marks u a t now t' := by
  obtain ⟨⟨x, hx, hphase⟩, r, hr, ha⟩ := ht
  have hfault {e : Event τ} (new : List (Entry τ)) (he : e.isFault = true) (hlog : t'.log = new ++ t.log)
      (hmem : ⟨now, e⟩ ∈ new) : False := by
    have := h.faultless new hlog _ hmem
    rw [he] at this
    cases this
  have held {x' : Slot τ} {r' : Row} (hx' : t'.slot = some x') (hp : (x'.phase.isFetched || x'.phase.inFlight) = true)
      (hr' : t'.row = some r') (ha' : r'.attempts = r.attempts) : t'.InHand a ∨ Marks u a t now t' :=
    .inl ⟨⟨x', hx', hp⟩, r', hr', ha'.trans ha⟩
  have idle {x' : Slot τ} (hx' : t.slot = some x') (hp : (x'.phase.isFetched || x'.phase.inFlight) = false) :
      False := by
    obtain rfl := Option.some.inj (hx.symm.trans hx')
    rw [hphase] at hp
    cases hp
  cases h.life with
  | stay => exact held hx hphase hr rfl
  | crashed => exact (hfault [_] rfl rfl List.mem_cons_self).elim
  | claimFailed | markFailed | panicked => exact (hfault [_] rfl rfl List.mem_cons_self).elim
  | sendErrPanicked => exact (hfault [_, _] rfl rfl List.mem_cons_self).elim
  | tickStarted hs | requeued _ _ hs | fetched _ hs =>
    rw [hs] at hx
    cases hx
  | enqueued hn =>
    rw [hn] at hr
    cases hr
  | claimed _ hr' =>
    obtain rfl := Option.some.inj (hr.symm.trans hr')
    exact held rfl rfl rfl (Int.add_zero _)
  | spawned | sendStarted | noTransport | sendOk | sendErr => exact held rfl rfl hr rfl
  | marked hs hr' =>
    obtain rfl := Option.some.inj (hr.symm.trans hr')
    exact .inr ⟨_, _, _, hs, hr', ha, rfl, rfl⟩
  | finished hs | joined hs => exact (idle hs rfl).elim

section Service

variable (h : Service C d f clock) (h₀ : ReachableFromEmpty C d (f 0))
include h h₀

theorem Service.coherent (n : Nat) (u : MailId) : ((f n).track C u).Coherent C u :=
  (h.reachable h₀ n).reachable.coherent u

theorem Service.untroubled (n : Nat) (u : MailId) :
    Untroubled C d u ((f n).track C u) (clock n) ((f (n + 1)).track C u) :=
  (h.serves n).untroubled (h.exclusive h₀ n) u

/-- **A mail that is held is marked**, before the tick ends. -/
theorem Service.marks {a : Int} : LeadsTo (fun i => ((f i).track C u).InHand a) fun i =>
    Marks u a ((f i).track C u) (clock i) ((f (i + 1)).track C u) := by
  intro n hn
  have hunless : Unless (fun i => ((f i).track C u).InHand a) fun i =>
      ∃ j, j + 1 = i ∧ Marks u a ((f j).track C u) (clock j) ((f (j + 1)).track C u) := by
    intro i hi
    exact ((h.untroubled h₀ i u).inHand hi).imp id fun hm => ⟨i, rfl, hm⟩
  obtain ⟨p, hp, hpoll⟩ := h.polls h₀ n
  rcases hunless.until hn hp with hheld | ⟨j, hj, -, i, rfl, hm⟩
  · obtain ⟨⟨x, hx, -⟩, -⟩ := hheld
    rw [State.track, (h.exclusive h₀ p).no_slots (by rw [hpoll]; rfl)] at hx
    cases hx
  · exact ⟨i, Nat.le_of_lt_succ hj, hm⟩

end Service

end OxidRelay
