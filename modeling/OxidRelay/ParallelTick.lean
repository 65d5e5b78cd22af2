/-
A parallel tick writes what a sequential one would. `sequentialTick` claims
and delivers the mails of a batch one after the other; `ParallelTick` is a
tick of the dispatcher, from its fetch to its end, whose claims, deliveries
and status writes interleave with each other and with enqueues in any way,
and in which no queue write fails and no task panics.

Nothing two deliveries do meets in one row, so the argument is about single
mails. `TickLife` is what a step of such a tick does to one mail, `Progress`
how far the tick has come with a mail it fetched; when the tick ends every
fetched mail is done (`deliveredRow`), which is also what the sequential
tick leaves in its row.
-/
import OxidRelay.RetryTimes

namespace OxidRelay

open SqliteQueue

variable {τ : Type}

/-! ## One mail after the other -/

/-- The status write after `transport.send` answered; none when it panics. -/
def Dispatcher.outcome (d : Dispatcher τ) (mail : Mail) (now : DateTime) : Option CoreError → Option Mark
  | none => some .sent
  | some err => d.onError mail err now

/-- The status write `deliver` ends with, for a send that would answer `result`. -/
def Dispatcher.markFor (C : Codec) (d : Dispatcher τ) (mail : Mail) (result : Option CoreError) (now : DateTime) :
    Option Mark :=
  match d.transportFor mail.transport with
  | none => some (.dead (d.noTransportMessage C mail))
  | some _ => d.outcome mail now result

/-- The clock values of one delivery. -/
structure Clocks where
  claim : DateTime
  sendEnd : DateTime
  mark : DateTime

/-- Claims a mail and delivers it; none when a statement fails or the delivery panics. -/
def claimAndDeliver (C : Codec) (d : Dispatcher τ) (mail : Mail) (result : Option CoreError) (at_ : Clocks)
    (T : Mails) : Option Mails := do
  let T ← (markSending C T at_.claim mail.id).toOption
  let mark ← d.markFor C mail result at_.sendEnd
  (mark.run C T at_.mark mail.id).toOption

/-- The mails of a batch, one after the other; answers the table and the number of mails processed. -/
def sequentialTick (C : Codec) (d : Dispatcher τ) (results : MailId → Option CoreError) (clocks : MailId → Clocks) :
    List Mail → Mails → Option (Mails × Nat)
  | [], T => some (T, 0)
  | mail :: due, T => do
    let T ← claimAndDeliver C d mail (results mail.id) (clocks mail.id) T
    let (T, processed) ← sequentialTick C d results clocks due T
    return (T, processed + 1)

/-! ## All at once -/

/-- A step inside a batch: no queue write fails, no task panics, and the
sends answer as `results` says. -/
structure TickStep (C : Codec) (d : Dispatcher τ) (results : MailId → Option CoreError) (s : State τ)
    (now : DateTime) (s' : State τ) : Prop where
  step : Step C d s now s'
  inBatch : s.control.inBatch = true
  inBatch' : s'.control.inBatch = true
  faultless : ∃ new, s'.log = new ++ s.log ∧ Faultless new
  answers : ∀ m tr mk, ⟨m, .sending tr⟩ ∈ s.tasks → ⟨m, .marking mk⟩ ∈ s'.tasks →
    d.outcome m now (results m.id) = some mk

/-- Any number of such steps at any clock values. -/
abbrev TickSteps (C : Codec) (d : Dispatcher τ) (results : MailId → Option CoreError) : State τ → State τ → Prop :=
  Run fun s s' => ∃ now, TickStep C d results s now s'

/-- A tick from its fetch on, over the mails `due` that it fetched, which
answers `processed`. A tick whose fetch fails or finds nothing answers 0. -/
inductive ParallelTick (C : Codec) (d : Dispatcher τ) (results : MailId → Option CoreError) (s : State τ) :
    List Mail → Nat → State τ → Prop
  | empty : s.control = .fetching tick → Step C d s now s' → s'.control = .polling →
      ParallelTick C d results s [] 0 s'
  | batch : s.control = .fetching tick → Step C d s now s₁ → s₁.control = .claiming due →
      TickSteps C d results s₁ s₂ → s₂.control = .joining processed → Step C d s₂ now' s' →
      s'.control = .polling → ParallelTick C d results s due processed s'

/-! ## One mail of a tick -/

def claimedRow (now : DateTime) (r : Row) : Row := setStatusRow now .sending none false none r

/-- The row of a mail that was claimed and delivered. -/
def deliveredRow (C : Codec) (d : Dispatcher τ) (mail : Mail) (result : Option CoreError) (at_ : Clocks) (r : Row) :
    Option Row :=
  (d.markFor C mail result at_.sendEnd).map fun mark => mark.row at_.mark (claimedRow at_.claim r)

/-- What a step inside a batch does to the mail of id `u` when nothing goes wrong. -/
inductive TickLife (C : Codec) (d : Dispatcher τ) (result : Option CoreError) (u : MailId) :
    Track τ → DateTime → Track τ → Prop
  | stay : TickLife C d result u t now t
  | enqueued : t.row = none → mail.id = u →
      TickLife C d result u t now {
        t with row := some (mailToRow C mail), log := ⟨now, .enqueued mail⟩ :: t.log }
  | claimed : t.slot = some ⟨m, .fetched⟩ → t.row = some r →
      TickLife C d result u t now {
        row := some (claimedRow now r)
        slot := some ⟨m, .claimed⟩
        log := ⟨now, .claimed u⟩ :: t.log }
  | spawned : t.slot = some ⟨m, .claimed⟩ →
      TickLife C d result u t now { t with slot := some ⟨m, .running .spawned⟩ }
  | sendStarted : t.slot = some ⟨m, .running .spawned⟩ → d.transportFor m.transport = some tr →
      TickLife C d result u t now {
        t with slot := some ⟨m, .running (.sending tr)⟩, log := ⟨now, .sendStarted tr m⟩ :: t.log }
  | noTransport : t.slot = some ⟨m, .running .spawned⟩ → d.transportFor m.transport = none →
      TickLife C d result u t now {
        t with slot := some ⟨m, .running (.marking (.dead (d.noTransportMessage C m)))⟩ }
  | sendEnded : t.slot = some ⟨m, .running (.sending tr)⟩ → d.outcome m now result = some mk →
      TickLife C d result u t now {
        t with slot := some ⟨m, .running (.marking mk)⟩, log := ⟨now, .sendEnded u ok⟩ :: t.log }
  | marked : t.slot = some ⟨m, .running (.marking mk)⟩ → t.row = some r →
      TickLife C d result u t now {
        row := some (mk.row now r)
        slot := some ⟨m, .running .returned⟩
        log := ⟨now, .marked u mk⟩ :: t.log }
  | finished : t.slot = some ⟨m, .running .returned⟩ →
      TickLife C d result u t now { t with slot := some ⟨m, .running .ended⟩ }
  | joined : t.slot = some ⟨m, .running .ended⟩ → TickLife C d result u t now { t with slot := none }

/-- What the row of a fetched mail, `r` at the fetch, is at each phase, and
when the tick is done with the mail. -/
def RowAt (C : Codec) (d : Dispatcher τ) (result : Option CoreError) (m : Mail) (r : Row) (row : Option Row) :
    Option (Phase τ) → Prop
  | some .fetched => row = some r
  | some .claimed | some (.running .spawned) => ∃ claim, row = some (claimedRow claim r)
  | some (.running (.sending tr)) =>
    d.transportFor m.transport = some tr ∧ ∃ claim, row = some (claimedRow claim r)
  | some (.running (.marking mk)) =>
    (∃ sendEnd, d.markFor C m result sendEnd = some mk) ∧ ∃ claim, row = some (claimedRow claim r)
  | some (.running .returned) | some (.running .ended) | none =>
    ∃ at_ r', deliveredRow C d m result at_ r = some r' ∧ row = some r'

/-- How far a tick has come with a mail it fetched. -/
structure Track.Progress (C : Codec) (d : Dispatcher τ) (result : Option CoreError) (m : Mail) (r : Row)
    (t : Track τ) : Prop where
  mail : ∀ x, t.slot = some x → x.mail = m
  row : RowAt C d result m r t.row (t.slot.map Slot.phase)

/-! ## What a delivery leaves in its row -/

variable {C : Codec} {d : Dispatcher τ} {s s' s₁ s₂ : State τ} {now : DateTime} {u : MailId} {t t' : Track τ}

/-- Rows that record the same outcome. -/
structure Row.SameOutcome (r r' : Row) : Prop where
  status : r.status = r'.status
  attempts : r.attempts = r'.attempts
  lastError : r.lastError = r'.lastError

/-- At any clock value a failed send is recorded alike, but for its retry time. -/
theorem onError_row {mail : Mail} {err : CoreError} {now' at_ at' : DateTime} {mk mk' : Mark} {r r' : Row}
    (h : d.onError mail err now = some mk) (h' : d.onError mail err now' = some mk')
    (hr : r.attempts = r'.attempts) : (mk.row at_ r).SameOutcome (mk'.row at' r') := by
  simp only [Dispatcher.onError] at h h'
  split at h
  · next hx =>
    rw [if_pos hx] at h'
    cases h
    cases h'
    exact ⟨rfl, by simp [Mark.row, setStatusRow, hr], rfl⟩
  · next hx =>
    rw [if_neg hx] at h'
    obtain ⟨retryAt, -, rfl⟩ := Option.map_eq_some_iff.1 h
    obtain ⟨retryAt', -, rfl⟩ := Option.map_eq_some_iff.1 h'
    exact ⟨rfl, by simp [Mark.row, setStatusRow, hr], rfl⟩

/-- **The clock decides only the timestamps.** -/
theorem deliveredRow_sameOutcome {mail : Mail} {result : Option CoreError} {k k' : Clocks} {r r₁ r₂ : Row}
    (h₁ : deliveredRow C d mail result k r = some r₁) (h₂ : deliveredRow C d mail result k' r = some r₂) :
    r₁.SameOutcome r₂ := by
  obtain ⟨mk, hmk, rfl⟩ := Option.map_eq_some_iff.1 h₁
  obtain ⟨mk', hmk', rfl⟩ := Option.map_eq_some_iff.1 h₂
  have hattempts : (claimedRow k.claim r).attempts = (claimedRow k'.claim r).attempts := rfl
  simp only [Dispatcher.markFor] at hmk hmk'
  cases htr : d.transportFor mail.transport with
  | none =>
    rw [htr] at hmk hmk'
    cases hmk
    cases hmk'
    exact ⟨rfl, rfl, rfl⟩
  | some tr =>
    rw [htr] at hmk hmk'
    cases result with
    | none =>
      cases hmk
      cases hmk'
      exact ⟨rfl, rfl, rfl⟩
    | some err => exact onError_row hmk hmk' hattempts

theorem Mark.run_of_find {T : Mails} {r : Row} (h : T.find (C.uuidText u) = some r) (mk : Mark) :
    ∃ U, mk.run C T now u = .ok U := by
  cases mk <;> exact setStatus_of_find h

theorem toOption_eq_some {α ε : Type} {x : Except ε α} {a : α} : x.toOption = some a ↔ x = .ok a := by
  cases x <;> simp [Except.toOption]

/-- A delivery writes the row of its mail and no other. -/
theorem claimAndDeliver_find {mail : Mail} {result : Option CoreError} {k : Clocks} {T U : Mails}
    (h : claimAndDeliver C d mail result k T = some U) :
    (∃ r r', T.find (C.uuidText mail.id) = some r ∧ deliveredRow C d mail result k r = some r' ∧
      U.find (C.uuidText mail.id) = some r') ∧
    ∀ u, u ≠ mail.id → U.find (C.uuidText u) = T.find (C.uuidText u) := by
  simp only [claimAndDeliver, Option.bind_eq_bind, Option.bind_eq_some_iff, toOption_eq_some] at h
  obtain ⟨V, hclaim, mk, hmk, hrun⟩ := h
  obtain ⟨r, hr, hrV⟩ := find_setStatus_self hclaim
  obtain ⟨⟨r', hr', hU⟩, hother⟩ := Mark.run_ok hrun
  rw [hrV] at hr'
  cases hr'
  refine ⟨⟨r, _, hr, ?_, hU⟩, fun u hu => (hother u hu).trans (find_setStatus_other hu hclaim)⟩
  rw [deliveredRow, hmk]
  rfl

theorem claimAndDeliver_exists {mail : Mail} {result : Option CoreError} {k : Clocks} {T : Mails} {r r' : Row}
    (hr : T.find (C.uuidText mail.id) = some r) (h : deliveredRow C d mail result k r = some r') :
    ∃ U, claimAndDeliver C d mail result k T = some U := by
  obtain ⟨mk, hmk, -⟩ := Option.map_eq_some_iff.1 h
  obtain ⟨V, hclaim⟩ : ∃ V, markSending C T k.claim mail.id = .ok V := setStatus_of_find hr
  obtain ⟨_, _, hV⟩ := find_setStatus_self hclaim
  obtain ⟨U, hrun⟩ : ∃ U, mk.run C V k.mark mail.id = .ok U := Mark.run_of_find hV mk
  refine ⟨U, ?_⟩
  simp only [claimAndDeliver, Option.bind_eq_bind, Option.bind_eq_some_iff, toOption_eq_some]
  exact ⟨V, hclaim, mk, hmk, hrun⟩

/-- The sequential tick has written the rows of its mails. -/
theorem sequentialTick_find {results : MailId → Option CoreError} {clocks : MailId → Clocks} {due : List Mail}
    {T U : Mails} {processed : Nat} (hn : (due.map Mail.id).Nodup)
    (h : sequentialTick C d results clocks due T = some (U, processed)) :
    processed = due.length ∧
    (∀ m ∈ due, ∃ r r', T.find (C.uuidText m.id) = some r ∧
      deliveredRow C d m (results m.id) (clocks m.id) r = some r' ∧ U.find (C.uuidText m.id) = some r') ∧
    ∀ u, (∀ m ∈ due, m.id ≠ u) → U.find (C.uuidText u) = T.find (C.uuidText u) := by
  induction due generalizing T processed with
  | nil => cases h; exact ⟨rfl, by simp, fun _ _ => rfl⟩
  | cons mail due ih =>
    simp only [sequentialTick, Option.bind_eq_bind, Option.bind_eq_some_iff] at h
    obtain ⟨V, hmail, ⟨U', k⟩, hdue, heq⟩ := h
    cases heq
    obtain ⟨hhead, hother⟩ := claimAndDeliver_find hmail
    obtain ⟨hnot, hn⟩ := List.nodup_cons.1 hn
    have hne : ∀ m ∈ due, m.id ≠ mail.id := fun m hm he => hnot (he ▸ List.mem_map_of_mem hm)
    obtain ⟨hk, hall, hrest⟩ := ih hn hdue
    refine ⟨by rw [hk, List.length_cons], fun m hm => ?_, fun u hu => ?_⟩
    · rcases List.mem_cons.1 hm with rfl | hm
      · obtain ⟨r, r', hr, hd, hr'⟩ := hhead
        exact ⟨r, r', hr, hd, (hrest m.id hne).trans hr'⟩
      · obtain ⟨r, r', hr, hd, hr'⟩ := hall m hm
        exact ⟨r, r', (hother m.id (hne m hm)).symm.trans hr, hd, hr'⟩
    · exact (hrest u fun m hm => hu m (List.mem_cons_of_mem _ hm)).trans
        (hother u (hu mail List.mem_cons_self).symm)

/-- It goes through when no delivery panics. -/
theorem sequentialTick_exists {results : MailId → Option CoreError} (clocks : MailId → Clocks) {due : List Mail}
    {T : Mails} (hn : (due.map Mail.id).Nodup)
    (h : ∀ m ∈ due, ∃ r r', T.find (C.uuidText m.id) = some r ∧
      deliveredRow C d m (results m.id) (clocks m.id) r = some r') :
    ∃ U, sequentialTick C d results clocks due T = some (U, due.length) := by
  induction due generalizing T with
  | nil => exact ⟨T, rfl⟩
  | cons mail due ih =>
    obtain ⟨r, r', hr, hd⟩ := h mail List.mem_cons_self
    obtain ⟨V, hV⟩ := claimAndDeliver_exists hr hd
    obtain ⟨-, hother⟩ := claimAndDeliver_find hV
    obtain ⟨hnot, hn⟩ := List.nodup_cons.1 hn
    obtain ⟨U, hU⟩ := ih (T := V) hn fun m hm => by
      obtain ⟨r, r', hr, hd⟩ := h m (List.mem_cons_of_mem _ hm)
      exact ⟨r, r', (hother m.id fun he => hnot (he ▸ List.mem_map_of_mem hm)).trans hr, hd⟩
    refine ⟨U, ?_⟩
    simp only [sequentialTick, hV, hU, Option.bind_eq_bind, Option.bind_some]
    rfl

/-! ## A step of a tick, mail by mail -/

theorem TickLogged.of_inBatch (hb : s.control.inBatch = true) : TickLogged s := by
  intro tick htick
  cases hc : s.control with
  | claiming | acquiring | joining =>
    rw [hc] at htick
    cases htick
  | _ =>
    rw [hc] at hb
    cases hb

/-- A running slot is that of a task. -/
theorem task_of_slot {m : Mail} {stage : Stage τ} (h : (s.track C u).slot = some ⟨m, .running stage⟩) :
    ⟨m, stage⟩ ∈ s.tasks ∧ m.id = u := by
  obtain ⟨hmem, hid⟩ := Keyed.mem_of_get h
  refine ⟨?_, hid⟩
  rcases List.mem_append.1 hmem with hc | ht
  · cases hcontrol : s.control <;> simp [hcontrol, Control.slots, fetchedSlots] at hc
  · obtain ⟨⟨m', stage'⟩, hmem', heq⟩ := List.mem_map.1 ht
    cases heq
    exact hmem'

/-- **Every step of a tick is such a step in the life of every mail.** -/
theorem TickStep.life {results : MailId → Option CoreError} (h : Exclusive C d s)
    (hs : TickStep C d results s now s') (u : MailId) :
    TickLife C d (results u) u (s.track C u) now (s'.track C u) := by
  obtain ⟨events, hlog, -, hinside⟩ := hs.step.events h (.of_inBatch hs.inBatch)
  obtain ⟨new, hnew, hfaultless⟩ := hs.faultless
  have heq : new = events.map fun e => ⟨now, e⟩ := List.append_cancel_right (hnew.symm.trans hlog)
  -- what the log of the mail gains
  have hgain : ∀ l, (s'.track C u).log = l ++ (s.track C u).log →
      ∀ e ∈ l, e.event.isFault = false ∧ e.event.outsideBatch = false := by
    intro l hl e he
    simp only [State.track, hnew, List.filter_append] at hl
    have hmem : e ∈ new := (List.mem_filter.1 (List.append_cancel_right hl ▸ he)).1
    refine ⟨hfaultless e hmem, ?_⟩
    rw [heq] at hmem
    obtain ⟨ev, hev, rfl⟩ := List.mem_map.1 hmem
    exact hinside hs.inBatch ev hev
  have hanswer : ∀ m tr mk, (s.track C u).slot = some ⟨m, .running (.sending tr)⟩ →
      (s'.track C u).slot = some ⟨m, .running (.marking mk)⟩ → d.outcome m now (results u) = some mk := by
    intro m tr mk hm hm'
    obtain ⟨ht, rfl⟩ := task_of_slot hm
    exact hs.answers m tr mk ht (task_of_slot hm').1
  have hlife := hs.step.life h u
  generalize s.track C u = t at *
  generalize s'.track C u = t' at *
  cases hlife with
  | stay => exact .stay
  | enqueued hrow hid => exact .enqueued hrow hid
  | claimed hslot hrow => exact .claimed hslot hrow
  | spawned hslot => exact .spawned hslot
  | sendStarted hslot htr => exact .sendStarted hslot htr
  | noTransport hslot htr => exact .noTransport hslot htr
  | sendOk hslot | sendErr hslot _ => exact .sendEnded hslot (hanswer _ _ _ hslot rfl)
  | marked hslot hrow => exact .marked hslot hrow
  | finished hslot => exact .finished hslot
  | joined hslot => exact .joined hslot
  | tickStarted | requeued | fetched => cases (hgain [_] rfl _ List.mem_cons_self).2
  | crashed | claimFailed | markFailed | panicked => cases (hgain [_] rfl _ List.mem_cons_self).1
  | sendErrPanicked => cases (hgain [_, _] rfl _ List.mem_cons_self).1

/-! ## How far a tick has come -/

theorem Track.Progress.of_slot {result : Option CoreError} {m : Mail} {r : Row} {phase : Phase τ}
    (hslot : t.slot = some ⟨m, phase⟩) (hrow : RowAt C d result m r t.row (some phase)) :
    t.Progress C d result m r := by
  refine ⟨fun x hx => ?_, by rw [hslot]; exact hrow⟩
  rw [hslot] at hx
  cases hx
  rfl

/-- What a held mail's row is. -/
theorem Track.Progress.held {result : Option CoreError} {m m' : Mail} {r : Row} {phase : Phase τ}
    (h : t.Progress C d result m r) (hslot : t.slot = some ⟨m', phase⟩) :
    m' = m ∧ RowAt C d result m r t.row (some phase) := by
  have hrow := h.row
  rw [hslot] at hrow
  exact ⟨h.mail _ hslot, hrow⟩

theorem TickLife.progress {result : Option CoreError} {m : Mail} {r : Row} (hp : t.Progress C d result m r)
    (h : TickLife C d result u t now t') : t'.Progress C d result m r := by
  cases h with
  | stay => exact hp
  | enqueued hnone =>
    -- a fetched mail has a row
    exfalso
    have hrow := hp.row
    rw [hnone] at hrow
    revert hrow
    cases t.slot with
    | none => simp [RowAt]
    | some x => rcases x with ⟨_, _ | _ | _ | _ | _ | _ | _⟩ <;> simp [RowAt]
  | claimed hslot hr =>
    obtain ⟨rfl, hrow⟩ := hp.held hslot
    rw [hr] at hrow
    cases hrow
    exact .of_slot rfl ⟨now, rfl⟩
  | spawned hslot | finished hslot =>
    obtain ⟨rfl, hrow⟩ := hp.held hslot
    exact .of_slot rfl hrow
  | sendStarted hslot htr =>
    obtain ⟨rfl, hrow⟩ := hp.held hslot
    exact .of_slot rfl ⟨htr, hrow⟩
  | noTransport hslot htr =>
    obtain ⟨rfl, hrow⟩ := hp.held hslot
    exact .of_slot rfl ⟨⟨now, by rw [Dispatcher.markFor, htr]⟩, hrow⟩
  | sendEnded hslot hmk =>
    obtain ⟨rfl, htr, hclaim⟩ := hp.held hslot
    exact .of_slot rfl ⟨⟨now, by rw [Dispatcher.markFor, htr]; exact hmk⟩, hclaim⟩
  | marked hslot hr =>
    obtain ⟨rfl, ⟨sendEnd, hmk⟩, claim, heq⟩ := hp.held hslot
    rw [hr] at heq
    cases heq
    refine .of_slot rfl ⟨⟨claim, sendEnd, now⟩, _, ?_, rfl⟩
    rw [deliveredRow, hmk]
    rfl
  | joined hslot =>
    obtain ⟨-, hrow⟩ := hp.held hslot
    exact ⟨fun x hx => (nomatch hx), hrow⟩

/-- A row the tick did not fetch. -/
theorem TickLife.untouched {result : Option CoreError} {r : Row} (hslot : t.slot = none) (hrow : t.row = some r)
    (h : TickLife C d result u t now t') : t'.slot = none ∧ t'.row = some r := by
  cases h <;> simp_all

/-- The mails of id `u` enqueued after `old` was logged are in their rows, as they were enqueued. -/
structure Track.Arrivals (C : Codec) (old : List (Entry τ)) (t : Track τ) : Prop where
  held : t.row = none → t.slot = none
  added : ∃ new, t.log = new ++ old ∧ ∀ e ∈ new, ∀ mail, e.event = .enqueued mail →
    t.slot = none ∧ t.row = some (mailToRow C mail)

/-- A step of a held mail: nothing of its id was enqueued. -/
theorem Track.Arrivals.of_held {old : List (Entry τ)} {x : Slot τ} (h : t.Arrivals C old)
    (added : List (Entry τ)) (hslot : t.slot = some x) (hrow : t'.row = none → t.row = none)
    (hlog : t'.log = added ++ t.log) (hadded : ∀ e ∈ added, ∀ mail, e.event ≠ .enqueued mail) :
    t'.Arrivals C old := by
  obtain ⟨hheld, new, hnew, hall⟩ := h
  refine ⟨fun hnone => ?_, added ++ new, by rw [hlog, hnew, List.append_assoc], fun e he mail hev => ?_⟩
  · have := hheld (hrow hnone)
    rw [hslot] at this
    cases this
  · rcases List.mem_append.1 he with he | he
    · exact absurd hev (hadded e he mail)
    · have := (hall e he mail hev).1
      rw [hslot] at this
      cases this

theorem TickLife.arrivals {result : Option CoreError} {old : List (Entry τ)} (ha : t.Arrivals C old)
    (h : TickLife C d result u t now t') : t'.Arrivals C old := by
  cases h with
  | stay => exact ha
  | enqueued hnone hid =>
    obtain ⟨hheld, new, hnew, hall⟩ := ha
    refine ⟨fun h => (nomatch h), _ :: new, by simp only [hnew]; rfl, fun e he mail hev => ?_⟩
    rcases List.mem_cons.1 he with rfl | he
    · cases hev
      exact ⟨hheld hnone, rfl⟩
    · have := (hall e he mail hev).2
      rw [hnone] at this
      cases this
  | claimed hslot _ | marked hslot _ => exact ha.of_held [_] hslot (fun h => (nomatch h)) rfl (by simp)
  | sendStarted hslot _ | sendEnded hslot _ => exact ha.of_held [_] hslot id rfl (by simp)
  | spawned hslot | noTransport hslot _ | finished hslot | joined hslot =>
    exact ha.of_held [] hslot id rfl (by simp)

/-! ## The whole tick -/

variable {results : MailId → Option CoreError}

theorem TickSteps.lives (h : Exclusive C d s) (hs : TickSteps C d results s s') (u : MailId) :
    Run (fun t t' => ∃ now, TickLife C d (results u) u t now t') (s.track C u) (s'.track C u) :=
  Run.project (f := fun s => s.track C u) (fun ha ⟨_, hab⟩ => hab.step.exclusive ha)
    (fun ha ⟨now, hab⟩ => ⟨now, hab.life ha u⟩) h hs

/-- What every such step of a life keeps holds of the mail at the end. -/
theorem TickSteps.invariant {I : Track τ → Prop} (h : Exclusive C d s) (hs : TickSteps C d results s s')
    (hI : I (s.track C u)) (step : ∀ {t now t'}, I t → TickLife C d (results u) u t now t' → I t') :
    I (s'.track C u) :=
  Run.invariant (fun ha ⟨_, hab⟩ => step ha hab) hI (hs.lives h u)

/-- The deliveries spawned and the mails not claimed yet are all the mails
fetched; once all are claimed their number is known. -/
def State.Counts (s : State τ) (fetched : Nat) : Prop :=
  match s.control with
  | .claiming due => s.tasks.length + due.length = fetched
  | .acquiring _ due => s.tasks.length + 1 + due.length = fetched
  | .joining processed => processed = fetched
  | _ => True

theorem TickStep.counts {fetched : Nat} (hcounts : s.Counts fetched) (hs : TickStep C d results s now s') :
    s'.Counts fetched := by
  obtain ⟨hstep, hb, hb', ⟨new, hnew, hfaultless⟩, -⟩ := hs
  cases hstep with
  | enqueue | elapse => exact hcounts
  | claim hc _ =>
    simp only [State.Counts, hc, List.length_cons] at hcounts
    simp only [State.Counts, State.emit]
    omega
  | claimFails hc =>
    rename_i m due
    have heq : ([⟨now, .claimFailed m.id⟩] : List (Entry τ)) = new := List.append_cancel_right hnew
    cases hfaultless _ (heq ▸ List.mem_singleton_self _)
  | spawn hc _ =>
    simp only [State.Counts, hc] at hcounts
    simp only [State.Counts, List.length_append, List.length_singleton]
    omega
  | endClaims hc =>
    simp only [State.Counts, hc, List.length_nil] at hcounts
    exact hcounts
  | joinOne hc ht _ =>
    simp only [State.Counts, hc] at hcounts ⊢
    exact hcounts
  | sendStarts | noTransport | sendOk | sendErr | sendErrPanics | mark | markFails | finish | panic =>
    simpa only [State.Counts, State.emit, State.endTask, State.setStage, List.length_set] using hcounts
  | start hc | exit hc | recover hc | recoverFails hc | shutdown hc | tick hc | tickPanics hc | reclaim hc
  | reclaimFails hc | fetchFails hc | fetchNone hc | fetch hc | fetchPanics hc =>
    rw [hc] at hb
    cases hb
  | crash | tickEnds => cases hb'

theorem TickSteps.counts {fetched : Nat} (hcounts : s.Counts fetched) (hs : TickSteps C d results s s') :
    s'.Counts fetched :=
  Run.invariant (I := fun s => s.Counts fetched) (fun ha ⟨_, hab⟩ => hab.counts ha) hcounts hs

theorem Step.fetch_cases {tick : DateTime} {due : List Mail} (hs : Step C d s now s')
    (hc : s.control = .fetching tick) (hc' : s'.control = .claiming due) :
    ∃ scan, scan.Perm s.table.rows ∧ fetchDue C scan d.config.batchSize tick = .ok due ∧
      s' = { s with control := .claiming due, permits := d.config.concurrency }.emit now (due.map .fetched) := by
  cases hs with
  | fetch h hscan hf _ _ =>
    rw [hc] at h
    cases h
    cases hc'
    exact ⟨_, hscan, hf, rfl⟩
  | _ => simp_all [State.emit, State.halt, State.setStage, State.endTask]

theorem Step.tickEnds_cases {processed : Nat} (hs : Step C d s now s') (hc : s.control = .joining processed)
    (hc' : s'.control = .polling) :
    s.tasks = [] ∧ s' = { s with control := .polling }.emit now [.tickEnded processed] := by
  cases hs with
  | tickEnds h ht =>
    rw [hc] at h
    cases h
    exact ⟨ht, rfl⟩
  | _ => simp_all [State.emit, State.halt, State.setStage, State.endTask]

theorem Step.fetchesNone_cases {tick : DateTime} (hs : Step C d s now s') (hc : s.control = .fetching tick)
    (hc' : s'.control = .polling) : s' = { s with control := .polling }.emit now [.tickEnded 0] := by
  cases hs with
  | fetchFails | fetchNone => rfl
  | _ => simp_all [State.emit, State.halt, State.setStage, State.endTask]

/-- A fetch that found mails: each is held, and has the row it had. -/
structure BatchFetched (C : Codec) (s : State τ) (due : List Mail) (s₁ : State τ) : Prop where
  distinct : (due.map Mail.id).Nodup
  rows : ∀ m ∈ due, ∃ r, s.table.find (C.uuidText m.id) = some r
  slot : ∀ u, (s₁.track C u).slot = (Keyed.get Mail.id due u).map fun m => ⟨m, .fetched⟩
  row : ∀ u, (s₁.track C u).row = s.table.find (C.uuidText u)
  log : ∃ now, s₁.log = (due.map .fetched).map (fun e => ⟨now, e⟩) ++ s.log
  counts : s₁.Counts due.length

theorem Step.fetched {tick : DateTime} {due : List Mail} (h : Exclusive C d s) (hs : Step C d s now s₁)
    (hc : s.control = .fetching tick) (hc₁ : s₁.control = .claiming due) : BatchFetched C s due s₁ := by
  obtain ⟨scan, hscan, hf, rfl⟩ := hs.fetch_cases hc hc₁
  obtain ⟨hdue, hn⟩ := fetchDue_ok h.canonical hscan hf
  have hquiet : s.tasks = [] := h.quiet (by rw [hc]; rfl)
  refine ⟨hn, fun m hm => ?_, fun u => ?_, fun _ => rfl, ⟨now, rfl⟩, ?_⟩
  · obtain ⟨r, hr, -, -⟩ := hdue m hm
    exact ⟨r, hr⟩
  · have hslots : ({ s with control := .claiming due, permits := d.config.concurrency }.emit now
        (due.map .fetched)).slots = fetchedSlots due := by
      simp [State.emit, State.slots, Control.slots, hquiet]
    rw [State.track, hslots]
    exact Keyed.get_map _
  · simp [State.Counts, State.emit, hquiet]

/-- When nothing is held any more, the mails fetched are delivered. -/
theorem BatchFetched.delivered {due : List Mail} (hf : BatchFetched C s due s₁) (hx : Exclusive C d s₁)
    (hrun : TickSteps C d results s₁ s₂) {m : Mail} (hm : m ∈ due) (hslot : (s₂.track C m.id).slot = none) :
    ∃ r r' at_, s.table.find (C.uuidText m.id) = some r ∧ deliveredRow C d m (results m.id) at_ r = some r' ∧
      (s₂.track C m.id).row = some r' := by
  obtain ⟨r, hr⟩ := hf.rows m hm
  have hget : Keyed.get Mail.id due m.id = some m := (Keyed.get_eq_some hf.distinct).2 ⟨hm, rfl⟩
  have hfetched : (s₁.track C m.id).slot = some ⟨m, .fetched⟩ := by rw [hf.slot, hget]; rfl
  have hstart : (s₁.track C m.id).Progress C d (results m.id) m r := .of_slot hfetched ((hf.row m.id).trans hr)
  have hend := (TickSteps.invariant (I := Track.Progress C d (results m.id) m r) hx hrun hstart
    TickLife.progress).row
  rw [hslot] at hend
  obtain ⟨at_, r', hd, hr'⟩ := hend
  exact ⟨r, r', at_, hr, hd, hr'⟩

theorem BatchFetched.others {due : List Mail} (hf : BatchFetched C s due s₁) (hx : Exclusive C d s₁)
    (hrun : TickSteps C d results s₁ s₂) (hu : ∀ m ∈ due, m.id ≠ u) {r : Row}
    (hr : s.table.find (C.uuidText u) = some r) : (s₂.track C u).row = some r := by
  have hget : Keyed.get Mail.id due u = none := Keyed.get_eq_none.2 hu
  have hstart : (s₁.track C u).slot = none ∧ (s₁.track C u).row = some r :=
    ⟨by rw [hf.slot, hget]; rfl, (hf.row u).trans hr⟩
  exact (TickSteps.invariant (I := fun t => t.slot = none ∧ t.row = some r) hx hrun hstart
    fun ha hab => hab.untouched ha.1 ha.2).2

theorem BatchFetched.arrived {due : List Mail} (hf : BatchFetched C s due s₁) (hx : Exclusive C d s₁)
    (hrun : TickSteps C d results s₁ s₂) {new : List (Entry τ)} (hlog : s₂.log = new ++ s.log) {e : Entry τ}
    (he : e ∈ new) {mail : Mail} (hev : e.event = .enqueued mail) :
    (s₂.track C mail.id).row = some (mailToRow C mail) := by
  have hstart : (s₁.track C mail.id).Arrivals C (s₁.track C mail.id).log := by
    refine ⟨fun hrow => ?_, [], rfl, by simp⟩
    rw [hf.slot, Option.map_eq_none_iff, Keyed.get_eq_none]
    intro m hm hid
    obtain ⟨r, hr⟩ := hf.rows m hm
    rw [hf.row, ← hid, hr] at hrow
    cases hrow
  obtain ⟨-, added, hadded, hall⟩ :=
    TickSteps.invariant (I := Track.Arrivals C (s₁.track C mail.id).log) hx hrun hstart TickLife.arrivals
  refine (hall e ?_ mail hev).2
  -- the log of the mail gained the fetch, which is no enqueue, and then `added`
  obtain ⟨now, hlog₁⟩ := hf.log
  have hgrown : new.filter (fun e => e.event.about C mail.id) =
      added ++ ((due.map .fetched).map fun e => (⟨now, e⟩ : Entry τ)).filter fun e => e.event.about C mail.id := by
    simp only [State.track, hlog, hlog₁, List.filter_append, ← List.append_assoc] at hadded
    exact List.append_cancel_right hadded
  have he' : e ∈ new.filter fun e => e.event.about C mail.id :=
    List.mem_filter.2 ⟨he, by rw [hev]; exact decide_eq_true rfl⟩
  rw [hgrown, List.mem_append] at he'
  refine he'.resolve_right fun hfetched => ?_
  obtain ⟨ev, hmem, rfl⟩ := List.mem_map.1 (List.mem_filter.1 hfetched).1
  obtain ⟨m, -, rfl⟩ := List.mem_map.1 hmem
  cases hev

/-- What a tick leaves: the rows it delivered, the other rows, and the
mails enqueued meanwhile. -/
structure TickResult (C : Codec) (d : Dispatcher τ) (results : MailId → Option CoreError) (s : State τ)
    (due : List Mail) (processed : Nat) (s' : State τ) : Prop where
  distinct : (due.map Mail.id).Nodup
  processed_eq : processed = due.length
  delivered : ∀ m ∈ due, ∃ r r' at_, s.table.find (C.uuidText m.id) = some r ∧
    deliveredRow C d m (results m.id) at_ r = some r' ∧ s'.table.find (C.uuidText m.id) = some r'
  others : ∀ u r, (∀ m ∈ due, m.id ≠ u) → s.table.find (C.uuidText u) = some r →
    s'.table.find (C.uuidText u) = some r
  arrived : ∀ new, s'.log = new ++ s.log → ∀ e ∈ new, ∀ mail, e.event = .enqueued mail →
    s'.table.find (C.uuidText mail.id) = some (mailToRow C mail)

theorem ParallelTick.result {due : List Mail} {processed : Nat} (h : Exclusive C d s)
    (ht : ParallelTick C d results s due processed s') : TickResult C d results s due processed s' := by
  cases ht with
  | empty hc hs hc' =>
    obtain rfl := hs.fetchesNone_cases hc hc'
    refine ⟨List.nodup_nil, rfl, by simp, fun u r _ hr => hr, fun new hnew e he mail hev => ?_⟩
    have heq : ([⟨_, .tickEnded 0⟩] : List (Entry τ)) = new := List.append_cancel_right hnew
    rw [← heq, List.mem_singleton] at he
    rw [he] at hev
    cases hev
  | batch hc hs hc₁ hrun hjoin hend hc' =>
    rename_i tick now s₁ s₂ now'
    have hf : BatchFetched C s due s₁ := hs.fetched h hc hc₁
    have hx : Exclusive C d s₁ := hs.exclusive h
    obtain ⟨hnone, rfl⟩ := hend.tickEnds_cases hjoin hc'
    refine ⟨hf.distinct, ?_, fun m hm => ?_, fun u r hu hr => hf.others hx hrun hu hr,
      fun new hnew e he mail hev => ?_⟩
    · have hcounts : s₂.Counts due.length := TickSteps.counts hf.counts hrun
      simpa only [State.Counts, hjoin] using hcounts
    · -- nothing is held once the last handle was awaited
      have hslot : (s₂.track C m.id).slot = none := by simp [State.track, State.slots, Control.slots, hjoin, hnone]
      exact hf.delivered hx hrun hm hslot
    · obtain ⟨rest, rfl, hrest⟩ : ∃ rest, new = ⟨now', .tickEnded processed⟩ :: rest ∧ s₂.log = rest ++ s.log := by
        cases new with
        | nil => cases he
        | cons e' rest =>
          obtain ⟨rfl, hrest⟩ := List.cons.inj hnew
          exact ⟨rest, rfl, hrest⟩
      rcases List.mem_cons.1 he with rfl | he
      · cases hev
      · exact hf.arrived hx hrun hrest he hev

/-! ## The same as one after the other -/

/-- A row after a parallel and after a sequential tick: both delivered its
mail, or both left it alone. -/
theorem TickResult.row_cases {due : List Mail} {processed : Nat} (hs : Canonical C s.table)
    (h : TickResult C d results s due processed s') {clocks : MailId → Clocks} {T : Mails} {k : Nat}
    (hT : sequentialTick C d results clocks due s.table = some (T, k)) {r : Row} (hr : r ∈ s.table) :
    (∃ m ∈ due, r.id = C.uuidText m.id ∧ ∃ at_ r₁ r₂, deliveredRow C d m (results m.id) at_ r = some r₁ ∧
      deliveredRow C d m (results m.id) (clocks m.id) r = some r₂ ∧
      s'.table.find r.id = some r₁ ∧ T.find r.id = some r₂) ∨
    s'.table.find r.id = some r ∧ T.find r.id = some r := by
  obtain ⟨-, hdelivered, hothers⟩ := sequentialTick_find h.distinct hT
  obtain ⟨u, hu⟩ := hs r hr
  have hfind : s.table.find (C.uuidText u) = some r := Table.find_eq_some.2 ⟨hr, hu⟩
  rw [hu]
  by_cases hfetched : ∃ m ∈ due, m.id = u
  · obtain ⟨m, hm, rfl⟩ := hfetched
    obtain ⟨r₀, r₁, at_, hr₀, hd₁, hr₁⟩ := h.delivered m hm
    obtain ⟨r₀', r₂, hr₀', hd₂, hr₂⟩ := hdelivered m hm
    rw [hfind] at hr₀ hr₀'
    cases hr₀
    cases hr₀'
    exact .inl ⟨m, hm, rfl, at_, r₁, r₂, hd₁, hd₂, hr₁, hr₂⟩
  · have hnot : ∀ m ∈ due, m.id ≠ u := fun m hm hid => hfetched ⟨m, hm, hid⟩
    exact .inr ⟨h.others u r hnot hfind, (hothers u hnot).trans hfind⟩

/-- The sequential tick at the clock values of a parallel one leaves the same rows. -/
theorem TickResult.replay {due : List Mail} {processed : Nat} (hs : Canonical C s.table)
    (h : TickResult C d results s due processed s') :
    ∃ clocks T, sequentialTick C d results clocks due s.table = some (T, processed) ∧
      ∀ r ∈ s.table, s'.table.find r.id = T.find r.id := by
  have hclock : ∀ u, ∃ at_, ∀ m ∈ due, m.id = u → ∃ r r', s.table.find (C.uuidText m.id) = some r ∧
      deliveredRow C d m (results m.id) at_ r = some r' ∧ s'.table.find (C.uuidText m.id) = some r' := by
    intro u
    by_cases hu : ∃ m ∈ due, m.id = u
    · obtain ⟨m, hm, rfl⟩ := hu
      obtain ⟨r, r', at_, hr, hd, hr'⟩ := h.delivered m hm
      refine ⟨at_, fun m' hm' hid => ?_⟩
      obtain rfl := List.inj_on_of_nodup_map h.distinct hm' hm hid
      exact ⟨r, r', hr, hd, hr'⟩
    · exact ⟨⟨default, default, default⟩, fun m hm hid => absurd ⟨m, hm, hid⟩ hu⟩
  choose clocks hclocks using hclock
  obtain ⟨T, hT⟩ := sequentialTick_exists clocks h.distinct fun m hm => by
    obtain ⟨r, r', hr, hd, -⟩ := hclocks m.id m hm rfl
    exact ⟨r, r', hr, hd⟩
  refine ⟨clocks, T, by rw [hT, h.processed_eq], fun r hr => ?_⟩
  rcases h.row_cases hs hT hr with ⟨m, hm, hid, at_, r₁, r₂, -, hd, -, hr₂⟩ | ⟨hr', hrT⟩
  · obtain ⟨r₀, r', hr₀, hd', hr'⟩ := hclocks m.id m hm rfl
    rw [← hid, Table.find_self hr] at hr₀
    cases hr₀
    rw [hd'] at hd
    cases hd
    rw [hid, hr', ← hid, hr₂]
  · rw [hr', hrT]

/-- At any other clock values it leaves the same outcomes. -/
theorem TickResult.sameOutcome {due : List Mail} {processed : Nat} (hs : Canonical C s.table)
    (h : TickResult C d results s due processed s') {clocks : MailId → Clocks} {T : Mails} {k : Nat}
    (hT : sequentialTick C d results clocks due s.table = some (T, k)) :
    k = processed ∧ ∀ r ∈ s.table, ∃ r₁ r₂, s'.table.find r.id = some r₁ ∧ T.find r.id = some r₂ ∧
      r₁.SameOutcome r₂ := by
  obtain ⟨hk, -⟩ := sequentialTick_find h.distinct hT
  refine ⟨hk.trans h.processed_eq.symm, fun r hr => ?_⟩
  rcases h.row_cases hs hT hr with ⟨m, -, -, at_, r₁, r₂, hd₁, hd₂, hr₁, hr₂⟩ | ⟨hr', hrT⟩
  · exact ⟨r₁, r₂, hr₁, hr₂, deliveredRow_sameOutcome hd₁ hd₂⟩
  · exact ⟨r, r, hr', hrT, rfl, rfl, rfl⟩

/-- **A parallel tick is a sequential one.** From any reachable state, with
any send results, whatever the interleaving: the sequential tick over the
fetched mails can be run at the clock values of the parallel tick, and then
leaves the same row for every mail there was and answers the same number;
at any other clock values it answers that number too, and no status,
attempts or last error differs. Rows that were not fetched stay, and mails
enqueued meanwhile are stored as they were enqueued. -/
theorem parallel_tick_sequential (h : Reachable C d s) {due : List Mail} {processed : Nat}
    (ht : ParallelTick C d results s due processed s') :
    (∃ clocks T, sequentialTick C d results clocks due s.table = some (T, processed) ∧
      ∀ r ∈ s.table, s'.table.find r.id = T.find r.id) ∧
    (∀ clocks T k, sequentialTick C d results clocks due s.table = some (T, k) → k = processed ∧
      ∀ r ∈ s.table, ∃ r₁ r₂, s'.table.find r.id = some r₁ ∧ T.find r.id = some r₂ ∧ r₁.SameOutcome r₂) ∧
    (∀ r ∈ s.table, (∀ m ∈ due, C.uuidText m.id ≠ r.id) → r ∈ s'.table) ∧
    ∀ new, s'.log = new ++ s.log → ∀ e ∈ new, ∀ mail, e.event = .enqueued mail →
      mailToRow C mail ∈ s'.table := by
  have hcanonical : Canonical C s.table := h.exclusive.canonical
  have hresult := ht.result h.exclusive
  refine ⟨hresult.replay hcanonical, fun clocks T k hT => hresult.sameOutcome hcanonical hT, fun r hr hnot => ?_,
    fun new hnew e he mail hev => (Table.find_eq_some.1 (hresult.arrived new hnew e he mail hev)).1⟩
  obtain ⟨u, hu⟩ := hcanonical r hr
  have hother := hresult.others u r (fun m hm hid => hnot m hm (by rw [hid, hu])) (Table.find_eq_some.2 ⟨hr, hu⟩)
  exact (Table.find_eq_some.1 hother).1

/-! ## A tick, computed -/

/-- Whether a step, from the states before and after it, is one of a tick in
which nothing fails and the sends answer as `results` says. -/
def State.goesWell (d : Dispatcher τ) (results : MailId → Option CoreError) (s : State τ) (now : DateTime)
    (s' : State τ) : Bool :=
  s.control.inBatch && s'.control.inBatch &&
    (s'.log.take (s'.log.length - s.log.length)).all (fun e => !e.event.isFault) &&
    s.tasks.all fun t => s'.tasks.all fun t' =>
      match t.stage, t'.stage with
      | .sending _, .marking mark => t.mail ≠ t'.mail || d.outcome t.mail now (results t.mail.id) = some mark
      | _, _ => true

theorem TickStep.of_goesWell {results : MailId → Option CoreError} (h : Exclusive C d s) (hs : Step C d s now s')
    (hw : s.goesWell d results now s' = true) : TickStep C d results s now s' := by
  simp only [State.goesWell, Bool.and_eq_true, List.all_eq_true] at hw
  obtain ⟨⟨⟨hb, hb'⟩, hfaultless⟩, hanswers⟩ := hw
  obtain ⟨events, hlog, -, -⟩ := hs.events h (.of_inBatch hb)
  refine ⟨hs, hb, hb', ⟨_, hlog, fun e he => ?_⟩, fun m tr mk hm hmk => ?_⟩
  · have htake : s'.log.take (s'.log.length - s.log.length) = events.map fun e => ⟨now, e⟩ := by
      rw [hlog, List.length_append, Nat.add_sub_cancel, List.take_left]
    simpa using hfaultless e (htake ▸ he)
  · simpa using hanswers _ hm _ hmk

theorem TickSteps.of_run {results : MailId → Option CoreError} (h : Exclusive C d s)
    {script : List (DateTime × Action)} (hrun : s.runChecked C d (State.goesWell d results) script = some s') :
    TickSteps C d results s s' :=
  Run.of_runChecked (I := Exclusive C d) (fun hI hs hw => ⟨⟨_, .of_goesWell hI hs hw⟩, hs.exclusive hI⟩) h hrun

/-- The batch of the run has been fetched. -/
def claimingState : State Unit :=
  { fetchingState with
    control := .claiming [strayMail, exampleMails 2, letter]
    permits := 8
    log := [⟨firstDay 1, .fetched strayMail⟩, ⟨firstDay 1, .fetched (exampleMails 2)⟩,
      ⟨firstDay 1, .fetched letter⟩] ++ fetchingState.log }

/-- The send of the letter fails, no other does. -/
def letterFails (u : MailId) : Option CoreError := if u = letter.id then some (.transport "451") else none

/-- One mail is claimed while another is being sent, the status writes come
in another order than the claims, and a mail is enqueued in between. -/
theorem runTick_joinedState : claimingState.runChecked textCodec exampleDispatcher
    (State.goesWell exampleDispatcher letterFails)
    (scriptAt (firstDay 1) [.claim true, .spawn, .claim true, .spawn, .deliver 0, .deliver 1, .claim true, .spawn] ++
      scriptAt (firstDay 2) [.deliver 2, .endClaims] ++ scriptAt (firstDay 5) [.enqueue lateMail] ++
      scriptAt (firstDay 6) [.sendOk 1, .sendErr 2 (.transport "451"), .mark 2 true, .mark 0 true] ++
      scriptAt (firstDay 7) [.mark 1 true, .finish 1, .finish 0, .finish 2, .joinOne, .joinOne, .joinOne]) =
    some joinedState := by
  decide +kernel

theorem joinedState_parallelTick : ParallelTick textCodec exampleDispatcher letterFails fetchingState
    [strayMail, exampleMails 2, letter] 3
    { joinedState with control := .polling, log := ⟨firstDay 7, .tickEnded 3⟩ :: joinedState.log } := by
  have hfetch : Step textCodec exampleDispatcher fetchingState (firstDay 1) claimingState :=
    State.exec_step (a := .fetch id) (by decide +kernel)
  have hexclusive : Exclusive textCodec exampleDispatcher claimingState :=
    hfetch.exclusive reachable_fetchingState.reachable.exclusive
  have hends : Step textCodec exampleDispatcher joinedState (firstDay 7)
      { joinedState with control := .polling, log := ⟨firstDay 7, .tickEnded 3⟩ :: joinedState.log } :=
    .tickEnds rfl rfl
  exact .batch rfl hfetch rfl (.of_run hexclusive runTick_joinedState) rfl hends rfl

/-- The tick of the run, and the same three mails one after the other. -/
theorem parallel_tick_sequential_example :
    (∃ clocks T, sequentialTick textCodec exampleDispatcher letterFails clocks [strayMail, exampleMails 2, letter]
        fetchingState.table = some (T, 3) ∧
      ∀ r ∈ fetchingState.table, joinedState.table.find r.id = T.find r.id) ∧
    (∃ T, sequentialTick textCodec exampleDispatcher letterFails (fun _ => ⟨firstDay 9, firstDay 9, firstDay 9⟩)
        [strayMail, exampleMails 2, letter] fetchingState.table = some (T, 3) ∧
      ∀ r ∈ fetchingState.table, ∃ r₁ r₂, joinedState.table.find r.id = some r₁ ∧ T.find r.id = some r₂ ∧
        r₁.SameOutcome r₂) ∧
    mailToRow textCodec lateMail ∈ joinedState.table := by
  obtain ⟨hreplay, hsame, -, harrived⟩ :=
    parallel_tick_sequential reachable_fetchingState.reachable joinedState_parallelTick
  have hsome : (sequentialTick textCodec exampleDispatcher letterFails
      (fun _ => ⟨firstDay 9, firstDay 9, firstDay 9⟩) [strayMail, exampleMails 2, letter]
      fetchingState.table).isSome = true := by decide +kernel
  obtain ⟨⟨T, k⟩, hT⟩ := Option.isSome_iff_exists.1 hsome
  obtain ⟨rfl, houtcome⟩ := hsame _ _ _ hT
  refine ⟨hreplay, ⟨T, hT, houtcome⟩, ?_⟩
  exact harrived (⟨firstDay 7, .tickEnded 3⟩ :: joinedState.log.take 14) rfl ⟨firstDay 5, .enqueued lateMail⟩
    (by decide +kernel) lateMail rfl

end OxidRelay
