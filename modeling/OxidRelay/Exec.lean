/-
The step relation, executed. `State.exec` computes where a step leads that
an `Action` names, and `Step.iff_exec` says that these are the steps there
are. So a run can be written down as a script and computed: what
`State.run` answers is reached (`Steps.of_run`).
-/
import OxidRelay.Dispatcher
import OxidRelay.SqliteFacts
import OxidRelay.TextCodec

namespace OxidRelay

open SqliteQueue

variable {τ : Type} {C : Codec} {d : Dispatcher τ} {s s' : State τ} {now : DateTime}

/-! ## Actions -/

/-- What happens next, with what the dispatcher does not decide: the mail
that is enqueued, whether a statement takes effect, the order of a scan,
which delivery goes on, and how a send ends. -/
inductive Action
  | start
  | crash
  | exit
  | enqueue (mail : Mail)
  | recover (ok : Bool)
  | elapse
  | shutdown
  | tick
  | reclaim (ok : Bool)
  | fetch (order : List Row → List Row)
  | fetchFails
  | claim (ok : Bool)
  | spawn
  | endClaims
  | joinOne
  | tickEnds
  | deliver (i : Nat)
  | sendOk (i : Nat)
  | sendErr (i : Nat) (err : CoreError)
  | mark (i : Nat) (ok : Bool)
  | finish (i : Nat)
  | panic (i : Nat)

/-- One step of the main task that stands at `s.control`. -/
def State.execControl (C : Codec) (d : Dispatcher τ) (s : State τ) (now : DateTime) :
    Control → Action → Option (State τ)
  | .down, .start => some ({ s with control := .starting }.emit now [.started])
  | .stopped, .exit => some (s.halt now .exited)
  | .starting, .recover true =>
    some ({ s with
      table := (requeueSending s.table now).1
      control := .polling
      pollElapsed := true }.emit now (State.requeuedEvents s.table isSending))
  | .starting, .recover false => some { s with control := .polling, pollElapsed := true }
  | .polling, .shutdown => some { s with control := .stopped }
  | .polling, .tick =>
    if s.pollElapsed then
      match d.cutoff now with
      | some cutoff =>
        some ({ s with control := .reclaiming now cutoff, pollElapsed := false }.emit now [.tickStarted])
      | none => some (s.halt now .crashed)
    else none
  | .reclaiming t cutoff, .reclaim true =>
    some ({ s with
      table := (requeueStaleSending s.table now cutoff).1
      control := .fetching t }.emit now (State.requeuedEvents s.table (isStale cutoff)))
  | .reclaiming t _, .reclaim false => some { s with control := .fetching t }
  | .fetching _, .fetchFails => some ({ s with control := .polling }.emit now [.tickEnded 0])
  | .fetching t, .fetch order =>
    if (order s.table.rows).isPerm s.table.rows then
      match fetchDue C (order s.table.rows) d.config.batchSize t with
      | .error _ => none
      | .ok [] => some ({ s with control := .polling }.emit now [.tickEnded 0])
      | .ok (m :: due) =>
        if d.config.concurrency ≤ maxPermits then
          some ({ s with control := .claiming (m :: due), permits := d.config.concurrency }.emit now
            ((m :: due).map .fetched))
        else some (s.halt now .crashed)
    else none
  | .claiming (m :: due), .claim true =>
    match markSending C s.table now m.id with
    | .ok T => some ({ s with table := T, control := .acquiring m due }.emit now [.claimed m.id])
    | .error _ => none
  | .claiming (m :: due), .claim false => some ({ s with control := .claiming due }.emit now [.claimFailed m.id])
  | .claiming [], .endClaims => some { s with control := .joining s.tasks.length }
  | .acquiring m due, .spawn =>
    match s.permits with
    | p + 1 => some { s with control := .claiming due, permits := p, tasks := s.tasks ++ [⟨m, .spawned⟩] }
    | 0 => none
  | .joining _, .joinOne =>
    match s.tasks with
    | t :: ts => if t.alive then none else some { s with tasks := ts }
    | [] => none
  | .joining n, .tickEnds =>
    match s.tasks with
    | [] => some ({ s with control := .polling }.emit now [.tickEnded n])
    | _ => none
  | _, _ => none

/-- One step of the delivery at index `i`. -/
def State.execTask (C : Codec) (d : Dispatcher τ) (s : State τ) (now : DateTime) (i : Nat) (t : Task τ) :
    Stage τ → Action → Option (State τ)
  | .spawned, .deliver _ =>
    match d.transportFor t.mail.transport with
    | some tr => some ((s.setStage i t (.sending tr)).emit now [.sendStarted tr t.mail])
    | none => some (s.setStage i t (.marking (.dead (d.noTransportMessage C t.mail))))
  | .sending _, .sendOk _ => some ((s.setStage i t (.marking .sent)).emit now [.sendEnded t.mail.id true])
  | .sending _, .sendErr _ err =>
    match d.onError t.mail err now with
    | some outcome => some ((s.setStage i t (.marking outcome)).emit now [.sendEnded t.mail.id false])
    | none => some ((s.endTask i t).emit now [.panicked t.mail.id, .sendEnded t.mail.id false])
  | .marking outcome, .mark _ true =>
    match outcome.run C s.table now t.mail.id with
    | .ok T => some ({ s.setStage i t .returned with table := T }.emit now [.marked t.mail.id outcome])
    | .error _ => none
  | .marking _, .mark _ false => some ((s.setStage i t .returned).emit now [.markFailed t.mail.id])
  | .returned, .finish _ => some (s.endTask i t)
  | _, .panic _ => if t.alive then some ((s.endTask i t).emit now [.panicked t.mail.id]) else none
  | _, _ => none

/-- The delivery that an action is about. -/
def Action.task? : Action → Option Nat
  | .deliver i | .sendOk i | .sendErr i _ | .mark i _ | .finish i | .panic i => some i
  | _ => none

/-- The step that an action names, at the clock value `now`. -/
def State.exec (C : Codec) (d : Dispatcher τ) (s : State τ) (now : DateTime) (a : Action) : Option (State τ) :=
  match a with
  | .crash =>
    match s.control with
    | .down => none
    | _ => some (s.halt now .crashed)
  | .enqueue mail =>
    match s.control with
    | .down => none
    | _ =>
      match enqueue C s.table mail with
      | .ok (_, T) => some ({ s with table := T }.emit now [.enqueued mail])
      | .error _ => none
  | .elapse => some { s with pollElapsed := true }
  | a =>
    match a.task? with
    | some i => (s.tasks[i]?).bind fun t => s.execTask C d now i t t.stage a
    | none => s.execControl C d now s.control a

/-! ## Soundness -/

theorem State.execControl_step {c : Control} {a : Action} (hc : s.control = c)
    (h : s.execControl C d now c a = some s') : Step C d s now s' := by
  unfold State.execControl at h
  split at h
  · cases h; exact .start hc
  · cases h; exact .exit hc
  · cases h; exact .recover hc
  · cases h; exact .recoverFails hc
  · cases h; exact .shutdown hc
  · split at h
    · next hp =>
      split at h
      · next hcut => cases h; exact .tick hc hp hcut
      · next hcut => cases h; exact .tickPanics hc hp hcut
    · cases h
  · cases h; exact .reclaim hc
  · cases h; exact .reclaimFails hc
  · cases h; exact .fetchFails hc
  · split at h
    · next hperm =>
      have hscan := List.isPerm_iff.1 hperm
      split at h
      · cases h
      · next hf => cases h; exact .fetchNone hc hscan hf
      · next hf =>
        split at h
        · next hmax => cases h; exact .fetch hc hscan hf (List.cons_ne_nil _ _) hmax
        · next hmax => cases h; exact .fetchPanics hc hscan hf (List.cons_ne_nil _ _) (Nat.lt_of_not_le hmax)
    · cases h
  · split at h
    · next hm => cases h; exact .claim hc hm
    · cases h
  · cases h; exact .claimFails hc
  · cases h; exact .endClaims hc
  · split at h
    · next hp => cases h; exact .spawn hc hp
    · cases h
  · split at h
    · next hts =>
      split at h
      · cases h
      · next hal => cases h; exact .joinOne hc hts (Bool.not_eq_true _ ▸ hal)
    · cases h
  · split at h
    · next hts => cases h; exact .tickEnds hc hts
    · cases h
  · cases h

theorem State.execTask_step {i : Nat} {t : Task τ} {a : Action} (ht : s.tasks[i]? = some t) {stage : Stage τ}
    (hst : t.stage = stage) (h : s.execTask C d now i t stage a = some s') : Step C d s now s' := by
  unfold State.execTask at h
  split at h
  · split at h
    · next htr => cases h; exact .sendStarts ht hst htr
    · next htr => cases h; exact .noTransport ht hst htr
  · cases h; exact .sendOk ht hst
  · split at h
    · next herr => cases h; exact .sendErr ht hst herr
    · next herr => cases h; exact .sendErrPanics ht hst herr
  · split at h
    · next hm => cases h; exact .mark ht hst hm
    · cases h
  · cases h; exact .markFails ht hst
  · cases h; exact .finish ht hst
  · split at h
    · next hal => cases h; exact .panic ht hal
    · cases h
  · cases h

theorem State.exec_step {a : Action} (h : s.exec C d now a = some s') : Step C d s now s' := by
  unfold State.exec at h
  split at h
  · split at h
    · cases h
    · next hc => cases h; exact .crash hc
  · split at h
    · cases h
    · next hc =>
      split at h
      · next hT =>
        cases h
        obtain ⟨rfl, -⟩ := enqueue_ok hT
        exact .enqueue hc hT
      · cases h
  · cases h; exact .elapse
  · split at h
    · obtain ⟨t, ht, h⟩ := Option.bind_eq_some_iff.1 h
      exact State.execTask_step ht rfl h
    · exact State.execControl_step rfl h

/-! ## Completeness -/

theorem Step.exec (h : Step C d s now s') : ∃ a, s.exec C d now a = some s' := by
  cases h with
  | start hc => exact ⟨.start, by simp [State.exec, Action.task?, hc, State.execControl]⟩
  | crash hc => exact ⟨.crash, by cases hx : s.control <;> simp_all [State.exec]⟩
  | exit hc => exact ⟨.exit, by simp [State.exec, Action.task?, hc, State.execControl]⟩
  | enqueue hc hT =>
    rename_i mail T
    exact ⟨.enqueue mail, by cases hx : s.control <;> simp_all [State.exec]⟩
  | recover hc => exact ⟨.recover true, by simp [State.exec, Action.task?, hc, State.execControl]⟩
  | recoverFails hc => exact ⟨.recover false, by simp [State.exec, Action.task?, hc, State.execControl]⟩
  | elapse => exact ⟨.elapse, rfl⟩
  | shutdown hc => exact ⟨.shutdown, by simp [State.exec, Action.task?, hc, State.execControl]⟩
  | tick hc hp hcut | tickPanics hc hp hcut =>
    exact ⟨.tick, by simp [State.exec, Action.task?, hc, State.execControl, hp, hcut]⟩
  | reclaim hc => exact ⟨.reclaim true, by simp [State.exec, Action.task?, hc, State.execControl]⟩
  | reclaimFails hc => exact ⟨.reclaim false, by simp [State.exec, Action.task?, hc, State.execControl]⟩
  | fetchFails hc => exact ⟨.fetchFails, by simp [State.exec, Action.task?, hc, State.execControl]⟩
  | fetchNone hc hscan hf =>
    rename_i scan t
    exact ⟨.fetch fun _ => scan, by
      simp [State.exec, Action.task?, hc, State.execControl, List.isPerm_iff.2 hscan, hf]⟩
  | fetch hc hscan hf hne hmax =>
    rename_i scan t due
    obtain ⟨m, due, rfl⟩ := List.exists_cons_of_ne_nil hne
    exact ⟨.fetch fun _ => scan, by
      simp [State.exec, Action.task?, hc, State.execControl, List.isPerm_iff.2 hscan, hf, hmax]⟩
  | fetchPanics hc hscan hf hne hmax =>
    rename_i scan t due
    obtain ⟨m, due, rfl⟩ := List.exists_cons_of_ne_nil hne
    exact ⟨.fetch fun _ => scan, by
      simp [State.exec, Action.task?, hc, State.execControl, List.isPerm_iff.2 hscan, hf, Nat.not_le.2 hmax]⟩
  | claim hc hm => exact ⟨.claim true, by simp [State.exec, Action.task?, hc, State.execControl, hm]⟩
  | claimFails hc => exact ⟨.claim false, by simp [State.exec, Action.task?, hc, State.execControl]⟩
  | spawn hc hp => exact ⟨.spawn, by simp [State.exec, Action.task?, hc, State.execControl, hp]⟩
  | endClaims hc => exact ⟨.endClaims, by simp [State.exec, Action.task?, hc, State.execControl]⟩
  | joinOne hc hts hal => exact ⟨.joinOne, by simp [State.exec, Action.task?, hc, State.execControl, hts, hal]⟩
  | tickEnds hc hts => exact ⟨.tickEnds, by simp [State.exec, Action.task?, hc, State.execControl, hts]⟩
  | sendStarts ht hst htr =>
    rename_i i t tr
    exact ⟨.deliver i, by simp [State.exec, Action.task?, ht, hst, State.execTask, htr]⟩
  | noTransport ht hst htr =>
    rename_i i t
    exact ⟨.deliver i, by simp [State.exec, Action.task?, ht, hst, State.execTask, htr]⟩
  | sendOk ht hst =>
    rename_i i t tr
    exact ⟨.sendOk i, by simp [State.exec, Action.task?, ht, hst, State.execTask]⟩
  | sendErr ht hst herr =>
    rename_i i t err mk tr
    exact ⟨.sendErr i err, by simp [State.exec, Action.task?, ht, hst, State.execTask, herr]⟩
  | sendErrPanics ht hst herr =>
    rename_i i t err tr
    exact ⟨.sendErr i err, by simp [State.exec, Action.task?, ht, hst, State.execTask, herr]⟩
  | mark ht hst hm =>
    rename_i i t mk T
    exact ⟨.mark i true, by simp [State.exec, Action.task?, ht, hst, State.execTask, hm]⟩
  | markFails ht hst =>
    rename_i i t mk
    exact ⟨.mark i false, by simp [State.exec, Action.task?, ht, hst, State.execTask]⟩
  | finish ht hst =>
    rename_i i t
    exact ⟨.finish i, by simp [State.exec, Action.task?, ht, hst, State.execTask]⟩
  | panic ht hal =>
    rename_i i t
    exact ⟨.panic i, by cases hst : t.stage <;> simp_all [State.exec, Action.task?, State.execTask, Task.alive]⟩

/-- **The actions are the steps there are.** -/
theorem Step.iff_exec : Step C d s now s' ↔ ∃ a, s.exec C d now a = some s' :=
  ⟨Step.exec, fun ⟨_, h⟩ => State.exec_step h⟩

/-! ## Scripts -/

/-- Actions at clock values, one after the other. -/
def State.run (C : Codec) (d : Dispatcher τ) (s : State τ) : List (DateTime × Action) → Option (State τ)
  | [] => some s
  | (now, a) :: script => (s.exec C d now a).bind fun s => s.run C d script

/-- Actions at one clock value. -/
def scriptAt (now : DateTime) (actions : List Action) : List (DateTime × Action) := actions.map fun a => (now, a)

theorem Steps.of_run {script : List (DateTime × Action)} (h : s.run C d script = some s') : Steps C d s s' := by
  induction script generalizing s with
  | nil =>
    cases h
    exact .refl
  | cons e script ih =>
    obtain ⟨x, hx, h⟩ := Option.bind_eq_some_iff.1 h
    exact .head ⟨_, State.exec_step hx⟩ (ih h)

/-- The same, where `ok` holds of each step, by the states before and after it. -/
def State.runChecked (C : Codec) (d : Dispatcher τ) (ok : State τ → DateTime → State τ → Bool) (s : State τ) :
    List (DateTime × Action) → Option (State τ)
  | [] => some s
  | (now, a) :: script => (s.exec C d now a).bind fun s' => if ok s now s' then s'.runChecked C d ok script else none

/-- A run of the steps that `ok` lets pass; `I` is what they keep. -/
theorem Run.of_runChecked {R : State τ → State τ → Prop} {I : State τ → Prop}
    {ok : State τ → DateTime → State τ → Bool} {script : List (DateTime × Action)}
    (step : ∀ {s now s'}, I s → Step C d s now s' → ok s now s' = true → R s s' ∧ I s') (hI : I s)
    (h : s.runChecked C d ok script = some s') : Run R s s' := by
  induction script generalizing s with
  | nil =>
    cases h
    exact .refl
  | cons e script ih =>
    obtain ⟨x, hx, h⟩ := Option.bind_eq_some_iff.1 h
    split at h
    · next hok =>
      obtain ⟨hstep, hI'⟩ := step hI (State.exec_step hx) hok
      exact .head hstep (ih hI' h)
    · cases h

/-! ## A run

A tick over three mails, while a fourth is enqueued: the first names a
transport that there is none of, the second is sent, and the send of the
third fails. In the next tick it is sent again, when the process crashes;
the next process reclaims and sends it once more. -/

/-- One transport, and the tuning a configuration starts from. -/
def exampleDispatcher : Dispatcher Unit := ⟨[("smtp", ())], none, default⟩

/-- 1970-01-01T00:00:00.250Z. -/
def quarterSecond : DateTime := { firstDay 0 with frac := 250000000, frac_lt := by decide, leap := by decide }

def strayMail : Mail := { exampleMails 1 with transport := some "pager" }

/-- With display names, one of them empty, and several recipients. -/
def letter : Mail :=
  Mail.fromNew
    ⟨⟨"relay@example.com", some "Relay"⟩, [⟨"ziel@example.com", some ""⟩, Address.new "kopie@example.com"], "Status",
      "Okay", some "smtp"⟩ quarterSecond ⟨3⟩

def lateMail : Mail :=
  { exampleMails 4 with createdAt := firstDay 5, updatedAt := firstDay 5, nextAttemptAt := firstDay 5 }

/-- The letter as it is fetched when its send failed, and after the crash. -/
def letterAgain : Mail :=
  { letter with
    status := .failed
    attempts := 1
    lastError := some "transport error: 451"
    updatedAt := firstDay 6
    nextAttemptAt := firstDay 36 }

def letterReclaimed : Mail :=
  { letter with attempts := 1, updatedAt := firstDay 1000, nextAttemptAt := firstDay 36 }

def strayMessage : String := "no transport available (requested Some(\"pager\"), default None)"

/-- The row of a mail when it was claimed, and when it was sent after that. -/
def claimedAt (now : DateTime) (mail : Mail) : Row :=
  setStatusRow now .sending none false none (mailToRow textCodec mail)

def sentAt (now claimed : DateTime) (mail : Mail) : Row :=
  setStatusRow now .sent none false none (claimedAt claimed mail)

/-- The row of the mail without a transport. -/
def strayDead : Row :=
  setStatusRow (firstDay 6) .dead (some strayMessage) true none (claimedAt (firstDay 1) strayMail)

/-- A tick is about to fetch three mails. -/
def fetchingState : State Unit where
  table := ⟨[strayMail, exampleMails 2, letter].map (mailToRow textCodec), by decide +kernel⟩
  control := .fetching (firstDay 1)
  tasks := []
  permits := 0
  pollElapsed := false
  log := [⟨firstDay 1, .tickStarted⟩, ⟨quarterSecond, .enqueued letter⟩, ⟨firstDay 0, .enqueued (exampleMails 2)⟩,
    ⟨firstDay 0, .enqueued strayMail⟩, ⟨firstDay 0, .started⟩]

/-- Two of them are being sent, and a fourth was enqueued. -/
def sendsState : State Unit where
  table := ⟨[claimedAt (firstDay 1) strayMail, claimedAt (firstDay 1) (exampleMails 2), claimedAt (firstDay 1) letter,
    mailToRow textCodec lateMail], by decide +kernel⟩
  control := .joining 3
  tasks := [⟨strayMail, .marking (.dead strayMessage)⟩, ⟨exampleMails 2, .sending ()⟩, ⟨letter, .sending ()⟩]
  permits := 5
  pollElapsed := false
  log := [⟨firstDay 5, .enqueued lateMail⟩, ⟨firstDay 2, .sendStarted () letter⟩,
    ⟨firstDay 1, .claimed ⟨3⟩⟩, ⟨firstDay 1, .sendStarted () (exampleMails 2)⟩, ⟨firstDay 1, .claimed ⟨2⟩⟩,
    ⟨firstDay 1, .claimed ⟨1⟩⟩, ⟨firstDay 1, .fetched strayMail⟩, ⟨firstDay 1, .fetched (exampleMails 2)⟩,
    ⟨firstDay 1, .fetched letter⟩] ++ fetchingState.log

/-- The deliveries have ended and were joined. -/
def joinedState : State Unit where
  table := ⟨[strayDead, sentAt (firstDay 7) (firstDay 1) (exampleMails 2), mailToRow textCodec letterAgain,
    mailToRow textCodec lateMail], by decide +kernel⟩
  control := .joining 3
  tasks := []
  permits := 8
  pollElapsed := false
  log := [⟨firstDay 7, .marked ⟨2⟩ .sent⟩, ⟨firstDay 6, .marked ⟨1⟩ (.dead strayMessage)⟩,
    ⟨firstDay 6, .marked ⟨3⟩ (.failed "transport error: 451" (firstDay 36))⟩, ⟨firstDay 6, .sendEnded ⟨3⟩ false⟩,
    ⟨firstDay 6, .sendEnded ⟨2⟩ true⟩] ++ sendsState.log

/-- In the next tick the fourth mail was sent and the letter is sent again. -/
def retryState : State Unit where
  table := ⟨[strayDead, sentAt (firstDay 7) (firstDay 1) (exampleMails 2), claimedAt (firstDay 41) letterAgain,
    sentAt (firstDay 41) (firstDay 40) lateMail], by decide +kernel⟩
  control := .claiming []
  tasks := [⟨lateMail, .returned⟩, ⟨letterAgain, .sending ()⟩]
  permits := 6
  pollElapsed := false
  log := [⟨firstDay 41, .sendStarted () letterAgain⟩, ⟨firstDay 41, .claimed ⟨3⟩⟩, ⟨firstDay 41, .marked ⟨4⟩ .sent⟩,
    ⟨firstDay 41, .sendEnded ⟨4⟩ true⟩, ⟨firstDay 40, .sendStarted () lateMail⟩, ⟨firstDay 40, .claimed ⟨4⟩⟩,
    ⟨firstDay 40, .fetched lateMail⟩, ⟨firstDay 40, .fetched letterAgain⟩, ⟨firstDay 40, .tickStarted⟩,
    ⟨firstDay 7, .tickEnded 3⟩] ++ joinedState.log

/-- The process crashed meanwhile, and the next one could not recover. -/
def restartedState : State Unit :=
  { retryState with
    control := .polling
    tasks := []
    pollElapsed := true
    log := [⟨firstDay 43, .started⟩, ⟨firstDay 42, .crashed⟩] ++ retryState.log }

/-- Its tick has reclaimed the letter and is about to fetch it. -/
def reclaimedState : State Unit where
  table := ⟨[strayDead, sentAt (firstDay 7) (firstDay 1) (exampleMails 2), mailToRow textCodec letterReclaimed,
    sentAt (firstDay 41) (firstDay 40) lateMail], by decide +kernel⟩
  control := .fetching (firstDay 1000)
  tasks := []
  permits := 6
  pollElapsed := false
  log := [⟨firstDay 1000, .requeued (textCodec.uuidText ⟨3⟩)⟩, ⟨firstDay 1000, .tickStarted⟩] ++ restartedState.log

/-- It is sent for the third time. -/
def resentState : State Unit :=
  { reclaimedState with
    table := ⟨[strayDead, sentAt (firstDay 7) (firstDay 1) (exampleMails 2),
      claimedAt (firstDay 1000) letterReclaimed, sentAt (firstDay 41) (firstDay 40) lateMail], by decide +kernel⟩
    control := .claiming []
    tasks := [⟨letterReclaimed, .sending ()⟩]
    permits := 7
    log := [⟨firstDay 1000, .sendStarted () letterReclaimed⟩, ⟨firstDay 1000, .claimed ⟨3⟩⟩,
      ⟨firstDay 1000, .fetched letterReclaimed⟩] ++ reclaimedState.log }

theorem run_fetchingState : (State.initial Table.empty).run textCodec exampleDispatcher
    (scriptAt (firstDay 0) [.start, .recover true, .enqueue strayMail, .enqueue (exampleMails 2)] ++
      scriptAt quarterSecond [.enqueue letter] ++ scriptAt (firstDay 1) [.tick, .reclaim true]) =
    some fetchingState := rfl

theorem run_sendsState : fetchingState.run textCodec exampleDispatcher
    (scriptAt (firstDay 1) [.fetch id, .claim true, .spawn, .claim true, .spawn, .deliver 0, .deliver 1, .claim true,
      .spawn] ++ scriptAt (firstDay 2) [.deliver 2, .endClaims] ++ scriptAt (firstDay 5) [.enqueue lateMail]) =
    some sendsState := by decide +kernel

theorem run_joinedState : sendsState.run textCodec exampleDispatcher
    (scriptAt (firstDay 6) [.sendOk 1, .sendErr 2 (.transport "451"), .mark 2 true, .mark 0 true] ++
      scriptAt (firstDay 7) [.mark 1 true, .finish 1, .finish 0, .finish 2, .joinOne, .joinOne, .joinOne]) =
    some joinedState := rfl

theorem run_retryState : joinedState.run textCodec exampleDispatcher
    (scriptAt (firstDay 7) [.tickEnds] ++
      scriptAt (firstDay 40) [.elapse, .tick, .reclaim true, .fetch id, .claim true, .spawn, .deliver 0] ++
      scriptAt (firstDay 41) [.sendOk 0, .mark 0 true, .claim true, .spawn, .deliver 1]) =
    some retryState := by decide +kernel

theorem run_restartedState : retryState.run textCodec exampleDispatcher
    [(firstDay 42, .crash), (firstDay 43, .start), (firstDay 43, .recover false)] = some restartedState := rfl

theorem run_reclaimedState : restartedState.run textCodec exampleDispatcher
    (scriptAt (firstDay 1000) [.tick, .reclaim true]) = some reclaimedState := rfl

theorem run_resentState : reclaimedState.run textCodec exampleDispatcher
    (scriptAt (firstDay 1000) [.fetch id, .claim true, .spawn, .deliver 0]) = some resentState := by decide +kernel

theorem reachable_fetchingState : ReachableFromEmpty textCodec exampleDispatcher fetchingState :=
  Steps.of_run run_fetchingState

theorem reachable_sendsState : ReachableFromEmpty textCodec exampleDispatcher sendsState :=
  reachable_fetchingState.trans (Steps.of_run run_sendsState)

theorem reachable_joinedState : ReachableFromEmpty textCodec exampleDispatcher joinedState :=
  reachable_sendsState.trans (Steps.of_run run_joinedState)

theorem reachable_retryState : ReachableFromEmpty textCodec exampleDispatcher retryState :=
  reachable_joinedState.trans (Steps.of_run run_retryState)

theorem reachable_restartedState : ReachableFromEmpty textCodec exampleDispatcher restartedState :=
  reachable_retryState.trans (Steps.of_run run_restartedState)

theorem reachable_reclaimedState : ReachableFromEmpty textCodec exampleDispatcher reclaimedState :=
  reachable_restartedState.trans (Steps.of_run run_reclaimedState)

theorem reachable_resentState : ReachableFromEmpty textCodec exampleDispatcher resentState :=
  reachable_reclaimedState.trans (Steps.of_run run_resentState)

end OxidRelay
