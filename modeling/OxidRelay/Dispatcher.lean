/-
The dispatcher (`oxid-relay-dispatcher`) over its queue, as a step
relation: one process at a time runs `Dispatcher::run`, whose main task
recovers, polls, reclaims, fetches, claims, spawns and joins, while the
delivery tasks it spawned and the ingress go on beside it. Any process
state can crash; a new process then starts on the table that is left.

Every queue statement is one step, so anything may happen between two of
them. A statement that SQLite fails to execute is a step of its own which
changes nothing. Every step reads the wall clock at most once, the `now`
it is labelled with.

The `log` is no part of the program: it records what happened, newest
first, for the statements about whole runs.
-/
import OxidRelay.Lib.Run
import OxidRelay.Retry
import OxidRelay.Sqlite

namespace OxidRelay

open SqliteQueue

/-! ## Configuration -/

/-- Tuning knobs of the dispatcher. -/
structure DispatcherConfig where
  /-- Mails fetched per polling tick. -/
  batchSize : UInt32
  /-- Mails delivered concurrently. -/
  concurrency : Nat
  /-- Time a mail may stay in flight before it is reclaimed. -/
  sendingLease : Duration
  retry : RetryPolicy

/-- `DispatcherConfig::default`. -/
instance : Inhabited DispatcherConfig := ⟨64, 8, .fromSecs 120 (by decide), default⟩

/-- The transports by name, the default transport and the tuning. -/
structure Dispatcher (τ : Type) where
  transports : List (String × τ)
  defaultTransport : Option String
  config : DispatcherConfig

variable {τ : Type}

/-- `tokio::sync::Semaphore::MAX_PERMITS`; more permits panic. -/
def maxPermits : Nat := (2 ^ 64 - 1) / 2 ^ 3

/-! ## deliver, step by step -/

/-- The status write a delivery ends with. -/
inductive Mark
  | sent
  | failed (error : String) (retryAt : DateTime)
  | dead (error : String)
  deriving DecidableEq

def Mark.run (C : Codec) (T : Mails) (now : DateTime) (id : MailId) : Mark → Except CoreError Mails
  | .sent => markSent C T now id
  | .failed error retryAt => markFailed C T now id error retryAt
  | .dead error => markDead C T now id error

namespace Dispatcher

/-- The transport a mail with the given own transport name is sent on. -/
def transportFor (d : Dispatcher τ) (own : Option String) : Option τ :=
  (own.or d.defaultTransport).bind fun name => d.transports.lookup name

/-- `{:?}` of an optional string. -/
def debugOption (C : Codec) : Option String → String
  | none => "None"
  | some s => "Some(" ++ C.debugText s ++ ")"

def noTransportMessage (C : Codec) (d : Dispatcher τ) (mail : Mail) : String :=
  "no transport available (requested " ++ debugOption C mail.transport ++ ", default " ++
    debugOption C d.defaultTransport ++ ")"

/-- What follows a failed send; none when computing `retry_at` panics. -/
def onError (d : Dispatcher τ) (mail : Mail) (err : CoreError) (now : DateTime) : Option Mark :=
  let attempts := mail.attempts + 1
  let message := err.toString
  if d.config.retry.isExhausted attempts then some (.dead message)
  else
    let delay := d.config.retry.backoff attempts
    (now.checkedAdd (delay.toChrono.getD (chronoSeconds 60))).map fun retryAt => .failed message retryAt

/-- `now - lease`, the cutoff of the reclaim; none when it panics. -/
def cutoff (d : Dispatcher τ) (now : DateTime) : Option DateTime :=
  now.checkedSub (d.config.sendingLease.toChrono.getD (chronoSeconds 120))

end Dispatcher

/-! ## States -/

/-- How far a spawned delivery has come. -/
inductive Stage (τ : Type)
  /-- `deliver` has not started. -/
  | spawned
  /-- `transport.send` is in progress. -/
  | sending (transport : τ)
  /-- The outcome is known and its status write comes next. -/
  | marking (mark : Mark)
  /-- `deliver` has returned; the permit is still held. -/
  | returned
  /-- Finished or panicked; the permit is dropped. -/
  | ended
  deriving DecidableEq

/-- A spawned delivery task with the snapshot of the mail it delivers. -/
structure Task (τ : Type) where
  mail : Mail
  stage : Stage τ
  deriving DecidableEq

def Task.alive (t : Task τ) : Bool :=
  match t.stage with
  | .ended => false
  | _ => true

/-- Where the main task of the process stands. -/
inductive Control
  /-- No process runs. -/
  | down
  /-- Before `recover`. -/
  | starting
  /-- In the `select!` between two ticks. -/
  | polling
  /-- In a tick that began at `now`, before `requeue_stale_sending(cutoff)`. -/
  | reclaiming (now cutoff : DateTime)
  /-- In a tick that began at `now`, before `fetch_due`. -/
  | fetching (now : DateTime)
  /-- At the head of the claim loop, with the mails not claimed yet. -/
  | claiming (due : List Mail)
  /-- Waiting for a permit for a claimed mail. -/
  | acquiring (mail : Mail) (due : List Mail)
  /-- Awaiting the join handles. -/
  | joining (processed : Nat)
  /-- `run` has returned. -/
  | stopped
  deriving DecidableEq

/-- What the log records. -/
inductive Event (τ : Type)
  | started
  | crashed
  | exited
  | enqueued (mail : Mail)
  | requeued (key : String)
  | tickStarted
  | fetched (mail : Mail)
  | claimed (id : MailId)
  | claimFailed (id : MailId)
  | sendStarted (transport : τ) (mail : Mail)
  | sendEnded (id : MailId) (ok : Bool)
  | marked (id : MailId) (mark : Mark)
  | markFailed (id : MailId)
  | panicked (id : MailId)
  | tickEnded (processed : Nat)
  deriving DecidableEq

structure Entry (τ : Type) where
  time : DateTime
  event : Event τ
  deriving DecidableEq

structure State (τ : Type) where
  table : Mails
  control : Control
  /-- The deliveries spawned in this tick whose handles are not awaited
  yet, in spawn order. -/
  tasks : List (Task τ)
  /-- Free permits of the tick's semaphore. -/
  permits : Nat
  /-- The poll interval has elapsed since the last tick began. -/
  pollElapsed : Bool
  log : List (Entry τ)
  deriving DecidableEq

namespace State

/-- Records events, the last of the list first. -/
def emit (s : State τ) (now : DateTime) (events : List (Event τ)) : State τ :=
  { s with log := events.map (fun e => ⟨now, e⟩) ++ s.log }

/-- The process ends, by a crash or because its main task panicked or
returned. Tasks and permits are gone, the table stays. -/
def halt (s : State τ) (now : DateTime) (e : Event τ) : State τ :=
  { s with control := .down, tasks := [], pollElapsed := false }.emit now [e]

/-- The delivery at index `i` moves on to a stage. -/
def setStage (s : State τ) (i : Nat) (t : Task τ) (stage : Stage τ) : State τ :=
  { s with tasks := s.tasks.set i { t with stage } }

/-- The delivery at index `i` ends and drops its permit. -/
def endTask (s : State τ) (i : Nat) (t : Task τ) : State τ :=
  { s.setStage i t .ended with permits := s.permits + 1 }

/-- The rows a requeue resets, as events. -/
def requeuedEvents (T : Mails) (p : Row → Bool) : List (Event τ) := (T.rows.filter p).map fun r => .requeued r.id

end State

/-! ## Steps -/

/-- One step at the clock value `now`. -/
inductive Step (C : Codec) (d : Dispatcher τ) : State τ → DateTime → State τ → Prop
  /- The process. -/
  | start : s.control = .down → Step C d s now ({ s with control := .starting }.emit now [.started])
  | crash : s.control ≠ .down → Step C d s now (s.halt now .crashed)
  | exit : s.control = .stopped → Step C d s now (s.halt now .exited)
  /- The ingress; an enqueue that fails changes nothing. -/
  | enqueue : s.control ≠ .down → enqueue C s.table mail = .ok (mail, T) →
      Step C d s now ({ s with table := T }.emit now [.enqueued mail])
  /- `recover`, then the loop of `run`. -/
  | recover : s.control = .starting →
      Step C d s now ({ s with
        table := (requeueSending s.table now).1
        control := .polling
        pollElapsed := true }.emit now (State.requeuedEvents s.table isSending))
  | recoverFails : s.control = .starting →
      Step C d s now { s with control := .polling, pollElapsed := true }
  | elapse : Step C d s now { s with pollElapsed := true }
  | shutdown : s.control = .polling → Step C d s now { s with control := .stopped }
  | tick : s.control = .polling → s.pollElapsed = true → d.cutoff now = some cutoff →
      Step C d s now ({ s with control := .reclaiming now cutoff, pollElapsed := false }.emit now [.tickStarted])
  | tickPanics : s.control = .polling → s.pollElapsed = true → d.cutoff now = none →
      Step C d s now (s.halt now .crashed)
  /- `tick`. -/
  | reclaim : s.control = .reclaiming t cutoff →
      Step C d s now ({ s with
        table := (requeueStaleSending s.table now cutoff).1
        control := .fetching t }.emit now (State.requeuedEvents s.table (isStale cutoff)))
  | reclaimFails : s.control = .reclaiming t cutoff → Step C d s now { s with control := .fetching t }
  /- The query failed or a row did not decode. -/
  | fetchFails : s.control = .fetching t →
      Step C d s now ({ s with control := .polling }.emit now [.tickEnded 0])
  | fetchNone : s.control = .fetching t → scan.Perm s.table.rows →
      fetchDue C scan d.config.batchSize t = .ok [] →
      Step C d s now ({ s with control := .polling }.emit now [.tickEnded 0])
  | fetch : s.control = .fetching t → scan.Perm s.table.rows →
      fetchDue C scan d.config.batchSize t = .ok due → due ≠ [] → d.config.concurrency ≤ maxPermits →
      Step C d s now ({ s with control := .claiming due, permits := d.config.concurrency }.emit now
        (due.map .fetched))
  | fetchPanics : s.control = .fetching t → scan.Perm s.table.rows →
      fetchDue C scan d.config.batchSize t = .ok due → due ≠ [] → maxPermits < d.config.concurrency →
      Step C d s now (s.halt now .crashed)
  | claim : s.control = .claiming (m :: due) → markSending C s.table now m.id = .ok T →
      Step C d s now ({ s with table := T, control := .acquiring m due }.emit now [.claimed m.id])
  | claimFails : s.control = .claiming (m :: due) →
      Step C d s now ({ s with control := .claiming due }.emit now [.claimFailed m.id])
  | spawn : s.control = .acquiring m due → s.permits = p + 1 →
      Step C d s now { s with control := .claiming due, permits := p, tasks := s.tasks ++ [⟨m, .spawned⟩] }
  | endClaims : s.control = .claiming [] → Step C d s now { s with control := .joining s.tasks.length }
  | joinOne : s.control = .joining n → s.tasks = t :: ts → t.alive = false →
      Step C d s now { s with tasks := ts }
  | tickEnds : s.control = .joining n → s.tasks = [] →
      Step C d s now ({ s with control := .polling }.emit now [.tickEnded n])
  /- `deliver`. -/
  | sendStarts : s.tasks[i]? = some t → t.stage = .spawned → d.transportFor t.mail.transport = some tr →
      Step C d s now ((s.setStage i t (.sending tr)).emit now [.sendStarted tr t.mail])
  | noTransport : s.tasks[i]? = some t → t.stage = .spawned → d.transportFor t.mail.transport = none →
      Step C d s now (s.setStage i t (.marking (.dead (d.noTransportMessage C t.mail))))
  | sendOk : s.tasks[i]? = some t → t.stage = .sending tr →
      Step C d s now ((s.setStage i t (.marking .sent)).emit now [.sendEnded t.mail.id true])
  | sendErr : s.tasks[i]? = some t → t.stage = .sending tr → d.onError t.mail err now = some mark →
      Step C d s now ((s.setStage i t (.marking mark)).emit now [.sendEnded t.mail.id false])
  | sendErrPanics : s.tasks[i]? = some t → t.stage = .sending tr → d.onError t.mail err now = none →
      Step C d s now ((s.endTask i t).emit now [.panicked t.mail.id, .sendEnded t.mail.id false])
  | mark : s.tasks[i]? = some t → t.stage = .marking mk → mk.run C s.table now t.mail.id = .ok T →
      Step C d s now ({ s.setStage i t .returned with table := T }.emit now [.marked t.mail.id mk])
  | markFails : s.tasks[i]? = some t → t.stage = .marking mk →
      Step C d s now ((s.setStage i t .returned).emit now [.markFailed t.mail.id])
  | finish : s.tasks[i]? = some t → t.stage = .returned → Step C d s now (s.endTask i t)
  | panic : s.tasks[i]? = some t → t.alive = true →
      Step C d s now ((s.endTask i t).emit now [.panicked t.mail.id])

/-! ## Runs -/

/-- Before any process: a table, nothing else. -/
def State.initial (T : Mails) : State τ where
  table := T
  control := .down
  tasks := []
  permits := 0
  pollElapsed := false
  log := []

/-- Any number of steps at any clock values. -/
abbrev Steps (C : Codec) (d : Dispatcher τ) : State τ → State τ → Prop := Run fun s s' => ∃ now, Step C d s now s'

/-- A table as the queue leaves it: every id is the text of a UUID. -/
def Canonical (C : Codec) (T : Mails) : Prop := ∀ r ∈ T, ∃ u, r.id = C.uuidText u

/-- The states of all runs over a queue, whatever mails it held before. -/
def Reachable (C : Codec) (d : Dispatcher τ) (s : State τ) : Prop :=
  ∃ T, Canonical C T ∧ Steps C d (State.initial T) s

/-- The states of all runs over a queue that starts empty. -/
def ReachableFromEmpty (C : Codec) (d : Dispatcher τ) (s : State τ) : Prop :=
  Steps C d (State.initial Table.empty) s

end OxidRelay
