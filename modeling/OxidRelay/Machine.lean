/-
Any number of relay processes on one machine, over one configuration: the
service manager starts the relay again after a crash, an operator starts it
beside the service. The processes share the queue and nothing else. Each
takes the instance lock before it opens the queue, and one that does not
get the lock ends at once.

With a database that the lock guards, what the processes do to the queue is
what the relay does with one process at a time (`machine_refines_relay`).
That the next process starts from what the last one left is why it may be
taken for the same process started again: only its semaphore is another,
and a semaphore does not outlive its tick.
-/
import OxidRelay.Instances
import OxidRelay.RelayRuns

namespace OxidRelay

variable {τ : Type}

/-! ## Processes -/

/-- A process, with what it has of the relay besides the queue. -/
structure Worker (τ : Type) where
  process : Process
  control : Control
  tasks : List (Task τ)
  permits : Nat
  pollElapsed : Bool
  clients : List Client

namespace Worker

/-- A process that has its lock and has not begun to dispatch. -/
def launched (database : String) (lock : Option String) : Worker τ :=
  ⟨⟨database, lock, false⟩, .down, [], 0, false, []⟩

/-- The process after a step of its relay. -/
def after (w : Worker τ) (r : Relay τ) : Worker τ where
  process := { w.process with dispatching := true }
  control := r.state.control
  tasks := r.state.tasks
  permits := r.state.permits
  pollElapsed := r.state.pollElapsed
  clients := r.clients

end Worker

/-- The processes by process id, and the queue. -/
structure Machine (τ : Type) where
  workers : Nat → Option (Worker τ)
  table : Mails
  log : List (Entry τ)
  submissions : List Submission
  answers : List Answer

namespace Machine

/-- No process, and an empty queue. -/
def initial : Machine τ := ⟨fun _ => none, Table.empty, [], [], []⟩

def processes (m : Machine τ) : Processes := Option.map Worker.process ∘ m.workers

/-- The relay as a process has it before it. -/
def view (m : Machine τ) (w : Worker τ) : Relay τ where
  state := ⟨m.table, w.control, w.tasks, w.permits, w.pollElapsed, m.log⟩
  clients := w.clients
  submissions := m.submissions
  answers := m.answers

/-- The process `pid` has become `o`, and the queue is that of `r`. -/
def put (m : Machine τ) (pid : Nat) (o : Option (Worker τ)) (r : Relay τ) : Machine τ where
  workers := Function.update m.workers pid o
  table := r.state.table
  log := r.state.log
  submissions := r.submissions
  answers := r.answers

/-- A step of one process. A lock that is taken now was free, and a process
that is refused is not seen at all. -/
inductive Step (C : Codec) (X : Externals) (config : Config) (d : Dispatcher τ) : Machine τ → Machine τ → Prop
  | launch (pid : Nat) : m.workers pid = none →
      (∀ path, tryLock path = .locked → ∀ pid' p, m.processes pid' = some p → p.lock ≠ some path) →
      acquireInstanceLock tryLock config.queue.database = .ok lock →
      Step C X config d m
        { m with workers := Function.update m.workers pid (some (.launched config.queue.database lock)) }
  | runs (pid : Nat) : m.workers pid = some w → Relay.Step C X config d (m.view w) r → r.state.control ≠ .down →
      Step C X config d m (m.put pid (some (w.after r)) r)
  | ends (pid : Nat) : m.workers pid = some w → w.control ≠ .down → Relay.Step C X config d (m.view w) r →
      r.state.control = .down → Step C X config d m (m.put pid none r)
  /- It could not open the queue, or was stopped before it dispatched. -/
  | quits (pid : Nat) : m.workers pid = some w → w.control = .down →
      Step C X config d m { m with workers := Function.update m.workers pid none }

def Reachable (C : Codec) (X : Externals) (config : Config) (d : Dispatcher τ) (m : Machine τ) : Prop :=
  Run (Step C X config d) .initial m

end Machine

variable {C : Codec} {X : Externals} {config : Config} {d : Dispatcher τ} {s s' : State τ} {now : DateTime}
  {r r' : Relay τ} {m m' : Machine τ} {w : Worker τ}

/-! ## One process at a time -/

namespace Machine

/-- Of the locks, a step of the machine is one of `Instances`. -/
theorem Step.instances (hs : Step C X config d m m') :
    Instances.Step (· = config.queue.database) m.processes m'.processes := by
  cases hs with
  | launch pid hnew hfree hlock =>
    rw [processes, processes, Function.comp_update]
    refine .start ?_ rfl hfree hlock
    rw [Function.comp_apply, hnew]
    rfl
  | runs pid hw =>
    rw [processes, processes, put, Function.comp_update]
    refine .dispatch ?_
    rw [Function.comp_apply, hw]
    rfl
  | ends =>
    rw [processes, processes, put, Function.comp_update]
    exact .exit
  | quits =>
    rw [processes, processes, Function.comp_update]
    exact .exit

/-- The lock lets one process through. -/
theorem Reachable.single (h : Reachable C X config d m) (hv : config.validate = .ok ())
    (hmemory : Str.contains config.queue.database ":memory:" = false) {pid pid' : Nat} {w w' : Worker τ}
    (hw : m.workers pid = some w) (hw' : m.workers pid' = some w') : pid = pid' := by
  have hrun : Run (Instances.Step (· = config.queue.database)) Instances.idle m.processes :=
    Run.project (I := fun _ => True) (fun _ _ => trivial) (fun _ hs => hs.instances) trivial h
  have hinv := Instances.Inv.run hrun
  have hlock {pid : Nat} {w : Worker τ} (hw : m.workers pid = some w) :
      m.processes pid = some w.process ∧ w.process.lock = some (lockPath config.queue.database) := by
    have hp : m.processes pid = some w.process := by rw [processes, Function.comp_apply, hw]; rfl
    have hdatabase : w.process.database = config.queue.database := hinv.database pid _ hp
    have hlocked := hinv.locked pid _ hp
    rw [hdatabase] at hlocked
    exact ⟨hp, hlocked hmemory (Config.validate_ok hv).1⟩
  exact hinv.exclusive pid pid' _ _ _ (hlock hw).1 (hlock hw').1 (hlock hw).2 (hlock hw').2

end Machine

/-! ## A semaphore does not outlive its tick -/

/-- Between two batches a step goes the same way whatever permits are left. -/
theorem Step.permits {n : Nat} (hs : Step C d { s with permits := n } now s') (hbatch : s.control.inBatch = false)
    (htasks : s.tasks = []) :
    ∃ s'', Step C d s now s'' ∧ s' = { s'' with permits := s'.permits } ∧
      (s'.control.inBatch = true → s'.permits = s''.permits) := by
  have hnot {t : Task τ} {i : Nat} (ht : s.tasks[i]? = some t) : False := by simp [htasks] at ht
  have houtside {n k : Nat} : s.control.inBatch = true → n = k := fun h => by rw [hbatch] at h; cases h
  cases hs with
  | start hc => exact ⟨_, .start hc, rfl, nofun⟩
  | crash hc => exact ⟨_, .crash hc, rfl, nofun⟩
  | exit hc => exact ⟨_, .exit hc, rfl, nofun⟩
  | enqueue hc he => exact ⟨_, .enqueue hc he, rfl, houtside⟩
  | recover hc => exact ⟨_, .recover hc, rfl, nofun⟩
  | recoverFails hc => exact ⟨_, .recoverFails hc, rfl, nofun⟩
  | elapse => exact ⟨_, .elapse, rfl, houtside⟩
  | shutdown hc => exact ⟨_, .shutdown hc, rfl, nofun⟩
  | tick hc hp hcut => exact ⟨_, .tick hc hp hcut, rfl, nofun⟩
  | tickPanics hc hp hcut => exact ⟨_, .tickPanics hc hp hcut, rfl, nofun⟩
  | reclaim hc => exact ⟨_, .reclaim hc, rfl, nofun⟩
  | reclaimFails hc => exact ⟨_, .reclaimFails hc, rfl, nofun⟩
  | fetchFails hc => exact ⟨_, .fetchFails hc, rfl, nofun⟩
  | fetchNone hc hscan hf => exact ⟨_, .fetchNone hc hscan hf, rfl, nofun⟩
  | fetch hc hscan hf hne hle => exact ⟨_, .fetch hc hscan hf hne hle, rfl, fun _ => rfl⟩
  | fetchPanics hc hscan hf hne hlt => exact ⟨_, .fetchPanics hc hscan hf hne hlt, rfl, nofun⟩
  | claim hc | claimFails hc | spawn hc | endClaims hc | joinOne hc | tickEnds hc =>
    have hc : s.control = _ := hc
    rw [hc] at hbatch
    cases hbatch
  | sendStarts ht | noTransport ht | sendOk ht | sendErr ht | sendErrPanics ht | mark ht | markFails ht | finish ht
  | panic ht => exact (hnot ht).elim

/-- The same of the relay. -/
theorem Relay.Step.permits {n : Nat} (hr : Relay.Reachable C X config d r)
    (hs : Relay.Step C X config d { r with state := { r.state with permits := n } } r')
    (hn : r.state.control.inBatch = true → n = r.state.permits) :
    ∃ r'', Relay.Step C X config d r r'' ∧
      r' = { r'' with state := { r''.state with permits := r'.state.permits } } ∧
      (r'.state.control.inBatch = true → r'.state.permits = r''.state.permits) := by
  by_cases hbatch : r.state.control.inBatch = true
  · rw [hn hbatch] at hs
    exact ⟨r', hs, rfl, fun _ => rfl⟩
  have hout : r.state.control.inBatch = false := by simpa using hbatch
  have htasks : r.state.tasks = [] := hr.sound.queue.reachable.exclusive.quiet hout
  have houtside {n k : Nat} : r.state.control.inBatch = true → n = k := fun h => absurd h hbatch
  cases hs with
  | own hown hup =>
    obtain ⟨s'', hs, heq, hpermits⟩ := hown.step.permits hout htasks
    rw [heq] at hown hup
    exact ⟨_, .own ⟨hs, hown.own⟩ hup, congrArg (fun s => { r with state := s }) heq, hpermits⟩
  | down hown hdown =>
    obtain ⟨s'', hs, heq, hpermits⟩ := hown.step.permits hout htasks
    rw [heq] at hown hdown
    exact ⟨_, .down ⟨hs, hown.own⟩ hdown, congrArg (fun s => { r with state := s, clients := [] }) heq, hpermits⟩
  | connect ip hup => exact ⟨_, .connect ip hup, rfl, houtside⟩
  | disconnect i hi hidle => exact ⟨_, .disconnect i hi hidle, rfl, houtside⟩
  | call hi hidle hp hcb => exact ⟨_, .call hi hidle hp hcb, rfl, houtside⟩
  | rejects hi hidle hmail he => exact ⟨_, .rejects hi hidle hmail he, rfl, houtside⟩
  | enters hi hidle hmail he => exact ⟨_, .enters hi hidle hmail he, rfl, houtside⟩
  | skips hi he ht hv => exact ⟨_, .skips hi he ht hv, rfl, houtside⟩
  | stores hi he ht hv hmail henq => exact ⟨_, .stores hi he ht hv hmail henq, rfl, houtside⟩
  | fails hi he ht hv => exact ⟨_, .fails hi he ht hv, rfl, houtside⟩
  | answers hi he ht => exact ⟨_, .answers hi he ht, rfl, houtside⟩

/-- A process that ends leaves no trace but the queue. -/
theorem Step.ended (hs : Step C d s now s') (hup : s.control ≠ .down) (hdown : s'.control = .down) :
    s'.pollElapsed = false := by
  cases hs with
  | crash | exit | tickPanics | fetchPanics => rfl
  | start | recover | recoverFails | shutdown | tick | reclaim | reclaimFails | fetchFails | fetchNone | fetch | claim
  | claimFails | spawn | endClaims | tickEnds => cases hdown
  | enqueue | elapse | joinOne | sendStarts | noTransport | sendOk | sendErr | sendErrPanics | mark | markFails
  | finish | panic => exact absurd hdown hup

theorem Relay.Step.ended (hs : Relay.Step C X config d r r') (hup : r.state.control ≠ .down)
    (hdown : r'.state.control = .down) : r'.state.pollElapsed = false := by
  cases hs with
  | down hown => exact hown.step.ended hup hdown
  | own _ hup' => exact absurd hdown hup'
  | connect | disconnect | call | rejects | enters | skips | stores | fails | answers => exact absurd hdown hup

/-! ## One relay at a time -/

/-- The process is where the relay is. -/
structure Worker.At (w : Worker τ) (r : Relay τ) : Prop where
  control : w.control = r.state.control
  tasks : w.tasks = r.state.tasks
  pollElapsed : w.pollElapsed = r.state.pollElapsed
  clients : w.clients = r.clients
  permits : w.control.inBatch = true → w.permits = r.state.permits

namespace Machine

/-- The machine does what the relay does, by the one process it has. -/
structure Follows (C : Codec) (X : Externals) (config : Config) (d : Dispatcher τ) (m : Machine τ) (r : Relay τ) :
    Prop where
  reachable : Relay.Reachable C X config d r
  table : m.table = r.state.table
  log : m.log = r.state.log
  submissions : m.submissions = r.submissions
  answers : m.answers = r.answers
  workers : ∀ pid w, m.workers pid = some w → w.At r
  idle : (∀ pid, m.workers pid = none) → r.state.control = .down
  fresh : r.state.control = .down → r.state.pollElapsed = false

namespace Follows

theorem initial : Follows C X config d .initial .initial where
  reachable := .refl
  table := rfl
  log := rfl
  submissions := rfl
  answers := rfl
  workers pid w hw := by cases hw
  idle _ := rfl
  fresh _ := rfl

/-- What the process sees is the relay, but for the permits. -/
theorem view (h : Follows C X config d m r) {pid : Nat} (hw : m.workers pid = some w) :
    m.view w = { r with state := { r.state with permits := w.permits } } := by
  obtain ⟨hcontrol, htasks, hpoll, hclients, -⟩ := h.workers pid w hw
  rw [Machine.view, hcontrol, htasks, hpoll, hclients, h.table, h.log, h.submissions, h.answers]

/-- A step that a process sees is one of the relay. -/
theorem step (h : Follows C X config d m r) {pid : Nat} (hw : m.workers pid = some w)
    (hs : Relay.Step C X config d (m.view w) r') :
    ∃ r'', Relay.Step C X config d r r'' ∧
      r' = { r'' with state := { r''.state with permits := r'.state.permits } } ∧
      (r'.state.control.inBatch = true → r'.state.permits = r''.state.permits) := by
  rw [h.view hw] at hs
  refine Relay.Step.permits h.reachable hs fun hbatch => ?_
  exact (h.workers pid _ hw).permits (by rw [(h.workers pid _ hw).control]; exact hbatch)

/-- The process `pid`, which is the only one, has become `o`. -/
theorem put (h : Follows C X config d m r) {pid : Nat} {o : Option (Worker τ)} {r'' : Relay τ}
    (hothers : ∀ pid', pid' ≠ pid → m.workers pid' = none) (hs : Relay.Step C X config d r r'')
    (hr' : r' = { r'' with state := { r''.state with permits := r'.state.permits } })
    (hat : ∀ w, o = some w → w.At r'') (hidle : o = none → r''.state.control = .down)
    (hfresh : r''.state.control = .down → r''.state.pollElapsed = false) :
    Follows C X config d (m.put pid o r') r'' where
  reachable := h.reachable.tail hs
  table := by rw [hr']; rfl
  log := by rw [hr']; rfl
  submissions := by rw [hr']; rfl
  answers := by rw [hr']; rfl
  workers pid' w hw := by
    rcases Instances.update_eq_some hw with ⟨-, ho⟩ | ⟨hne, hw⟩
    · exact hat w ho
    · rw [hothers pid' hne] at hw
      cases hw
  idle hnone := by
    have hpid : Function.update m.workers pid o pid = none := hnone pid
    rw [Function.update_self] at hpid
    exact hidle hpid
  fresh := hfresh

end Follows

/-- **One step of the machine.** With one process at a time before it and
after it, it is one of the relay, or of nothing but the locks. -/
theorem Step.follows (h : Follows C X config d m r) (hs : Step C X config d m m')
    (hsingle : ∀ pid pid' w w', m.workers pid = some w → m.workers pid' = some w' → pid = pid')
    (hsingle' : ∀ pid pid' w w', m'.workers pid = some w → m'.workers pid' = some w' → pid = pid') :
    ∃ r', Follows C X config d m' r' := by
  have alone {pid : Nat} {w : Worker τ} (hw : m.workers pid = some w) (pid' : Nat) (hne : pid' ≠ pid) :
      m.workers pid' = none := by
    cases hw' : m.workers pid' with
    | none => rfl
    | some w' => exact absurd (hsingle pid' pid w' w hw' hw) hne
  cases hs with
  | launch pid hnew =>
    have hnone : ∀ pid', m.workers pid' = none := fun pid' => by
      by_cases he : pid' = pid
      · rw [he, hnew]
      · cases hw : m.workers pid' with
        | none => rfl
        | some w =>
          refine absurd (hsingle' pid' pid w _ ?_ (Function.update_self ..)) he
          exact (Function.update_of_ne he ..).trans hw
    have hdown := h.idle hnone
    have hquiet : r.state.tasks = [] := h.reachable.sound.queue.reachable.exclusive.quiet (by rw [hdown]; rfl)
    have hclients : r.clients = [] := by
      by_contra hne
      exact h.reachable.sound.up hne hdown
    refine ⟨r, h.reachable, h.table, h.log, h.submissions, h.answers, fun pid' w hw => ?_, fun _ => hdown, h.fresh⟩
    rcases Instances.update_eq_some hw with ⟨-, ho⟩ | ⟨-, hw⟩
    · cases ho
      exact ⟨hdown.symm, hquiet.symm, (h.fresh hdown).symm, hclients.symm, nofun⟩
    · rw [hnone] at hw
      cases hw
  | runs pid hw hstep hup =>
    obtain ⟨r'', hs, heq, hpermits⟩ := h.step hw hstep
    refine ⟨r'', h.put (alone hw) hs heq (fun w' hw' => ?_) nofun fun hdown => ?_⟩
    · cases hw'
      refine ⟨?_, ?_, ?_, ?_, hpermits⟩ <;> rw [Worker.after, heq]
    · rw [heq] at hup
      exact absurd hdown hup
  | ends pid hw hup hstep hdown =>
    obtain ⟨r'', hs, heq, -⟩ := h.step hw hstep
    have hup' : r.state.control ≠ .down := fun hr => hup ((h.workers pid _ hw).control.trans hr)
    have hdown' : r''.state.control = .down := by
      rw [heq] at hdown
      exact hdown
    refine ⟨r'', h.put (alone hw) hs heq (fun w' hw' => ?_) (fun _ => hdown') fun _ => hs.ended hup' hdown'⟩
    cases hw'
  | quits pid hw hdown =>
    have hdown' : r.state.control = .down := (h.workers pid _ hw).control.symm.trans hdown
    refine ⟨r, h.reachable, h.table, h.log, h.submissions, h.answers, fun pid' w' hw' => ?_, fun _ => hdown', h.fresh⟩
    rcases Instances.update_eq_some hw' with ⟨-, ho⟩ | ⟨hne, hw'⟩
    · cases ho
    · rw [alone hw pid' hne] at hw'
      cases hw'

/-- **Any number of processes are one relay.** Over an accepted
configuration whose database is not in memory, in every state that any
number of processes reach, there is at most one of them, and the queue, its
log and what the clients were told are those of a run of the relay with one
process at a time, in which that process is where it is. -/
theorem machine_refines_relay (hv : config.validate = .ok ())
    (hmemory : Str.contains config.queue.database ":memory:" = false) (h : Reachable C X config d m) :
    (∀ pid pid' w w', m.workers pid = some w → m.workers pid' = some w' → pid = pid') ∧
    ∃ r, Relay.Reachable C X config d r ∧ m.table = r.state.table ∧ m.log = r.state.log ∧
      m.submissions = r.submissions ∧ m.answers = r.answers ∧ ∀ pid w, m.workers pid = some w → w.At r := by
  have hsingle {m : Machine τ} (h : Reachable C X config d m) (pid pid' w w') (hw : m.workers pid = some w)
      (hw' : m.workers pid' = some w') : pid = pid' := h.single hv hmemory hw hw'
  have hfollows : ∃ r, Follows C X config d m r := by
    induction h with
    | refl => exact ⟨_, .initial⟩
    | tail hm hs ih =>
      obtain ⟨r, hr⟩ := ih
      exact hs.follows hr (hsingle hm) (hsingle (hm.tail hs))
  obtain ⟨r, hr⟩ := hfollows
  exact ⟨hsingle h, r, hr.reachable, hr.table, hr.log, hr.submissions, hr.answers, hr.workers⟩

/-- A process crashes, and the next takes its place. -/
theorem machine_refines_relay_example : ∃ r : Relay Unit,
    Relay.Reachable textCodec exampleExternals default exampleDispatcher r ∧
      r.state.log = [⟨default, .crashed⟩, ⟨default, .started⟩] := by
  have hlock : acquireInstanceLock (fun _ => .locked) "queue.db" = .ok (some "queue.db.lock") := by decide
  have step {m m' : Machine Unit} (h : Reachable textCodec exampleExternals default exampleDispatcher m)
      (hs : Step textCodec exampleExternals default exampleDispatcher m m') :
      Reachable textCodec exampleExternals default exampleDispatcher m' := h.tail hs
  have h₀ : Reachable textCodec exampleExternals default exampleDispatcher .initial := .refl
  have h₁ := step h₀ (.launch 0 rfl (fun _ _ _ _ hp => by cases hp) hlock)
  have hstart {s : State Unit} (hs : s.control = .down) : Relay.Own textCodec exampleDispatcher s default
      ({ s with control := .starting }.emit default [.started]) := ⟨.start hs, by simp [State.emit]⟩
  have hcrash {s : State Unit} (hs : s.control ≠ .down) : Relay.Own textCodec exampleDispatcher s default
      (s.halt default .crashed) := ⟨.crash hs, by simp [State.halt, State.emit]⟩
  have hup : Control.starting ≠ .down := by simp
  have h₂ := step h₁ (.runs 0 rfl (.own (hstart rfl) hup) hup)
  have h₃ := step h₂ (.ends 0 rfl hup (.down (hcrash hup) rfl) rfl)
  have h₄ := step h₃ (.launch 1 rfl (fun _ _ pid p hp => ?_) hlock)
  · obtain ⟨-, r, hr, -, hlog, -⟩ := machine_refines_relay (by decide) (by decide) h₄
    exact ⟨r, hr, hlog.symm⟩
  · obtain ⟨w, hw, -⟩ := Option.map_eq_some_iff.1 hp
    simp [put, Machine.initial] at hw

end Machine

end OxidRelay
