/-
Every tick ends whose sends return. `State.left` is how many steps the main
task and the deliveries of a tick have left at most: each that one of them
takes lowers it (`Step.left_lt`), what the ingress does meanwhile leaves it
alone, and until the tick has ended there is always one to take, or a send
that has not returned (`Reachable.goes_on`). A mail counts seven from its
fetch: its claim and its spawn, the four stages of its delivery, and the
join.
-/
import OxidRelay.Blocking
import OxidRelay.ParallelTick
import OxidRelay.Ticks

namespace OxidRelay

open SqliteQueue

variable {τ : Type} {C : Codec} {d : Dispatcher τ} {s s' : State τ} {now : DateTime}

/-! ## Steps that are left -/

def Stage.left : Stage τ → Nat
  | .spawned => 5
  | .sending _ => 4
  | .marking _ => 3
  | .returned => 2
  | .ended => 1

/-- Of the main task, and of the mails whose deliveries it has not spawned. -/
def Control.left (limit : Nat) : Control → Nat
  | .reclaiming _ _ => 7 * limit + 4
  | .fetching _ => 7 * limit + 3
  | .claiming due => 7 * due.length + 2
  | .acquiring _ due => 7 * due.length + 8
  | .joining _ => 1
  | .down | .starting | .polling | .stopped => 0

def tasksLeft (tasks : List (Task τ)) : Nat := (tasks.map fun t => t.stage.left).sum

def State.left (d : Dispatcher τ) (s : State τ) : Nat := s.control.left d.config.batchSize.toNat + tasksLeft s.tasks

/-- The main task or a delivery goes on. -/
def State.Moves (s s' : State τ) : Prop := s'.control ≠ s.control ∨ s'.tasks ≠ s.tasks

theorem State.left_of_not_moves (h : ¬ s.Moves s') : s'.left d = s.left d := by
  rw [State.Moves, not_or, not_not, not_not] at h
  rw [State.left, State.left, h.1, h.2]

theorem Control.left_pos {c : Control} (h : c.inTick = true) (limit : Nat) : 0 < c.left limit := by
  cases c with
  | down | starting | polling | stopped => cases h
  | reclaiming | fetching | claiming | acquiring | joining => simp [Control.left]

theorem Task.left_pos (t : Task τ) : 0 < t.stage.left := by cases t.stage <;> exact Nat.succ_pos _

theorem Task.left_of_alive {t : Task τ} (h : t.alive = true) : (Stage.ended : Stage τ).left < t.stage.left := by
  cases hst : t.stage with
  | ended => simp [Task.alive, hst] at h
  | spawned | sending | marking | returned => simp [Stage.left]

/-- A delivery that moves on to a stage with fewer steps left. -/
theorem tasksLeft_set {i : Nat} {t : Task τ} (ht : s.tasks[i]? = some t) {stage : Stage τ}
    (h : stage.left < t.stage.left) : tasksLeft (s.setStage i t stage).tasks < tasksLeft s.tasks := by
  obtain ⟨hi, rfl⟩ := List.getElem?_eq_some_iff.1 ht
  have hs : tasksLeft s.tasks = tasksLeft (s.tasks.take i ++ s.tasks[i] :: s.tasks.drop (i + 1)) := by
    rw [List.getElem_cons_drop, List.take_append_drop]
  rw [hs]
  simp only [tasksLeft, State.setStage, List.set_eq_take_append_cons_drop, if_pos hi, List.map_append,
    List.map_cons, List.sum_append, List.sum_cons]
  omega

/-! ## One step -/

theorem fetchDue_length {scan : List Row} {limit : UInt32} {due : List Mail}
    (h : fetchDue C scan limit now = .ok due) : due.length ≤ limit.toNat := by
  rw [← (mapM_forall₂ h).length_eq, Table.select]
  exact List.length_take_le _ _

/-- **A step in a tick lowers what is left.** -/
theorem Step.left_lt (hin : s.control.inTick = true) (hs : Step C d s now s')
    (hmoves : s.Moves s') : s'.left d < s.left d := by
  have hpos : 0 < s.left d := Nat.lt_of_lt_of_le (Control.left_pos hin _) (Nat.le_add_right _ _)
  have outside {c : Control} (hc : s.control = c) (h : c.inTick = false) : s'.left d < s.left d := by
    rw [hc, h] at hin
    cases hin
  have delivery {i : Nat} {t : Task τ} (stage : Stage τ) (ht : s.tasks[i]? = some t)
      (hcontrol : s'.control = s.control) (htasks : s'.tasks = (s.setStage i t stage).tasks)
      (h : stage.left < t.stage.left) : s'.left d < s.left d := by
    rw [State.left, State.left, hcontrol, htasks]
    exact Nat.add_lt_add_left (tasksLeft_set ht h) _
  cases hs with
  | start hc | exit hc | recover hc | recoverFails hc | shutdown hc | tick hc | tickPanics hc => exact outside hc rfl
  | crash | fetchPanics => exact hpos
  | enqueue | elapse => exact absurd hmoves (by simp [State.Moves, State.emit])
  | reclaim hc | reclaimFails hc => simp [State.left, State.emit, hc, Control.left]
  | fetchFails hc | fetchNone hc =>
    simp only [State.left, State.emit, hc, Control.left]
    omega
  | fetch hc hscan hf =>
    have hlen := fetchDue_length hf
    simp only [State.left, State.emit, hc, Control.left]
    omega
  | claim hc | claimFails hc =>
    simp only [State.left, State.emit, hc, Control.left, List.length_cons]
    omega
  | spawn hc =>
    simp only [State.left, hc, Control.left, tasksLeft, List.map_append, List.sum_append, List.map_cons, List.map_nil,
      List.sum_cons, List.sum_nil, Stage.left]
    omega
  | endClaims hc => simp [State.left, hc, Control.left]
  | joinOne hc ht hdead =>
    rename_i t ts n
    have hleft := t.left_pos
    simp only [State.left, hc, ht, tasksLeft, List.map_cons, List.sum_cons]
    omega
  | tickEnds hc => simp [State.left, State.emit, hc, Control.left]
  | sendStarts ht hst => exact delivery (.sending _) ht rfl rfl (by rw [hst]; simp [Stage.left])
  | noTransport ht hst => exact delivery (.marking _) ht rfl rfl (by rw [hst]; simp [Stage.left])
  | sendOk ht hst | sendErr ht hst => exact delivery (.marking _) ht rfl rfl (by rw [hst]; simp [Stage.left])
  | sendErrPanics ht hst => exact delivery .ended ht rfl rfl (by rw [hst]; simp [Stage.left])
  | mark ht hst | markFails ht hst => exact delivery .returned ht rfl rfl (by rw [hst]; simp [Stage.left])
  | finish ht hst => exact delivery .ended ht rfl rfl (by rw [hst]; simp [Stage.left])
  | panic ht hal => exact delivery .ended ht rfl rfl (Task.left_of_alive hal)

/-! ## There is always one -/

/-- A fault, or the answer of a transport. -/
def Event.isImposed : Event τ → Bool
  | .sendEnded _ _ => true
  | e => e.isFault

/-- The main task or a delivery can go on by itself, without a fault. -/
def GoesOn (C : Codec) (d : Dispatcher τ) (s : State τ) (now : DateTime) : Prop :=
  ∃ s', Step C d s now s' ∧ s.Moves s' ∧
    ∃ events : List (Event τ), s'.log = events.map (fun e => ⟨now, e⟩) ++ s.log ∧ ∀ e ∈ events, e.isImposed = false

/-- A delivery waits for its transport. -/
def State.AwaitsSend (s : State τ) : Prop := ∃ t ∈ s.tasks, ∃ tr, t.stage = .sending tr

theorem GoesOn.main {c : Control} (hs : Step C d s now s') (hc : s.control = c) (hc' : s'.control ≠ c)
    (events : List (Event τ)) (hlog : s'.log = events.map (fun e => ⟨now, e⟩) ++ s.log)
    (hevents : ∀ e ∈ events, e.isImposed = false) : GoesOn C d s now :=
  ⟨s', hs, .inl (hc ▸ hc'), events, hlog, hevents⟩

theorem GoesOn.delivery {i : Nat} {t : Task τ} {stage : Stage τ} (hs : Step C d s now s') (ht : s.tasks[i]? = some t)
    (htasks : s'.tasks = (s.setStage i t stage).tasks) (h : stage.left < t.stage.left) (events : List (Event τ))
    (hlog : s'.log = events.map (fun e => ⟨now, e⟩) ++ s.log) (hevents : ∀ e ∈ events, e.isImposed = false) :
    GoesOn C d s now := by
  refine ⟨s', hs, .inr fun hsame => ?_, events, hlog, hevents⟩
  have hlt := tasksLeft_set ht h
  rw [← htasks, hsame] at hlt
  exact Nat.lt_irrefl _ hlt

/-- A live delivery can go on, or waits for its transport. -/
theorem Reachable.delivers (h : Reachable C d s) {i : Nat} {t : Task τ} (ht : s.tasks[i]? = some t)
    (hal : t.alive = true) (now : DateTime) : GoesOn C d s now ∨ s.AwaitsSend := by
  cases hst : t.stage with
  | spawned =>
    cases htr : d.transportFor t.mail.transport with
    | some tr =>
      exact .inl (.delivery (.sendStarts ht hst htr) ht rfl (by rw [hst]; simp [Stage.left]) [.sendStarted tr t.mail]
        rfl (by simp [Event.isImposed, Event.isFault]))
    | none =>
      exact .inl (.delivery (.noTransport ht hst htr) ht rfl (by rw [hst]; simp [Stage.left]) [] rfl (by simp))
  | sending tr => exact .inr ⟨t, List.mem_of_getElem? ht, tr, hst⟩
  | marking mk =>
    obtain ⟨r, hr, -⟩ := h.row_of_slot (List.mem_append_right _ (List.mem_map_of_mem (List.mem_of_getElem? ht)))
    obtain ⟨T, hT⟩ : ∃ T, mk.run C s.table now t.mail.id = .ok T := Mark.run_of_find hr mk
    exact .inl (.delivery (.mark ht hst hT) ht rfl (by rw [hst]; simp [Stage.left]) [.marked t.mail.id mk] rfl
      (by simp [Event.isImposed, Event.isFault]))
  | returned => exact .inl (.delivery (.finish ht hst) ht rfl (by rw [hst]; simp [Stage.left]) [] rfl (by simp))
  | ended =>
    rw [Task.alive, hst] at hal
    cases hal

/-- **A tick is never stuck** but in a send. -/
theorem Reachable.goes_on (h : Reachable C d s) (hin : s.control.inTick = true) (hconc : 1 ≤ d.config.concurrency)
    (hmax : d.config.concurrency ≤ maxPermits) (now : DateTime) :
    GoesOn C d s now ∨ s.AwaitsSend := by
  have hexcl := h.exclusive
  cases hc : s.control with
  | down | starting | polling | stopped =>
    rw [hc] at hin
    cases hin
  | reclaiming t cutoff =>
    refine .inl (.main (.reclaim hc) hc (by simp [State.emit]) (State.requeuedEvents s.table _) rfl fun e he => ?_)
    obtain ⟨r, -, rfl⟩ := List.mem_map.1 he
    rfl
  | fetching t =>
    cases hf : fetchDue C s.table.rows d.config.batchSize t with
    | error err =>
      exact .inl (.main (.fetchFails hc) hc (by simp [State.emit]) [.tickEnded 0] rfl
        (by simp [Event.isImposed, Event.isFault]))
    | ok due =>
      cases due with
      | nil =>
        exact .inl (.main (.fetchNone hc (.refl _) hf) hc (by simp [State.emit]) [.tickEnded 0] rfl
          (by simp [Event.isImposed, Event.isFault]))
      | cons m due =>
        exact .inl (.main (.fetch hc (.refl _) hf (by simp) hmax) hc (by simp [State.emit]) ((m :: due).map .fetched)
          rfl (by simp [Event.isImposed, Event.isFault]))
  | claiming due =>
    cases due with
    | nil => exact .inl (.main (.endClaims hc) hc (by simp) [] rfl (by simp))
    | cons m due =>
      obtain ⟨r, hr, -⟩ := h.row_of_slot (x := ⟨m, .fetched⟩) (by simp [State.slots, hc, Control.slots, fetchedSlots])
      obtain ⟨T, hT⟩ : ∃ T, markSending C s.table now m.id = .ok T := setStatus_of_find hr
      exact .inl (.main (.claim hc hT) hc (by simp [State.emit]) [.claimed m.id] rfl
        (by simp [Event.isImposed, Event.isFault]))
  | acquiring m due =>
    cases hp : s.permits with
    | succ p => exact .inl (.main (.spawn hc hp) hc (by simp) [] rfl (by simp))
    | zero =>
      -- all permits are held, so a delivery is alive
      have hpermits := hexcl.permits (by rw [hc]; rfl)
      obtain ⟨t, ht, hal⟩ := List.countP_pos_iff.1 (show 0 < s.alive by omega)
      obtain ⟨i, hi⟩ := List.getElem?_of_mem ht
      exact h.delivers hi hal now
  | joining n =>
    cases hts : s.tasks with
    | nil =>
      exact .inl (.main (.tickEnds hc hts) hc (by simp [State.emit]) [.tickEnded n] rfl
        (by simp [Event.isImposed, Event.isFault]))
    | cons t ts =>
      cases hal : t.alive with
      | true => exact h.delivers (i := 0) (by rw [hts]; rfl) hal now
      | false =>
        refine .inl ⟨_, .joinOne hc hts hal, .inr fun hsame => ?_, [], rfl, by simp⟩
        rw [hts] at hsame
        exact List.cons_ne_self _ _ hsame.symm

/-! ## The bound -/

/-- Between the start of a tick and its end. -/
abbrev InTick (C : Codec) (d : Dispatcher τ) (s s' : State τ) : Prop :=
  s.control.inTick = true ∧ ∃ now, Step C d s now s'

/-- A tick is entered by its first step. -/
theorem Step.enters (hs : Step C d s now s') (hout : s.control.inTick = false) (hin : s'.control.inTick = true) :
    (∃ cutoff, s'.control = .reclaiming now cutoff) ∧ s'.tasks = s.tasks := by
  have inside {c : Control} (hc : s.control = c) (h : c.inTick = true) :
      (∃ cutoff, s'.control = .reclaiming now cutoff) ∧ s'.tasks = s.tasks := by
    rw [hc, h] at hout
    cases hout
  cases hs with
  | tick => exact ⟨⟨_, rfl⟩, rfl⟩
  | start | crash | exit | recover | recoverFails | shutdown | tickPanics | fetchFails | fetchNone | fetchPanics
  | tickEnds => cases hin
  | reclaim hc | reclaimFails hc | fetch hc | claim hc | claimFails hc | spawn hc | endClaims hc | joinOne hc =>
    exact inside hc rfl
  | enqueue | elapse | sendStarts | noTransport | sendOk | sendErr | sendErrPanics | mark | markFails | finish
  | panic => exact inside rfl hin

theorem Reachable.left_le (h : Reachable C d s) (hin : s.control.inTick = true) :
    s.left d ≤ 7 * d.config.batchSize.toNat + 4 := by
  obtain ⟨T, hT, hsteps⟩ := h
  refine (Run.invariant (I := fun s => Exclusive C d s ∧
    (s.control.inTick = true → s.left d ≤ 7 * d.config.batchSize.toNat + 4)) ?_ ⟨.initial hT, nofun⟩ hsteps).2 hin
  intro a b ha hstep
  obtain ⟨hexcl, hle⟩ := ha
  obtain ⟨now, hab⟩ := hstep
  refine ⟨hab.exclusive hexcl, fun hb => ?_⟩
  by_cases hina : a.control.inTick = true
  · by_cases hmoves : a.Moves b
    · exact (hab.left_lt hina hmoves).le.trans (hle hina)
    · rw [State.left_of_not_moves hmoves]
      exact hle hina
  · have hout : a.control.inTick = false := by simpa using hina
    obtain ⟨⟨cutoff, hc⟩, htasks⟩ := hab.enters hout hb
    have hquiet : a.tasks = [] := hexcl.quiet (Bool.or_eq_false_iff.1 hout).2
    rw [State.left, hc, htasks, hquiet]
    exact Nat.le_refl _

/-- **Every tick ends**, provided its sends return. In every reachable state
inside a tick the main task or a delivery can go on by itself without a
fault, or a send has not returned; and in every run that stays inside it,
whatever is enqueued meanwhile, they go on no more than `7 * batch_size + 4`
times. -/
theorem tick_ends (h : Reachable C d s) (hin : s.control.inTick = true) (hconc : 1 ≤ d.config.concurrency)
    (hmax : d.config.concurrency ≤ maxPermits) :
    (∀ now, GoesOn C d s now ∨ s.AwaitsSend) ∧
    ∀ n s', Run.Counted (InTick C d) State.Moves s n s' → n ≤ 7 * d.config.batchSize.toNat + 4 := by
  refine ⟨h.goes_on hin hconc hmax, fun n s' hrun => ?_⟩
  have hle := hrun.le (State.left d) (fun ⟨ha, _, hab⟩ hmoves => hab.left_lt ha hmoves)
    fun _ hmoves => Nat.le_of_eq (State.left_of_not_moves hmoves)
  have := h.left_le hin
  omega

theorem InTick.of_runChecked {script : List (DateTime × Action)}
    (h : s.runChecked C d (fun s _ _ => s.control.inTick) script = some s') : Run (InTick C d) s s' :=
  Run.of_runChecked (I := fun _ => True) (fun _ hs hin => ⟨⟨hin, _, hs⟩, trivial⟩) trivial h

/-- The tick of the run, from its fetch to its end. -/
theorem run_tick : fetchingState.runChecked textCodec exampleDispatcher (fun s _ _ => s.control.inTick)
    (scriptAt (firstDay 1) [.fetch id, .claim true, .spawn, .claim true, .spawn, .deliver 0, .deliver 1, .claim true,
      .spawn] ++ scriptAt (firstDay 2) [.deliver 2, .endClaims] ++ scriptAt (firstDay 5) [.enqueue lateMail] ++
      scriptAt (firstDay 6) [.sendOk 1, .sendErr 2 (.transport "451"), .mark 2 true, .mark 0 true] ++
      scriptAt (firstDay 7) [.mark 1 true, .finish 1, .finish 0, .finish 2, .joinOne, .joinOne, .joinOne,
        .tickEnds]) =
    some { joinedState with control := .polling, log := ⟨firstDay 7, .tickEnded 3⟩ :: joinedState.log } := by
  decide +kernel

/-- The tick of three mails ends within the bound; once its deliveries are
joined, it goes on by itself. -/
theorem tick_ends_example :
    (∃ n, Run.Counted (InTick textCodec exampleDispatcher) State.Moves fetchingState n
        { joinedState with control := .polling, log := ⟨firstDay 7, .tickEnded 3⟩ :: joinedState.log } ∧
      n ≤ 7 * 64 + 4) ∧
    GoesOn textCodec exampleDispatcher joinedState (firstDay 7) := by
  obtain ⟨n, hn⟩ := (InTick.of_runChecked run_tick).counted State.Moves
  have hbound := (tick_ends reachable_fetchingState.reachable rfl (by decide) (by decide)).2 n _ hn
  have hgoes := (tick_ends reachable_joinedState.reachable rfl (by decide) (by decide)).1 (firstDay 7)
  refine ⟨⟨n, hn, hbound⟩, hgoes.resolve_right fun hsend => ?_⟩
  obtain ⟨t, ht, -⟩ := hsend
  cases ht

end OxidRelay
