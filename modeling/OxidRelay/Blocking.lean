/-
Does one slow target block the others? Two things a dispatcher with free
permits should still be able to do while some deliveries run on: claim a
due mail and start its delivery, and reclaim a row that has been sending
for longer than the lease.

`tick` awaits every delivery of its batch before it returns, and only a
new tick reclaims and fetches. So a due mail can be claimed while others
run exactly as long as the batch under way has mails left to claim, and a
row can be reclaimed exactly when no other delivery is alive
(`claims_iff`). `slowState` is a state where one slow delivery, of eight
allowed, keeps a due mail waiting.
-/
import OxidRelay.Stranded

namespace OxidRelay

open DateTime SqliteQueue

variable {τ : Type} {C : Codec} {d : Dispatcher τ} {s a b : State τ} {now : DateTime} {u v : MailId}

/-! ## What the dispatcher can do by itself -/

/-- What the environment does: processes that start, end or crash, and the ingress. -/
def Event.isOutside : Event τ → Bool
  | .started | .crashed | .exited | .enqueued _ => true
  | _ => false

/-- A step of the dispatcher or one of its deliveries, at any clock value. -/
def DispatcherStep (C : Codec) (d : Dispatcher τ) (a b : State τ) : Prop :=
  (∃ now, Step C d a now b) ∧ count Event.isOutside b.log = count Event.isOutside a.log

/-- Every delivery alive in `s`, of the ids that `p` selects, is still alive. -/
def StillAlive (p : MailId → Prop) (s b : State τ) : Prop :=
  ∀ t ∈ s.tasks, t.alive = true → p t.mail.id → ∃ t' ∈ b.tasks, t'.mail.id = t.mail.id ∧ t'.alive = true

/-- Steps of the dispatcher during which no such delivery finishes. -/
abbrev Meantime (C : Codec) (d : Dispatcher τ) (p : MailId → Prop) (s : State τ) : State τ → Prop :=
  Run (fun a b => DispatcherStep C d a b ∧ StillAlive p s b) s

/-- A mail is claimed and its delivery started before any delivery that is
alive now has finished. A claim is only ever of a mail that was due. -/
def CanClaim (C : Codec) (d : Dispatcher τ) (s : State τ) : Prop :=
  ∃ u b, Meantime C d (fun _ => True) s b ∧ count (Event.isClaimOf u) s.log < count (Event.isClaimOf u) b.log ∧
    ∃ t ∈ b.tasks, t.mail.id = u ∧ t.alive = true

/-- The row of `u` is moved back to pending before any other delivery that
is alive now has finished. -/
def CanReclaim (C : Codec) (d : Dispatcher τ) (s : State τ) (u : MailId) : Prop :=
  ∃ b, Meantime C d (· ≠ u) s b ∧ count (Event.isRequeueOf C u) s.log < count (Event.isRequeueOf C u) b.log

/-- The mails of the batch under way that are not claimed yet. -/
def Control.due : Control → List Mail
  | .claiming due | .acquiring _ due => due
  | _ => []

/-- The main task is in `run`. -/
def Control.isLive : Control → Bool
  | .down | .stopped => false
  | _ => true

/-! ## Blocked -/

theorem alive_pos {t : Task τ} (ht : t ∈ b.tasks) (ha : t.alive = true) : 0 < b.alive :=
  List.countP_pos_iff.2 ⟨t, ht, ha⟩

theorem Exclusive.inBatch_of_alive (h : Exclusive C d s) (ha : 0 < s.alive) : s.control.inBatch = true := by
  by_contra hb
  simp [State.alive, h.quiet (by simpa using hb)] at ha

/-- In a batch, with a delivery alive, a step goes on in the batch and
requeues nothing; with nothing left to claim it claims nothing either. -/
theorem Step.blocked (hs : Step C d a now b) (hb : a.control.inBatch = true) (ha : 0 < b.alive) :
    b.control.inBatch = true ∧
      (∀ u, count (Event.isRequeueOf C u) b.log = count (Event.isRequeueOf C u) a.log) ∧
      (a.control.due = [] → b.control.due = [] ∧
        ∀ u, count (Event.isClaimOf u) b.log = count (Event.isClaimOf u) a.log) := by
  cases hs with
  | crash | exit | tickPanics | fetchPanics => simp [State.alive, State.halt, State.emit] at ha
  | tickEnds _ ht => simp [State.alive, State.emit, ht] at ha
  | start hc | recover hc | recoverFails hc | shutdown hc | tick hc | reclaim hc | reclaimFails hc | fetchFails hc
  | fetchNone hc | fetch hc => simp [hc, Control.inBatch] at hb
  | claim hc _ | claimFails hc =>
    refine ⟨rfl, fun u => by simp [State.emit, Event.isRequeueOf], fun hd => ?_⟩
    simp [hc, Control.due] at hd
  | spawn hc _ | endClaims hc => simp_all [Control.inBatch, Control.due]
  | elapse | joinOne | noTransport | finish => exact ⟨hb, fun _ => rfl, fun hd => ⟨hd, fun _ => rfl⟩⟩
  | enqueue | sendStarts | sendOk | sendErr | sendErrPanics | mark | markFails | panic =>
    refine ⟨hb, fun u => ?_, fun hd => ⟨hd, fun u => ?_⟩⟩ <;>
      simp [State.emit, State.setStage, State.endTask, Event.isRequeueOf, Event.isClaimOf]

/-- While a delivery of `s` runs on, the batch of `s` goes on. -/
theorem Meantime.blocked {p : MailId → Prop} (h : Meantime C d p s b) (hexcl : Exclusive C d s) {t : Task τ}
    (ht : t ∈ s.tasks) (hal : t.alive = true) (hp : p t.mail.id) :
    (∀ u, count (Event.isRequeueOf C u) b.log = count (Event.isRequeueOf C u) s.log) ∧
      (s.control.due = [] → ∀ u, count (Event.isClaimOf u) b.log = count (Event.isClaimOf u) s.log) := by
  have := Run.invariant (I := fun b => b.control.inBatch = true ∧
    (∀ u, count (Event.isRequeueOf C u) b.log = count (Event.isRequeueOf C u) s.log) ∧
    (s.control.due = [] →
      b.control.due = [] ∧ ∀ u, count (Event.isClaimOf u) b.log = count (Event.isClaimOf u) s.log))
    ?_ ⟨hexcl.inBatch_of_alive (alive_pos ht hal), fun _ => rfl, fun hd => ⟨hd, fun _ => rfl⟩⟩ h
  · exact ⟨this.2.1, fun hd => (this.2.2 hd).2⟩
  · intro x y hx hstep
    obtain ⟨hb, hq, hc⟩ := hx
    obtain ⟨⟨⟨now, hxy⟩, -⟩, hstill⟩ := hstep
    obtain ⟨t', ht', -, hal'⟩ := hstill t ht hal hp
    obtain ⟨hb', hq', hc'⟩ := hxy.blocked hb (alive_pos ht' hal')
    refine ⟨hb', fun u => (hq' u).trans (hq u), fun hd => ?_⟩
    obtain ⟨hdx, hcx⟩ := hc hd
    obtain ⟨hdy, hcy⟩ := hc' hdx
    exact ⟨hdy, fun u => (hcy u).trans (hcx u)⟩

/-- With a delivery alive and nothing left to claim in its batch, no mail
is claimed until it finishes. -/
theorem not_canClaim (hexcl : Exclusive C d s) (ha : 0 < s.alive) (hd : s.control.due = []) : ¬ CanClaim C d s := by
  intro h
  obtain ⟨u, b, hrun, hlt, -⟩ := h
  obtain ⟨t, ht, hal⟩ := List.countP_pos_iff.1 ha
  have := (hrun.blocked hexcl ht hal trivial).2 hd u
  omega

/-- With another delivery alive, no row is reclaimed until it finishes. -/
theorem not_canReclaim (hexcl : Exclusive C d s) {t : Task τ} (ht : t ∈ s.tasks) (hal : t.alive = true)
    (hne : t.mail.id ≠ u) : ¬ CanReclaim C d s u := by
  intro h
  obtain ⟨b, hrun, hlt⟩ := h
  have := (hrun.blocked hexcl ht hal hne).1 u
  omega

/-! ## Not blocked -/

/-- Steps of the dispatcher. -/
abbrev Goes (C : Codec) (d : Dispatcher τ) : State τ → State τ → Prop := Run (DispatcherStep C d)

/-- A reachable state without a live delivery, whose rows all decode. -/
structure Calm (C : Codec) (d : Dispatcher τ) (a : State τ) : Prop where
  reachable : Reachable C d a
  written : AllWritten C YearInRange a.table
  quiet : a.alive = 0

theorem Reachable.step (h : Reachable C d a) (hs : Step C d a now b) : Reachable C d b := by
  obtain ⟨T, hT, hr⟩ := h
  exact ⟨T, hT, hr.tail ⟨now, hs⟩⟩

theorem Goes.reachable (h : Goes C d a b) (ha : Reachable C d a) : Reachable C d b :=
  Run.invariant (fun hx ⟨⟨_, hxy⟩, _⟩ => hx.step hxy) ha h

theorem Goes.step (now : DateTime) (hs : Step C d a now b)
    (ho : count Event.isOutside b.log = count Event.isOutside a.log) : Goes C d a b :=
  .single ⟨⟨now, hs⟩, ho⟩

/-- The table after a status write that has a row. -/
theorem setStatus_exists {T : Mails} (hw : AllWritten C YearInRange T) (hnow : now.YearInRange) {r : Row}
    (hr : T.find (C.uuidText u) = some r) (status err bump) :
    ∃ U, setStatus C T now u status err bump none = .ok U ∧ AllWritten C YearInRange U ∧
      (∃ r, U.find (C.uuidText u) = some r) ∧ ∀ v, v ≠ u → U.find (C.uuidText v) = T.find (C.uuidText v) := by
  obtain ⟨U, hU⟩ : ∃ U, setStatus C T now u status err bump none = .ok U := setStatus_of_find hr
  have hw' : AllWritten C YearInRange ((setStatus C T now u status err bump none).toOption.getD T) :=
    hw.setStatus hnow (by simp)
  rw [hU] at hw'
  obtain ⟨r, -, hr'⟩ := find_setStatus_self hU
  exact ⟨U, hU, hw', ⟨_, hr'⟩, fun v hv => find_setStatus_other hv hU⟩

/-- A step that leaves all tasks but the one at index `i` as they are. -/
def BesideStep (C : Codec) (d : Dispatcher τ) (i : Nat) (a b : State τ) : Prop :=
  DispatcherStep C d a b ∧ ∀ j, j ≠ i → b.tasks[j]? = a.tasks[j]?

abbrev Beside (C : Codec) (d : Dispatcher τ) (i : Nat) : State τ → State τ → Prop := Run (BesideStep C d i)

theorem Beside.goes {i : Nat} (h : Beside C d i a b) : Goes C d a b := Run.weaken (fun _ _ h => h.1) h

theorem Beside.step {i : Nat} (now : DateTime) (hs : Step C d a now b)
    (ho : count Event.isOutside b.log = count Event.isOutside a.log) (t : Task τ) (ht : b.tasks = a.tasks.set i t) :
    Beside C d i a b :=
  .single ⟨⟨⟨now, hs⟩, ho⟩, fun j hj => by rw [ht, List.getElem?_set_ne (Ne.symm hj)]⟩

/-- What the run of one delivery leaves as it was. -/
structure Leaves (C : Codec) (d : Dispatcher τ) (i : Nat) (u : MailId) (a b : State τ) : Prop where
  beside : Beside C d i a b
  control : b.control = a.control
  written : AllWritten C YearInRange b.table
  others : ∀ v, v ≠ u → b.table.find (C.uuidText v) = a.table.find (C.uuidText v)

/-- A delivery whose outcome is known writes it and ends. -/
theorem marks_and_ends (hw : AllWritten C YearInRange a.table) (hnow : now.YearInRange) {i : Nat} {m : Mail}
    {mk : Mark}
    (ht : a.tasks[i]? = some ⟨m, .marking mk⟩) (hmk : ∀ e r, mk ≠ .failed e r) {r : Row}
    (hr : a.table.find (C.uuidText m.id) = some r) :
    ∃ b, Leaves C d i m.id a b ∧ b.tasks = a.tasks.set i ⟨m, .ended⟩ := by
  obtain ⟨U, hU, hw', hothers⟩ : ∃ U, mk.run C a.table now m.id = .ok U ∧ AllWritten C YearInRange U ∧
      ∀ v, v ≠ m.id → U.find (C.uuidText v) = a.table.find (C.uuidText v) := by
    cases mk with
    | sent => obtain ⟨U, h1, h2, -, h3⟩ := setStatus_exists hw hnow hr .sent none false; exact ⟨U, h1, h2, h3⟩
    | dead e => obtain ⟨U, h1, h2, -, h3⟩ := setStatus_exists hw hnow hr .dead (some e) true; exact ⟨U, h1, h2, h3⟩
    | failed e r => exact absurd rfl (hmk e r)
  have hi : i < a.tasks.length := (List.getElem?_eq_some_iff.1 ht).1
  have hmark := Step.mark (d := d) ht rfl hU
  have hend : ∀ b : State τ, b.tasks[i]? = some ⟨m, .returned⟩ → Step C d b now (b.endTask i ⟨m, .returned⟩) :=
    fun b hb => .finish hb rfl
  refine ⟨_, ⟨(Beside.step now hmark ?_ _ rfl).trans (Beside.step now (hend _ ?_) ?_ _ rfl), rfl, hw', hothers⟩, ?_⟩
  · simp [State.emit, State.setStage, Event.isOutside]
  · simp [State.emit, State.setStage, hi]
  · rfl
  · simp [State.endTask, State.setStage, State.emit, List.set_set]

/-- A delivery just spawned sends, when it has a transport, and ends. -/
theorem delivers (hw : AllWritten C YearInRange a.table) (hnow : now.YearInRange) {i : Nat} {m : Mail}
    (ht : a.tasks[i]? = some ⟨m, .spawned⟩) {r : Row} (hr : a.table.find (C.uuidText m.id) = some r) :
    ∃ b, Leaves C d i m.id a b ∧ b.tasks = a.tasks.set i ⟨m, .ended⟩ := by
  have hi : i < a.tasks.length := (List.getElem?_eq_some_iff.1 ht).1
  obtain ⟨x, mk, hmk, hx, hxt, hxc, hxtab⟩ : ∃ x mk, (∀ e r, mk ≠ .failed e r) ∧ Beside C d i a x ∧
      x.tasks = a.tasks.set i ⟨m, .marking mk⟩ ∧ x.control = a.control ∧ x.table = a.table := by
    cases htr : d.transportFor m.transport with
    | none =>
      refine ⟨_, _, ?_, Beside.step now (.noTransport ht rfl htr) rfl _ rfl, rfl, rfl, rfl⟩
      simp
    | some tr =>
      have hok : ∀ b : State τ, b.tasks[i]? = some ⟨m, .sending tr⟩ →
          Step C d b now ((b.setStage i ⟨m, .sending tr⟩ (.marking .sent)).emit now [.sendEnded m.id true]) :=
        fun b hb => .sendOk hb rfl
      refine ⟨_, .sent, by simp,
        (Beside.step now (.sendStarts ht rfl htr) ?_ _ rfl).trans (Beside.step now (hok _ ?_) ?_ _ rfl),
        ?_, rfl, rfl⟩
      · simp [State.emit, State.setStage, Event.isOutside]
      · simp [State.emit, State.setStage, hi]
      · simp [State.emit, State.setStage, Event.isOutside]
      · simp [State.emit, State.setStage, List.set_set]
  obtain ⟨b, hb, hbt⟩ :=
    marks_and_ends (a := x) (d := d) (i := i) (hxtab ▸ hw) hnow (by rw [hxt]; simp [hi]) hmk (hxtab ▸ hr)
  refine ⟨b, ⟨hx.trans hb.beside, hb.control.trans hxc, hb.written, fun v hv => ?_⟩, ?_⟩
  · rw [hb.others v hv, hxtab]
  · rw [hbt, hxt, List.set_set]

/-! ## To the end of a batch -/

/-- A batch without live deliveries has all its permits. -/
theorem Calm.permits (h : Calm C d a) (hb : a.control.inBatch = true) : a.permits = d.config.concurrency := by
  have := h.reachable.exclusive.permits hb
  have := h.quiet
  omega

/-- The row of a mail the dispatcher holds. -/
theorem Reachable.row_of_slot (h : Reachable C d a) {x : Slot τ} (hx : x ∈ a.slots) :
    ∃ r, a.table.find (C.uuidText x.id) = some r ∧ x.Coherent C r := by
  obtain ⟨-, r, hr, hco⟩ := h.coherent x.id x ((Keyed.get_eq_some h.exclusive.nodup).2 ⟨hx, rfl⟩)
  exact ⟨r, hr, hco⟩

/-- A delivery spawned beside none that lives ends again. -/
theorem Calm.spawned (h : Calm C d a) {m : Mail} {due : List Mail} (hc : a.control = .acquiring m due)
    (hnow : now.YearInRange) (hconc : 1 ≤ d.config.concurrency) :
    ∃ b, Goes C d a b ∧ Calm C d b ∧ b.control = .claiming due ∧
      ∀ v, v ≠ m.id → b.table.find (C.uuidText v) = a.table.find (C.uuidText v) := by
  obtain ⟨p, hp⟩ : ∃ p, a.permits = p + 1 := ⟨a.permits - 1, by
    have := h.permits (by rw [hc]; rfl)
    omega⟩
  have hspawn : Step C d a now _ := .spawn hc hp
  obtain ⟨r, hr, -⟩ := h.reachable.row_of_slot (x := ⟨m, .claimed⟩) (by simp [State.slots, hc, Control.slots])
  obtain ⟨b, hb, htasks⟩ := delivers (d := d) (i := a.tasks.length) (a := { a with
    control := .claiming due
    permits := p
    tasks := a.tasks ++ [⟨m, .spawned⟩] }) h.written hnow (by simp) hr
  have hgoes := (Goes.step now hspawn rfl).trans (Beside.goes hb.beside)
  refine ⟨b, hgoes, ⟨Goes.reachable hgoes h.reachable, hb.written, ?_⟩, hb.control, hb.others⟩
  have hq := h.quiet
  simp only [State.alive] at hq ⊢
  rw [htasks, List.set_append_right _ _ le_rfl, List.countP_append, hq]
  simp [Task.alive]

theorem Calm.claims (h : Calm C d a) {m : Mail} {due : List Mail} (hc : a.control = .claiming (m :: due))
    (hnow : now.YearInRange) :
    ∃ b, Goes C d a b ∧ Calm C d b ∧ b.control = .acquiring m due ∧ a.tasks = b.tasks ∧ a.permits = b.permits ∧
      count (Event.isClaimOf m.id) a.log < count (Event.isClaimOf m.id) b.log ∧
      ∀ v, v ≠ m.id → b.table.find (C.uuidText v) = a.table.find (C.uuidText v) := by
  obtain ⟨r, hr, -⟩ :=
    h.reachable.row_of_slot (x := ⟨m, .fetched⟩) (by simp [State.slots, hc, Control.slots, fetchedSlots])
  obtain ⟨U, hU, hw, -, hothers⟩ := setStatus_exists h.written hnow hr .sending none false
  have hstep : Step C d a now _ := .claim hc hU
  refine ⟨_, Goes.step now hstep ?_, ⟨h.reachable.step hstep, hw, h.quiet⟩, rfl, rfl, rfl, ?_, hothers⟩
  · simp [State.emit, Event.isOutside]
  · simp [State.emit, Event.isClaimOf]

/-- The claim loop can deliver what is left of its batch. -/
theorem Calm.drains (hnow : now.YearInRange) (hconc : 1 ≤ d.config.concurrency) : ∀ (due : List Mail) {a : State τ},
    Calm C d a → a.control = .claiming due → ∃ b, Goes C d a b ∧ Calm C d b ∧ b.control = .claiming [] ∧
      ∀ v, (∀ m ∈ due, m.id ≠ v) → b.table.find (C.uuidText v) = a.table.find (C.uuidText v)
  | [], a, h, hc => ⟨a, .refl, h, hc, fun _ _ => rfl⟩
  | m :: due, a, h, hc => by
    obtain ⟨x, hx, hcx, hxc, -, -, -, hxo⟩ := h.claims hc hnow
    obtain ⟨y, hy, hcy, hyc, hyo⟩ := hcx.spawned hxc hnow hconc
    obtain ⟨z, hz, hcz, hzc, hzo⟩ := drains hnow hconc due hcy hyc
    refine ⟨z, (hx.trans hy).trans hz, hcz, hzc, fun v hv => ?_⟩
    have hne : v ≠ m.id := (hv m (by simp)).symm
    rw [hzo v fun m' hm' => hv m' (by simp [hm']), hyo v hne, hxo v hne]

/-- Handles of deliveries that have ended are awaited at once. -/
theorem Calm.joins : ∀ (ts : List (Task τ)) {a : State τ} {n : Nat},
    Calm C d a → a.control = .joining n → a.tasks = ts →
    ∃ b, Goes C d a b ∧ Calm C d b ∧ b.control = .polling ∧ b.table = a.table
  | [], a, n, h, hc, ht => by
    have hstep : Step C d a default _ := .tickEnds hc ht
    refine ⟨_, Goes.step default hstep ?_, ⟨h.reachable.step hstep, h.written, h.quiet⟩, rfl, rfl⟩
    simp [State.emit, Event.isOutside]
  | t :: ts, a, n, h, hc, ht => by
    have hq := h.quiet
    simp only [State.alive, ht, List.countP_cons] at hq
    have hdead : t.alive = false := by
      cases hal : t.alive with
      | false => rfl
      | true => simp [hal] at hq
    have hstep : Step C d a default _ := .joinOne hc ht hdead
    obtain ⟨b, hb, hcb, hbc, hbt⟩ := joins ts (a := { a with tasks := ts })
      ⟨h.reachable.step hstep, h.written, by simp only [State.alive]; omega⟩ hc rfl
    exact ⟨b, (Goes.step default hstep rfl).trans hb, hcb, hbc, hbt⟩

/-- A batch without live deliveries can be finished. -/
theorem Calm.finishes (h : Calm C d a) {due : List Mail} (hc : a.control = .claiming due) (hnow : now.YearInRange)
    (hconc : 1 ≤ d.config.concurrency) : ∃ b, Goes C d a b ∧ Calm C d b ∧ b.control = .polling ∧
      ∀ v, (∀ m ∈ due, m.id ≠ v) → b.table.find (C.uuidText v) = a.table.find (C.uuidText v) := by
  obtain ⟨x, hx, hcx, hxc, hxo⟩ := Calm.drains hnow hconc due h hc
  have hstep : Step C d x now _ := .endClaims hxc
  obtain ⟨b, hb, hcb, hbc, hbt⟩ :=
    Calm.joins x.tasks (C := C) (d := d) (a := { x with control := .joining x.tasks.length })
    ⟨hcx.reachable.step hstep, hcx.written, hcx.quiet⟩ rfl rfl
  refine ⟨b, (hx.trans (Goes.step now hstep rfl)).trans hb, hcb, hbc, fun v hv => ?_⟩
  rw [hbt]; exact hxo v hv

theorem Goes.steps (h : Goes C d a b) : Steps C d a b := Run.weaken (fun _ _ h => h.1) h

/-! ## Claiming -/

/-- The head of the batch is claimed and its delivery spawned. -/
theorem claims_and_spawns (h : Reachable C d a) (hw : AllWritten C YearInRange a.table) (hnow : now.YearInRange)
    {m : Mail} {due : List Mail} (hc : a.control = .claiming (m :: due)) {p : Nat} (hp : a.permits = p + 1) :
    ∃ x b, DispatcherStep C d a x ∧ DispatcherStep C d x b ∧ x.tasks = a.tasks ∧
      b.tasks = a.tasks ++ [⟨m, .spawned⟩] ∧
      count (Event.isClaimOf m.id) a.log < count (Event.isClaimOf m.id) b.log := by
  obtain ⟨r, hr, -⟩ := h.row_of_slot (x := ⟨m, .fetched⟩) (by simp [State.slots, hc, Control.slots, fetchedSlots])
  obtain ⟨U, hU, -⟩ := setStatus_exists hw hnow hr .sending none false
  have hclaim : Step C d a now _ := .claim hc hU
  have hspawn : ∀ x : State τ, x.control = .acquiring m due → x.permits = p + 1 →
      Step C d x now { x with control := .claiming due, permits := p, tasks := x.tasks ++ [⟨m, .spawned⟩] } :=
    fun x hx hp => .spawn hx hp
  refine ⟨_, _, ⟨⟨now, hclaim⟩, ?_⟩, ⟨⟨now, hspawn _ rfl hp⟩, rfl⟩, rfl, rfl, ?_⟩
  · simp [State.emit, Event.isOutside]
  · simp [State.emit, Event.isClaimOf]

/-- The tasks of `s` are the first tasks of `b`. -/
def TasksKept (s b : State τ) : Prop := ∀ j, j < s.tasks.length → b.tasks[j]? = s.tasks[j]?

theorem TasksKept.stillAlive {p : MailId → Prop} (h : TasksKept s b) : StillAlive p s b := by
  intro t ht hal _
  obtain ⟨j, hj, rfl⟩ := List.getElem_of_mem ht
  have := h j hj
  rw [List.getElem?_eq_getElem hj] at this
  exact ⟨_, List.mem_of_getElem? this, rfl, hal⟩

theorem TasksKept.of_append {l : List (Task τ)} (h : b.tasks = s.tasks ++ l) : TasksKept s b := fun j hj => by
  rw [h, List.getElem?_append_left hj]

/-- The run of a delivery spawned later lets the others run on. -/
theorem Beside.meantime {p : MailId → Prop} (h : Beside C d s.tasks.length a b) (ha : Meantime C d p s a)
    (hk : TasksKept s a) : Meantime C d p s b := by
  refine (Run.invariant (I := fun x => Meantime C d p s x ∧ TasksKept s x) ?_ ⟨ha, hk⟩ h).1
  intro x y hinv hxy
  obtain ⟨hx, hkx⟩ := hinv
  obtain ⟨hstep, hother⟩ := hxy
  have hky : TasksKept s y := fun j hj => (hother j hj.ne).trans (hkx j hj)
  exact ⟨hx.tail ⟨hstep, hky.stillAlive⟩, hky⟩

/-- While the batch has mails left to claim and a permit is free, the next
one is claimed. -/
theorem canClaim_of_due (h : Reachable C d s) (hw : AllWritten C YearInRange s.table) (hnow : now.YearInRange)
    (hfree : s.alive < d.config.concurrency) (hd : s.control.due ≠ []) : CanClaim C d s := by
  have hpermits := h.exclusive.permits
  cases hc : s.control with
  | claiming due =>
    cases due with
    | nil => simp [hc, Control.due] at hd
    | cons m due =>
      have := hpermits (by rw [hc]; rfl)
      obtain ⟨x, b, hx, hb, hxt, hbt, hlt⟩ := claims_and_spawns h hw hnow hc (p := s.permits - 1) (by omega)
      have hkx : TasksKept s x := .of_append (l := []) (by rw [hxt, List.append_nil])
      exact ⟨m.id, b,
        (Relation.ReflTransGen.single ⟨hx, hkx.stillAlive⟩).tail ⟨hb, (TasksKept.of_append hbt).stillAlive⟩,
        hlt, ⟨m, .spawned⟩, by simp [hbt], rfl, rfl⟩
  | acquiring m due =>
    cases due with
    | nil => simp [hc, Control.due] at hd
    | cons m' due =>
      -- the claimed mail is spawned and delivered first, which gives its permit back
      have := hpermits (by rw [hc]; rfl)
      obtain ⟨r, hr, -⟩ := h.row_of_slot (x := ⟨m, .claimed⟩) (by simp [State.slots, hc, Control.slots])
      have hspawn : Step C d s now _ := .spawn hc (p := s.permits - 1) (by omega)
      obtain ⟨y, hy, hyt⟩ := delivers (d := d) (i := s.tasks.length) (a := { s with
        control := .claiming (m' :: due)
        permits := s.permits - 1
        tasks := s.tasks ++ [⟨m, .spawned⟩] }) hw hnow (by simp) hr
      have hy₀ : Meantime C d (fun _ => True) s y :=
        Beside.meantime hy.beside
          (.single ⟨⟨⟨now, hspawn⟩, rfl⟩, (TasksKept.of_append rfl).stillAlive⟩) (.of_append rfl)
      have hyr : Reachable C d y := Goes.reachable (Beside.goes hy.beside) (h.step hspawn)
      have hyt' : y.tasks = s.tasks ++ [⟨m, .ended⟩] := by rw [hyt, List.set_append_right _ _ le_rfl]; simp
      have hyal : y.alive = s.alive := by simp [State.alive, hyt', Task.alive]
      have hyp := hyr.exclusive.permits (by rw [hy.control]; rfl)
      obtain ⟨x, b, hx, hb, hxt, hbt, hlt⟩ :=
        claims_and_spawns hyr hy.written hnow hy.control (p := y.permits - 1) (by omega)
      have hle := Steps.count_le h.exclusive (Goes.steps ((Goes.step now hspawn rfl).trans (Beside.goes hy.beside)))
        fun _ => Event.about_of_isClaimOf (C := C) (u := m'.id)
      have hkx : TasksKept s x := .of_append (hxt.trans hyt')
      have hkb : TasksKept s b := .of_append (l := [⟨m, .ended⟩, ⟨m', .spawned⟩]) (by rw [hbt, hyt']; simp)
      exact ⟨m'.id, b, (hy₀.tail ⟨hx, hkx.stillAlive⟩).tail ⟨hb, hkb.stillAlive⟩, hle.trans_lt hlt, ⟨m', .spawned⟩,
        by simp [hbt], rfl, rfl⟩
  | _ => simp [hc, Control.due] at hd

/-! ## The next tick -/

theorem count_append (p : Event τ → Bool) (events : List (Event τ)) (log : List (Entry τ)) :
    count p (events.map (fun e => ⟨now, e⟩) ++ log) = events.countP p + count p log := by
  rw [count, List.countP_append, List.countP_map]
  rfl

/-- The requeue of a row is counted. -/
theorem countP_requeuedEvents {T : Mails} {p : Row → Bool} {r : Row} (hr : T.find (C.uuidText u) = some r)
    (hp : p r = true) : 0 < (State.requeuedEvents T p : List (Event τ)).countP (Event.isRequeueOf C u) := by
  obtain ⟨hmem, hk⟩ := Table.find_eq_some.1 hr
  exact List.countP_pos_iff.2
    ⟨.requeued r.id, List.mem_map_of_mem (List.mem_filter.2 ⟨hmem, hp⟩), by simp [Event.isRequeueOf, hk]⟩

theorem requeuedEvents_inside {T : Mails} {p : Row → Bool} :
    (State.requeuedEvents T p : List (Event τ)).countP Event.isOutside = 0 := by
  refine List.countP_eq_zero.2 fun e he => ?_
  obtain ⟨r, -, rfl⟩ := List.mem_map.1 he
  simp [Event.isOutside]

theorem Calm.step (h : Calm C d a) (hs : Step C d a now b) (hw : AllWritten C YearInRange b.table)
    (hq : b.alive = 0) : Calm C d b :=
  ⟨h.reachable.step hs, hw, hq⟩

/-- `b` comes from `a` by a requeue of the rows that `p` selects. -/
structure Requeues (C : Codec) (d : Dispatcher τ) (p : Row → Bool) (now : DateTime) (a b : State τ) : Prop where
  goes : Goes C d a b
  calm : Calm C d b
  find : ∀ k, b.table.find k = (a.table.find k).map fun r => if p r then requeueRow now r else r
  counted : ∀ u r, a.table.find (C.uuidText u) = some r → p r = true →
    count (Event.isRequeueOf C u) a.log < count (Event.isRequeueOf C u) b.log

theorem Requeues.kept {p : Row → Bool} (h : Requeues C d p now a b) {k : String} {r : Row}
    (hr : a.table.find k = some r) (hp : p r = false) : b.table.find k = some r := by
  rw [h.find, hr, Option.map_some, hp]
  rfl

/-- A step that requeues and records it. -/
theorem Calm.requeues (h : Calm C d a) {p : Row → Bool} (hnow : now.YearInRange) (hs : Step C d a now b)
    (ht : b.table = a.table.update p _ (requeueRow_id now))
    (hl : b.log = (a.emit now (State.requeuedEvents a.table p)).log)
    (hq : b.alive = a.alive) : Requeues C d p now a b where
  goes := Goes.step now hs (by rw [hl, State.emit, count_append, requeuedEvents_inside, Nat.zero_add])
  calm := h.step hs (ht ▸ h.written.update (requeueRow_id now) fun r hr => hr.requeueRow hnow) (hq.trans h.quiet)
  find k := by rw [ht]; exact Table.find_update _ _ _ _ k
  counted u r hr hp := by
    have : 0 < (State.requeuedEvents a.table p : List (Event τ)).countP _ := countP_requeuedEvents hr hp
    rw [hl, State.emit, count_append]
    omega

theorem Calm.recovers (h : Calm C d a) (hc : a.control = .starting) (hnow : now.YearInRange) :
    ∃ b, Requeues C d isSending now a b ∧ b.control = .polling :=
  ⟨_, h.requeues hnow (.recover hc) rfl rfl rfl, rfl⟩

theorem Calm.reclaims (h : Calm C d a) {t cutoff : DateTime} (hc : a.control = .reclaiming t cutoff)
    (hnow : now.YearInRange) :
    ∃ b, Requeues C d (isStale cutoff) now a b ∧ b.control = .fetching t :=
  ⟨_, h.requeues hnow (.reclaim hc) rfl rfl rfl, rfl⟩

/-- A tick that starts now and reclaims. -/
theorem Calm.ticks (h : Calm C d a) (hc : a.control = .polling) (hnow : now.YearInRange) {cutoff : DateTime}
    (hcut : d.cutoff now = some cutoff) :
    ∃ b, Requeues C d (isStale cutoff) now a b ∧ b.control = .fetching now := by
  have helapse : Step C d a now { a with pollElapsed := true } := .elapse
  have htick : Step C d { a with pollElapsed := true } now _ := .tick hc rfl hcut
  have hx := (h.step helapse h.written h.quiet).step htick h.written h.quiet
  obtain ⟨b, hb, hbc⟩ := hx.reclaims rfl hnow
  refine ⟨b, ⟨((Goes.step now helapse rfl).trans (Goes.step now htick ?_)).trans hb.goes, hb.calm, hb.find,
    fun u r hr hp => ?_⟩, hbc⟩
  · simp [State.emit, Event.isOutside]
  · simpa [State.emit, Event.isRequeueOf] using hb.counted u r hr hp

/-- The fetch of a tick: with a due row and a batch size, it has mails. -/
theorem Calm.fetches (h : Calm C d a) {t : DateTime} (hc : a.control = .fetching t)
    (hmax : d.config.concurrency ≤ maxPermits) :
    ∃ due b, Goes C d a b ∧ Calm C d b ∧ b.table = a.table ∧
      (due = [] ∧ b.control = .polling ∨ due ≠ [] ∧ b.control = .claiming due) ∧
      ((∃ r ∈ a.table, isDue t r = true) → 1 ≤ d.config.batchSize.toNat → due ≠ []) := by
  obtain ⟨f, hf⟩ := h.written.decoding
  have hspec := Table.select_spec (List.Perm.refl a.table.rows) (isDue t) Row.nextAttemptAt d.config.batchSize.toNat
  have hfetch : fetchDue C a.table.rows d.config.batchSize t = .ok _ :=
    mapM_ok fun r hr => hf.decodes r (hspec.2.2.1 r hr).1
  by_cases hd : (Table.select a.table.rows (isDue t) Row.nextAttemptAt d.config.batchSize.toNat).map f = []
  · rw [hd] at hfetch
    have hstep : Step C d a t _ := .fetchNone hc (List.Perm.refl _) hfetch
    refine ⟨[], _, Goes.step t hstep ?_, h.step hstep h.written h.quiet, rfl, .inl ⟨rfl, rfl⟩, ?_⟩
    · simp [State.emit, Event.isOutside]
    · intro h hbatch
      obtain ⟨r, hr, hdue⟩ := h
      have hlen := hspec.1
      have hpos := List.length_pos_of_mem (List.mem_filter.2 ⟨hr, hdue⟩)
      rw [List.map_eq_nil_iff.1 hd] at hlen
      simp only [List.length_nil] at hlen
      omega
  · have hstep : Step C d a t _ := .fetch hc (List.Perm.refl _) hfetch hd hmax
    refine ⟨_, _, Goes.step t hstep ?_, h.step hstep h.written h.quiet, rfl, .inr ⟨hd, rfl⟩, fun _ _ => hd⟩
    rw [State.emit, count_append, List.countP_map, List.countP_eq_zero.2 (by simp [Event.isOutside]), Nat.zero_add]

theorem isDue_not_sending {r : Row} (h : isDue now r = true) : isSending r = false := by
  simp only [isDue, decide_eq_true_eq] at h
  rcases h.1 with hs | hs <;> simp [isSending, hs]

theorem isDue_not_stale {cutoff : DateTime} {r : Row} (h : isDue now r = true) : isStale cutoff r = false := by
  simp only [isDue, decide_eq_true_eq] at h
  rcases h.1 with hs | hs <;> simp [isStale, hs]

/-! ## From anywhere to the next tick -/

/-- A mail the batch has still to claim is pending or failed. -/
theorem Reachable.not_fetched (h : Reachable C d a) {m : Mail} (hm : m ∈ a.control.due) {r : Row}
    (hr : a.table.find (C.uuidText m.id) = some r) : r.status = "pending" ∨ r.status = "failed" := by
  have hx : (⟨m, .fetched⟩ : Slot τ) ∈ a.slots := by
    cases hc : a.control <;> simp_all [Control.due, State.slots, Control.slots, fetchedSlots]
  obtain ⟨r', hr', hco⟩ := h.row_of_slot hx
  cases hr.symm.trans hr'
  exact (hco.fetched rfl).2

/-- With a free permit and no live delivery, the dispatcher can come to its
next tick, leaving the rows of the mails it does not hold. -/
theorem Calm.polls (h : Calm C d a) (hb : a.control.inBatch = true) (hnow : now.YearInRange)
    (hconc : 1 ≤ d.config.concurrency) :
    ∃ b, Goes C d a b ∧ Calm C d b ∧ b.control = .polling ∧
      ∀ v, (∀ m ∈ a.control.due, m.id ≠ v) → (∀ m due, a.control = .acquiring m due → m.id ≠ v) →
        b.table.find (C.uuidText v) = a.table.find (C.uuidText v) := by
  cases hc : a.control with
  | claiming due =>
    obtain ⟨b, hb, hcb, hbc, hbo⟩ := h.finishes hc hnow hconc
    exact ⟨b, hb, hcb, hbc, fun v hv _ => hbo v hv⟩
  | acquiring m due =>
    obtain ⟨x, hx, hcx, hxc, hxo⟩ := h.spawned hc hnow hconc
    obtain ⟨b, hb, hcb, hbc, hbo⟩ := hcx.finishes hxc hnow hconc
    exact ⟨b, hx.trans hb, hcb, hbc, fun v hv hm => (hbo v hv).trans (hxo v (hm m due rfl).symm)⟩
  | joining n =>
    obtain ⟨b, hb, hcb, hbc, hbt⟩ := Calm.joins a.tasks h hc rfl
    exact ⟨b, hb, hcb, hbc, fun v _ _ => by rw [hbt]⟩
  | _ => simp [hc, Control.inBatch] at hb

/-! ## Claiming without live deliveries -/

/-- The dispatcher comes to claim a mail and start its delivery. -/
def ComesToClaim (C : Codec) (d : Dispatcher τ) (a : State τ) : Prop :=
  ∃ u b, Goes C d a b ∧ count (Event.isClaimOf u) a.log < count (Event.isClaimOf u) b.log ∧
    ∃ t ∈ b.tasks, t.mail.id = u ∧ t.alive = true

theorem ComesToClaim.of_goes (h : ComesToClaim C d b) (hab : Goes C d a b) (ha : Reachable C d a) :
    ComesToClaim C d a := by
  obtain ⟨u, c, hbc, hlt, ht⟩ := h
  have hle := Steps.count_le ha.exclusive (Goes.steps hab) fun _ => Event.about_of_isClaimOf (C := C) (u := u)
  exact ⟨u, c, hab.trans hbc, hle.trans_lt hlt, ht⟩

theorem Calm.comesToClaim_claiming (h : Calm C d a) {due : List Mail} (hc : a.control = .claiming due)
    (hd : due ≠ []) (hnow : now.YearInRange) (hconc : 1 ≤ d.config.concurrency) : ComesToClaim C d a := by
  cases due with
  | nil => exact absurd rfl hd
  | cons m due =>
    have := h.permits (by rw [hc]; rfl)
    obtain ⟨x, b, hx, hb, -, hbt, hlt⟩ :=
      claims_and_spawns h.reachable h.written hnow hc (p := a.permits - 1) (by omega)
    exact ⟨m.id, b, (Relation.ReflTransGen.single hx).tail hb, hlt, ⟨m, .spawned⟩, by simp [hbt], rfl, rfl⟩

/-- A due row is a reason to claim at the next tick. -/
theorem Calm.comesToClaim_polling (h : Calm C d a) (hc : a.control = .polling) (hnow : now.YearInRange)
    {cutoff : DateTime} (hcut : d.cutoff now = some cutoff) (hconc : 1 ≤ d.config.concurrency)
    (hmax : d.config.concurrency ≤ maxPermits) (hbatch : 1 ≤ d.config.batchSize.toNat) {k : String} {r : Row}
    (hr : a.table.find k = some r) (hdue : isDue now r = true) : ComesToClaim C d a := by
  obtain ⟨x, hx, hxc⟩ := h.ticks hc hnow hcut
  obtain ⟨due, b, hb, hcb, -, hbc, hne⟩ := hx.calm.fetches hxc hmax
  have hr' := hx.kept hr (isDue_not_stale hdue)
  have hd := hne ⟨r, (Table.find_eq_some.1 hr').1, hdue⟩ hbatch
  rcases hbc with ⟨hd', -⟩ | ⟨-, hbc⟩
  · exact absurd hd' hd
  · exact (hcb.comesToClaim_claiming hbc hd hnow hconc).of_goes (hx.goes.trans hb) h.reachable

/-- A due row is a reason to claim, wherever the dispatcher stands. -/
theorem Calm.comesToClaim (h : Calm C d a) (hlive : a.control.isLive = true) (hnow : now.YearInRange)
    {cutoff : DateTime} (hcut : d.cutoff now = some cutoff) (hconc : 1 ≤ d.config.concurrency)
    (hmax : d.config.concurrency ≤ maxPermits) (hbatch : 1 ≤ d.config.batchSize.toNat) (hd : a.control.due = [])
    {r : Row} (hr : a.table.find (C.uuidText v) = some r) (hdue : isDue now r = true) : ComesToClaim C d a := by
  have polls {x : State τ} (hx : Goes C d a x) (hcx : Calm C d x) (hxc : x.control = .polling)
      (hrx : x.table.find (C.uuidText v) = some r) : ComesToClaim C d a :=
    (hcx.comesToClaim_polling hxc hnow hcut hconc hmax hbatch hrx hdue).of_goes hx h.reachable
  have fetches {x : State τ} {t : DateTime} (hx : Goes C d a x) (hcx : Calm C d x) (hxc : x.control = .fetching t)
      (hrx : x.table.find (C.uuidText v) = some r) : ComesToClaim C d a := by
    obtain ⟨due, b, hb, hcb, hbt, ⟨-, hbc⟩ | ⟨hd, hbc⟩, -⟩ := hcx.fetches hxc hmax
    · exact polls (hx.trans hb) hcb hbc (hbt ▸ hrx)
    · exact (hcb.comesToClaim_claiming hbc hd hnow hconc).of_goes (hx.trans hb) h.reachable
  cases hc : a.control with
  | down | stopped => simp [hc, Control.isLive] at hlive
  | starting =>
    obtain ⟨x, hx, hxc⟩ := h.recovers hc hnow
    exact polls hx.goes hx.calm hxc (hx.kept hr (isDue_not_sending hdue))
  | polling => exact polls .refl h hc hr
  | reclaiming t c =>
    obtain ⟨x, hx, hxc⟩ := h.reclaims hc hnow
    exact fetches hx.goes hx.calm hxc (hx.kept hr (isDue_not_stale hdue))
  | fetching t => exact fetches .refl h hc hr
  | claiming | acquiring | joining =>
    obtain ⟨x, hx, hcx, hxc, hxo⟩ := h.polls (by rw [hc]; rfl) hnow hconc
    refine polls hx hcx hxc ((hxo v (by simp [hd]) fun m due hm hv => ?_).trans hr)
    -- the row of a claimed mail is sending
    obtain ⟨r', hr', hco⟩ := h.reachable.row_of_slot (x := ⟨m, .claimed⟩) (by simp [State.slots, hm, Control.slots])
    subst hv
    obtain rfl : r' = r := Option.some.inj (hr'.symm.trans hr)
    simp [isDue, (hco.inFlight rfl).1] at hdue

/-! ## Reclaiming without other live deliveries -/

/-- A claimed mail whose delivery panics at once leaves the table alone. -/
theorem Calm.spawned_panics (h : Calm C d a) {m : Mail} {due : List Mail} (hc : a.control = .acquiring m due)
    (hconc : 1 ≤ d.config.concurrency) :
    ∃ b, Goes C d a b ∧ Calm C d b ∧ b.control = .claiming due ∧ b.table = a.table := by
  have := h.permits (by rw [hc]; rfl)
  have hspawn : Step C d a default _ := .spawn hc (p := a.permits - 1) (by omega)
  have hpanic : Step C d _ default _ := .panic (s := { a with
    control := .claiming due
    permits := a.permits - 1
    tasks := a.tasks ++ [⟨m, .spawned⟩] }) (i := a.tasks.length) (t := ⟨m, .spawned⟩) (by simp) rfl
  have hgoes := (Goes.step default hspawn rfl).trans
    (Goes.step default hpanic (by simp [State.emit, State.endTask, State.setStage, Event.isOutside]))
  refine ⟨_, hgoes, ⟨Goes.reachable hgoes h.reachable, h.written, ?_⟩, rfl, rfl⟩
  have hq := h.quiet
  simp only [State.alive, State.emit, State.endTask, State.setStage] at hq ⊢
  rw [List.set_append_right _ _ le_rfl, List.countP_append, hq]
  simp [Task.alive]

/-- The row comes to be moved back to pending. -/
def ComesToReclaim (C : Codec) (d : Dispatcher τ) (a : State τ) (u : MailId) : Prop :=
  ∃ b, Goes C d a b ∧ count (Event.isRequeueOf C u) a.log < count (Event.isRequeueOf C u) b.log

theorem ComesToReclaim.of_goes (h : ComesToReclaim C d b u) (hab : Goes C d a b) (ha : Reachable C d a) :
    ComesToReclaim C d a u := by
  obtain ⟨c, hbc, hlt⟩ := h
  have hle := Steps.count_le ha.exclusive (Goes.steps hab) fun _ => Event.about_of_isRequeueOf (C := C) (u := u)
  exact ⟨c, hab.trans hbc, hle.trans_lt hlt⟩

/-- A stale row is moved back to pending, wherever the dispatcher stands. -/
theorem Calm.comesToReclaim (h : Calm C d a) (hlive : a.control.isLive = true) (hnow : now.YearInRange)
    {cutoff : DateTime} (hcut : d.cutoff now = some cutoff) (hconc : 1 ≤ d.config.concurrency)
    (hmax : d.config.concurrency ≤ maxPermits) {r : Row} (hr : a.table.find (C.uuidText u) = some r)
    (hst : isStale cutoff r = true) : ComesToReclaim C d a u := by
  have hsending : r.status = "sending" := by
    simp only [isStale, decide_eq_true_eq] at hst
    exact hst.1
  have polls {x : State τ} (hx : Goes C d a x) (hcx : Calm C d x) (hxc : x.control = .polling)
      (hrx : x.table.find (C.uuidText u) = some r) : ComesToReclaim C d a u := by
    obtain ⟨y, hy, -⟩ := hcx.ticks hxc hnow hcut
    exact .of_goes ⟨y, hy.goes, hy.counted u r hrx hst⟩ hx h.reachable
  have batch {x : State τ} (hx : Goes C d a x) (hcx : Calm C d x) {due : List Mail}
      (hxc : x.control = .claiming due) (hrx : x.table.find (C.uuidText u) = some r) :
      ComesToReclaim C d a u := by
    obtain ⟨y, hy, hcy, hyc, hyo⟩ := hcx.finishes hxc hnow hconc
    refine polls (hx.trans hy) hcy hyc ((hyo u fun m hm hmu => ?_).trans hrx)
    have := hcx.reachable.not_fetched (m := m) (by simpa [hxc, Control.due] using hm) (hmu ▸ hrx)
    simp [hsending] at this
  have fetches {x : State τ} {t : DateTime} (hx : Goes C d a x) (hcx : Calm C d x) (hxc : x.control = .fetching t)
      (hrx : x.table.find (C.uuidText u) = some r) : ComesToReclaim C d a u := by
    obtain ⟨due, b, hb, hcb, hbt, ⟨-, hbc⟩ | ⟨-, hbc⟩, -⟩ := hcx.fetches hxc hmax
    · exact polls (hx.trans hb) hcb hbc (hbt ▸ hrx)
    · exact batch (hx.trans hb) hcb hbc (hbt ▸ hrx)
  cases hc : a.control with
  | down | stopped => simp [hc, Control.isLive] at hlive
  | starting =>
    obtain ⟨x, hx, -⟩ := h.recovers hc hnow
    exact ⟨x, hx.goes, hx.counted u r hr (by simp [isSending, hsending])⟩
  | polling => exact polls .refl h hc hr
  | reclaiming t c =>
    obtain ⟨x, hx, hxc⟩ := h.reclaims hc hnow
    cases hsc : isStale c r with
    | true => exact ⟨x, hx.goes, hx.counted u r hr hsc⟩
    | false => exact fetches hx.goes hx.calm hxc (hx.kept hr hsc)
  | fetching t => exact fetches .refl h hc hr
  | claiming due => exact batch .refl h hc hr
  | acquiring m due =>
    obtain ⟨x, hx, hcx, hxc, hxt⟩ := h.spawned_panics hc hconc
    exact batch hx hcx hxc (hxt ▸ hr)
  | joining n =>
    obtain ⟨x, hx, hcx, hxc, hxt⟩ := Calm.joins a.tasks h hc rfl
    exact polls hx hcx hxc (hxt ▸ hr)

/-! ## Exactly when -/

/-- Every delivery alive can panic. -/
theorem panics : ∀ (n : Nat) {a : State τ}, a.alive = n → Reachable C d a → AllWritten C YearInRange a.table →
    ∃ b, Goes C d a b ∧ Calm C d b ∧ b.control = a.control ∧ b.table = a.table
  | 0, a, hn, h, hw => ⟨a, .refl, ⟨h, hw, hn⟩, rfl, rfl⟩
  | n + 1, a, hn, h, hw => by
    obtain ⟨t, ht, hal⟩ := List.countP_pos_iff.1 (show 0 < a.alive by omega)
    obtain ⟨i, hi, rfl⟩ := List.getElem_of_mem ht
    have hstep : Step C d a default _ := .panic (List.getElem?_eq_getElem hi) hal
    have hlt : ((a.endTask i a.tasks[i]).emit default [.panicked a.tasks[i].mail.id]).alive = n := by
      have := alive_setStage (List.getElem?_eq_getElem hi) .ended
      rw [hal, hn] at this
      simpa [State.alive, State.emit, State.endTask, State.setStage, Task.alive] using this
    obtain ⟨b, hb, hcb, hbc, hbt⟩ := panics n hlt (h.step hstep) hw
    refine ⟨b, (Goes.step default hstep ?_).trans hb, hcb, hbc, hbt⟩
    simp [State.emit, State.endTask, State.setStage, Event.isOutside]

/-- Where no delivery that counts is alive, any steps of the dispatcher will do. -/
theorem Goes.meantime {p : MailId → Prop} (h : Goes C d s b) (hq : ∀ t ∈ s.tasks, t.alive = true → ¬ p t.mail.id) :
    Meantime C d p s b :=
  Run.weaken (fun _ _ hxy => ⟨hxy, fun t ht hal hp => absurd hp (hq t ht hal)⟩) h

theorem not_alive_of_zero (h : s.alive = 0) {t : Task τ} (ht : t ∈ s.tasks) : t.alive ≠ true :=
  List.countP_eq_zero.1 h t ht

/-- **When slow deliveries block the others.** In a state of `run`, with a
free permit: a due mail can be claimed and its delivery started before a
delivery under way finishes exactly when there is none, or the batch under
way still has mails to claim. A stale row can be reclaimed before another
delivery under way finishes exactly when there is none. -/
theorem claims_iff (h : ReachableFromEmpty C d s) (hrange : ∀ at_, WrittenIn s.log at_ → at_.YearInRange)
    (hlive : s.control.isLive = true) (hconc : 1 ≤ d.config.concurrency) (hmax : d.config.concurrency ≤ maxPermits)
    (hbatch : 1 ≤ d.config.batchSize.toNat) (hnow : now.YearInRange) {cutoff : DateTime}
    (hcut : d.cutoff now = some cutoff) :
    (∀ v r, s.table.find (C.uuidText v) = some r → isDue now r = true → s.alive < d.config.concurrency →
      s.pollElapsed = true → (CanClaim C d s ↔ s.alive = 0 ∨ s.control.due ≠ [])) ∧
    (∀ u r, s.table.find (C.uuidText u) = some r → isStale cutoff r = true →
      (CanReclaim C d s u ↔ ∀ t ∈ s.tasks, t.alive = true → t.mail.id = u)) := by
  have hr := h.reachable
  have hw : AllWritten C YearInRange s.table := fun r hr =>
    (h.rowWritten (Table.find_self hr)).mono hrange
  refine ⟨fun v r hv hdue hfree _ => ⟨fun hcan => ?_, ?_⟩,
    fun u r hu hst => ⟨fun hcan t ht hal => ?_, fun hall => ?_⟩⟩
  · by_contra hno
    rw [not_or, not_not] at hno
    exact not_canClaim hr.exclusive (Nat.pos_of_ne_zero hno.1) hno.2 hcan
  · intro h
    rcases h with hq | hd
    · by_cases hd : s.control.due = []
      · obtain ⟨u, b, hb, hlt, ht⟩ := Calm.comesToClaim ⟨hr, hw, hq⟩ hlive hnow hcut hconc hmax hbatch hd hv hdue
        exact ⟨u, b, hb.meantime fun t ht hal => absurd hal (not_alive_of_zero hq ht), hlt, ht⟩
      · exact canClaim_of_due hr hw hnow hfree hd
    · exact canClaim_of_due hr hw hnow hfree hd
  · by_contra hne
    exact not_canReclaim hr.exclusive ht hal hne hcan
  · obtain ⟨x, hx, hcx, hxc, hxt⟩ := panics s.alive rfl hr hw
    obtain ⟨b, hb, hlt⟩ := (hcx.comesToReclaim (hxc ▸ hlive) hnow hcut hconc hmax (hxt ▸ hu) hst).of_goes hx hr
    exact ⟨b, hb.meantime fun t ht hal => not_not.2 (hall t ht hal), hlt⟩

/-! ## A slow target that blocks -/

/-- The rows of the example, pending: one mail that is slow, one whose delivery
panics, one enqueued while the first is being sent. -/
def pendingRow (n : BitVec 128) : Row := mailToRow textCodec (exampleMails n)

/-- When the first two were claimed. -/
def claimTime : DateTime := secondsPastEpoch 121 (by decide)

def sendingRow (n : BitVec 128) : Row := setStatusRow claimTime .sending none false none (pendingRow n)

/-- The first mail is being sent, the second is not claimed yet. -/
def busyState : State Unit where
  table := ⟨[sendingRow 0, pendingRow 1], by decide +kernel⟩
  control := .claiming [exampleMails 1]
  tasks := [⟨exampleMails 0, .sending ()⟩]
  permits := 7
  pollElapsed := true
  log := [⟨claimTime, .sendStarted () (exampleMails 0)⟩, ⟨claimTime, .claimed ⟨0⟩⟩,
    ⟨claimTime, .fetched (exampleMails 0)⟩, ⟨claimTime, .fetched (exampleMails 1)⟩,
    ⟨claimTime, .enqueued (exampleMails 1)⟩, ⟨claimTime, .enqueued (exampleMails 0)⟩,
    ⟨claimTime, .tickStarted⟩, ⟨claimTime, .started⟩]

def slowTable : Mails where
  rows := [sendingRow 0, sendingRow 1, pendingRow 2]
  primaryKey := by decide +kernel

/-- The tick awaits its first delivery. -/
def slowState : State Unit where
  table := slowTable
  control := .joining 2
  tasks := [⟨exampleMails 0, .sending ()⟩, ⟨exampleMails 1, .ended⟩]
  permits := 7
  pollElapsed := true
  log := [⟨claimTime, .enqueued (exampleMails 2)⟩, ⟨claimTime, .panicked ⟨1⟩⟩, ⟨claimTime, .claimed ⟨1⟩⟩] ++
    busyState.log

theorem run_busyState : (State.initial Table.empty).run textCodec exampleDispatcher
    (scriptAt claimTime [.start, .recover true, .tick, .reclaim true, .enqueue (exampleMails 0),
      .enqueue (exampleMails 1), .fetch id, .claim true, .spawn, .deliver 0, .elapse]) = some busyState := by
  decide +kernel

theorem run_slowState : busyState.run textCodec exampleDispatcher
    (scriptAt claimTime [.claim true, .spawn, .panic 1, .endClaims, .enqueue (exampleMails 2)]) = some slowState := by
  decide +kernel

theorem reachable_busyState : ReachableFromEmpty textCodec exampleDispatcher busyState := Steps.of_run run_busyState

theorem reachable_slowState : ReachableFromEmpty textCodec exampleDispatcher slowState :=
  reachable_busyState.trans (Steps.of_run run_slowState)

theorem slowState_written : ∀ at_, WrittenIn slowState.log at_ → at_.YearInRange := fun at_ h => by
  have hall : ∀ x ∈ slowState.log, ∀ at_ ∈ x.written, at_.YearInRange := by decide
  obtain ⟨x, hx, hat⟩ := h
  exact hall x hx at_ hat

/-- A state of the batch under way has written no more. -/
theorem busyState_written : ∀ at_, WrittenIn busyState.log at_ → at_.YearInRange := fun at_ h =>
  slowState_written at_ (h.suffix ⟨_, rfl⟩)

theorem pendingRow_due (n : BitVec 128) : isDue (firstDay 1000) (pendingRow n) = true := by
  simp only [isDue, decide_eq_true_eq]
  exact ⟨.inl rfl, (toRfc3339_le_iff (a := default) (by decide) (by decide)).2 (by decide)⟩

theorem sendingRow_stale (n : BitVec 128) : isStale (firstDay 880) (sendingRow n) = true := by
  simp only [isStale, decide_eq_true_eq]
  exact ⟨rfl, (toRfc3339_lt_iff (a := claimTime) (by decide) (by decide)).2 (by decide)⟩

theorem slowState_pending : slowState.table.find (textCodec.uuidText ⟨2⟩) = some (pendingRow 2) :=
  Table.find_eq_some.2 ⟨by simp [Table.mem_def, slowState, slowTable], rfl⟩

theorem slowState_sending {n : BitVec 128} (h : n = 0 ∨ n = 1) :
    slowState.table.find (textCodec.uuidText ⟨n⟩) = some (sendingRow n) :=
  Table.find_eq_some.2 ⟨by rcases h with rfl | rfl <;> simp [Table.mem_def, slowState, slowTable], rfl⟩

/-- While the batch under way has a mail to claim, one slow delivery blocks
nothing; when it has none, nothing but the slow mail's own row moves. -/
theorem claims_iff_example :
    CanClaim textCodec exampleDispatcher busyState ∧ ¬ CanClaim textCodec exampleDispatcher slowState ∧
      ¬ CanReclaim textCodec exampleDispatcher slowState ⟨1⟩ ∧
      CanReclaim textCodec exampleDispatcher slowState ⟨0⟩ := by
  have hnow : (firstDay 1000).YearInRange := by decide
  have hcut : exampleDispatcher.cutoff (firstDay 1000) = some (firstDay 880) := by decide
  have hbusy := claims_iff reachable_busyState busyState_written rfl (by decide) (by decide) (by decide) hnow hcut
  have hslow := claims_iff reachable_slowState slowState_written rfl (by decide) (by decide) (by decide) hnow hcut
  have hclaim : CanClaim textCodec exampleDispatcher slowState ↔ slowState.alive = 0 ∨ slowState.control.due ≠ [] :=
    hslow.1 ⟨2⟩ (pendingRow 2) slowState_pending (pendingRow_due 2) (by decide) rfl
  refine ⟨?_, mt hclaim.1 ?_, mt (hslow.2 ⟨1⟩ (sendingRow 1) (slowState_sending (by simp)) (sendingRow_stale 1)).1 ?_,
    (hslow.2 ⟨0⟩ (sendingRow 0) (slowState_sending (by simp)) (sendingRow_stale 0)).2 ?_⟩
  · exact (hbusy.1 ⟨1⟩ (pendingRow 1) (Table.find_eq_some.2 ⟨by simp [Table.mem_def, busyState], rfl⟩)
      (pendingRow_due 1) (by decide) rfl).2 (.inr (List.cons_ne_nil _ _))
  · simp [slowState, State.alive, Task.alive, Control.due]
  · simp [slowState, Task.alive, exampleMails]
  · simp [slowState, Task.alive, exampleMails]

/-- **One slow delivery of eight blocks the others.** In `slowState`, at
1000 seconds past the epoch, one delivery is alive and seven permits are
free. A pending mail is due and a row has been sending for longer than the
lease, but neither can be claimed or reclaimed before the slow delivery
finishes. -/
theorem slowState_blocked :
    ReachableFromEmpty textCodec exampleDispatcher slowState ∧
    slowState.alive < exampleDispatcher.config.concurrency ∧ slowState.pollElapsed = true ∧
    (∃ now cutoff, exampleDispatcher.cutoff now = some cutoff ∧
      (∃ r, slowState.table.find (textCodec.uuidText ⟨2⟩) = some r ∧ isDue now r = true) ∧
      ∃ r, slowState.table.find (textCodec.uuidText ⟨1⟩) = some r ∧ isStale cutoff r = true) ∧
    ¬ CanClaim textCodec exampleDispatcher slowState ∧ ¬ CanReclaim textCodec exampleDispatcher slowState ⟨1⟩ := by
  have hexcl := reachable_slowState.reachable.exclusive
  refine ⟨reachable_slowState, by decide, rfl, ⟨firstDay 1000, firstDay 880, by decide,
    ⟨pendingRow 2, slowState_pending, pendingRow_due 2⟩, ⟨sendingRow 1, slowState_sending (by simp),
    sendingRow_stale 1⟩⟩, not_canClaim hexcl (by decide) rfl, ?_⟩
  exact not_canReclaim hexcl (t := ⟨exampleMails 0, .sending ()⟩) (by simp [slowState]) rfl (by decide)

end OxidRelay
