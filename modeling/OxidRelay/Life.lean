/-
The life of one mail. `State.track` reads off a state what concerns one
id: its row, the slot the dispatcher holds it in, and the log entries
about it. `Life` lists what a step can do to that, and `Step.life` shows
that every step of the system is one of these for every id: the statements
about single mails over whole runs are invariants of `Life`.
-/
import OxidRelay.Exclusive

namespace OxidRelay

open SqliteQueue

variable {τ : Type}

/-! ## Tracks -/

/-- Whether an event concerns an id; crashes and ticks concern every id. -/
def Event.about (C : Codec) (u : MailId) : Event τ → Bool
  | .enqueued m | .fetched m | .sendStarted _ m => m.id = u
  | .requeued key => key = C.uuidText u
  | .claimed v | .claimFailed v | .sendEnded v _ | .marked v _ | .markFailed v | .panicked v => v = u
  | .crashed | .tickStarted => true
  | .started | .exited | .tickEnded _ => false

structure Track (τ : Type) where
  row : Option Row
  slot : Option (Slot τ)
  log : List (Entry τ)

def State.track (s : State τ) (C : Codec) (u : MailId) : Track τ where
  row := s.table.find (C.uuidText u)
  slot := Keyed.get Slot.id s.slots u
  log := s.log.filter fun e => e.event.about C u

/-- The row after a status write that took effect. -/
def Mark.row (now : DateTime) (r : Row) : Mark → Row
  | .sent => setStatusRow now .sent none false none r
  | .failed error retryAt => setStatusRow now .failed (some error) true (some retryAt) r
  | .dead error => setStatusRow now .dead (some error) true none r

theorem Mark.run_ok {C : Codec} {now : DateTime} {T U : Mails} {v : MailId} {mk : Mark}
    (h : mk.run C T now v = .ok U) :
    (∃ r, T.find (C.uuidText v) = some r ∧ U.find (C.uuidText v) = some (mk.row now r)) ∧
      ∀ u, u ≠ v → U.find (C.uuidText u) = T.find (C.uuidText u) := by
  cases mk <;> exact ⟨find_setStatus_self h, fun u hu => find_setStatus_other hu h⟩

/-- What a step does to the mail of id `u`. -/
inductive Life (C : Codec) (d : Dispatcher τ) (u : MailId) : Track τ → DateTime → Track τ → Prop
  | stay : Life C d u t now t
  | crashed : Life C d u t now { t with slot := none, log := ⟨now, .crashed⟩ :: t.log }
  | tickStarted : t.slot = none → Life C d u t now { t with log := ⟨now, .tickStarted⟩ :: t.log }
  | enqueued : t.row = none → mail.id = u →
      Life C d u t now { t with row := some (mailToRow C mail), log := ⟨now, .enqueued mail⟩ :: t.log }
  /- Both requeues meet a mail only when it is not held. -/
  | requeued : t.row = some r → r.status = "sending" → t.slot = none →
      Life C d u t now { t with row := some (requeueRow now r), log := ⟨now, .requeued (C.uuidText u)⟩ :: t.log }
  | fetched : t.row = some r → t.slot = none → isDue tick r = true → rowToMail C r = .ok m → m.id = u →
      (∀ e ∈ window t.log, e.event.isWork = false) →
      Life C d u t now { t with slot := some ⟨m, .fetched⟩, log := ⟨now, .fetched m⟩ :: t.log }
  | claimed : t.slot = some ⟨m, .fetched⟩ → t.row = some r →
      Life C d u t now {
        row := some (setStatusRow now .sending none false none r)
        slot := some ⟨m, .claimed⟩
        log := ⟨now, .claimed u⟩ :: t.log }
  | claimFailed : t.slot = some ⟨m, .fetched⟩ →
      Life C d u t now { t with slot := none, log := ⟨now, .claimFailed u⟩ :: t.log }
  | spawned : t.slot = some ⟨m, .claimed⟩ →
      Life C d u t now { t with slot := some ⟨m, .running .spawned⟩ }
  | sendStarted : t.slot = some ⟨m, .running .spawned⟩ → d.transportFor m.transport = some tr →
      Life C d u t now {
        t with slot := some ⟨m, .running (.sending tr)⟩, log := ⟨now, .sendStarted tr m⟩ :: t.log }
  | noTransport : t.slot = some ⟨m, .running .spawned⟩ → d.transportFor m.transport = none →
      Life C d u t now { t with slot := some ⟨m, .running (.marking (.dead (d.noTransportMessage C m)))⟩ }
  | sendOk : t.slot = some ⟨m, .running (.sending tr)⟩ →
      Life C d u t now {
        t with slot := some ⟨m, .running (.marking .sent)⟩, log := ⟨now, .sendEnded u true⟩ :: t.log }
  | sendErr : t.slot = some ⟨m, .running (.sending tr)⟩ → d.onError m err now = some mk →
      Life C d u t now {
        t with slot := some ⟨m, .running (.marking mk)⟩, log := ⟨now, .sendEnded u false⟩ :: t.log }
  | sendErrPanicked : t.slot = some ⟨m, .running (.sending tr)⟩ →
      Life C d u t now {
        t with
        slot := some ⟨m, .running .ended⟩
        log := ⟨now, .panicked u⟩ :: ⟨now, .sendEnded u false⟩ :: t.log }
  | marked : t.slot = some ⟨m, .running (.marking mk)⟩ → t.row = some r →
      Life C d u t now {
        row := some (mk.row now r)
        slot := some ⟨m, .running .returned⟩
        log := ⟨now, .marked u mk⟩ :: t.log }
  | markFailed : t.slot = some ⟨m, .running (.marking mk)⟩ →
      Life C d u t now { t with slot := some ⟨m, .running .returned⟩, log := ⟨now, .markFailed u⟩ :: t.log }
  | finished : t.slot = some ⟨m, .running .returned⟩ →
      Life C d u t now { t with slot := some ⟨m, .running .ended⟩ }
  | panicked : t.slot = some ⟨m, .running stage⟩ → Task.alive ⟨m, stage⟩ = true →
      Life C d u t now { t with slot := some ⟨m, .running .ended⟩, log := ⟨now, .panicked u⟩ :: t.log }
  | joined : t.slot = some ⟨m, .running .ended⟩ → Life C d u t now { t with slot := none }

/-! ## Every step is a step in every life -/

variable {C : Codec} {d : Dispatcher τ} {s s' : State τ} {now : DateTime} {u : MailId}

theorem filter_emit (events : List (Event τ)) (log : List (Entry τ)) (p : Event τ → Bool) :
    (events.map (fun e => (⟨now, e⟩ : Entry τ)) ++ log).filter (fun e => p e.event) =
      (events.filter p).map (fun e => ⟨now, e⟩) ++ log.filter fun e => p e.event := by
  rw [List.filter_append, List.filter_map]
  rfl

/-- A step that concerns the mail in one slot. -/
theorem Life.of_slot (a : Slot τ) (x : Option (Slot τ)) (events : List (Event τ))
    (ha : Keyed.get Slot.id s.slots a.id = some a)
    (hslots : ∀ u, Keyed.get Slot.id s'.slots u = if a.id = u then x else Keyed.get Slot.id s.slots u)
    (htable : ∀ u, u ≠ a.id → s'.table.find (C.uuidText u) = s.table.find (C.uuidText u))
    (hlog : s'.log = events.map (fun e => ⟨now, e⟩) ++ s.log)
    (hevents : ∀ e ∈ events, ∀ u, e.about C u = decide (a.id = u))
    (hlife : ∀ log, Life C d a.id ⟨s.table.find (C.uuidText a.id), some a, log⟩ now
      ⟨s'.table.find (C.uuidText a.id), x, events.map (fun e => ⟨now, e⟩) ++ log⟩) :
    Life C d u (s.track C u) now (s'.track C u) := by
  by_cases hu : a.id = u
  · subst hu
    have hf : events.filter (fun e => e.about C a.id) = events :=
      List.filter_eq_self.2 fun e he => by simp [hevents e he]
    simp only [State.track, hslots, if_true, ha, hlog, filter_emit, hf]
    exact hlife _
  · have hf : events.filter (fun e => e.about C u) = [] :=
      List.filter_eq_nil_iff.2 fun e he => by simp [hevents e he, hu]
    have : s'.track C u = s.track C u := by
      simp only [State.track, hslots, if_neg hu, htable u (Ne.symm hu), hlog, filter_emit, hf]
      rfl
    rw [this]; exact .stay

/-- A step that concerns no single mail. -/
theorem Life.of_log (events : List (Event τ)) (hslots : s'.slots = s.slots) (htable : s'.table = s.table)
    (hlog : s'.log = events.map (fun e => ⟨now, e⟩) ++ s.log) (hevents : ∀ e ∈ events, e.about C u = false) :
    Life C d u (s.track C u) now (s'.track C u) := by
  have hf : events.filter (fun e => e.about C u) = [] :=
    List.filter_eq_nil_iff.2 fun e he => by simp [hevents e he]
  have : s'.track C u = s.track C u := by
    simp only [State.track, hslots, htable, hlog, filter_emit, hf]
    rfl
  rw [this]; exact .stay

/-- The slots when no batch is under way. -/
theorem Exclusive.no_slots (h : Exclusive C d s) (hb : s.control.inBatch = false) : s.slots = [] := by
  rw [State.slots, h.quiet hb]
  cases hc : s.control <;> simp_all [Control.inBatch, Control.slots]

/-- The deliveries of a task that moves to another stage. -/
theorem Exclusive.get_setStage (h : Exclusive C d s) {i : Nat} {t : Task τ} (ht : s.tasks[i]? = some t)
    (stage : Stage τ) :
    Keyed.get Slot.id s.slots t.slot.id = some t.slot ∧
      ∀ u, Keyed.get Slot.id (s.setStage i t stage).slots u =
        if t.slot.id = u then some ⟨t.mail, .running stage⟩ else Keyed.get Slot.id s.slots u := by
  obtain ⟨l₁, l₂, hl, hset⟩ := slots_at ht
  have hn := h.nodup
  rw [hl] at hn
  rw [hset, hl]
  exact ⟨Keyed.get_middle l₁ hn, Keyed.get_replace l₁ hn rfl⟩

/-- The events of a requeue that concern one id. -/
theorem requeuedEvents_about (T : Mails) (p : Row → Bool) (u : MailId) :
    (State.requeuedEvents T p : List (Event τ)).filter (fun e => e.about C u) =
      (((T.find (C.uuidText u)).toList.filter p).map fun r => .requeued r.id) := by
  rw [State.requeuedEvents, List.filter_map, List.filter_filter, ← T.filter_key, List.filter_filter]
  congr 1
  exact List.filter_congr fun r _ => Bool.and_comm _ _

/-- A requeue, which no held mail meets. -/
theorem Life.of_requeue {p : Row → Bool} (hslots : s.slots = []) (hslots' : s'.slots = [])
    (hp : ∀ r, p r = true → r.status = "sending")
    (htable : ∀ k, s'.table.find k = (s.table.find k).map fun r => if p r then requeueRow now r else r)
    (hlog : s'.log = (State.requeuedEvents s.table p).map (fun e => ⟨now, e⟩) ++ s.log) :
    Life C d u (s.track C u) now (s'.track C u) := by
  simp only [State.track, hslots, hslots', htable, hlog, filter_emit, requeuedEvents_about]
  cases hr : s.table.find (C.uuidText u) with
  | none => exact .stay
  | some r =>
    cases hpr : p r with
    | false =>
      simp only [Option.map_some, hpr, Option.toList_some, List.filter_cons, Bool.false_eq_true, if_false,
        List.filter_nil, List.map_nil, List.nil_append]
      exact .stay
    | true =>
      simp only [Option.map_some, hpr, Option.toList_some, List.filter_cons, if_true, List.filter_nil,
        List.map_cons, List.map_nil, List.cons_append, List.nil_append]
      rw [(Table.find_eq_some.1 hr).2]
      exact .requeued rfl (hp r hpr) rfl

theorem Life.of_crash : Life C d u (s.track C u) now ((s.halt now .crashed).track C u) := .crashed

theorem Life.of_tick (hslots : s.slots = []) (hslots' : s'.slots = []) (htable : s'.table = s.table)
    (hlog : s'.log = ⟨now, .tickStarted⟩ :: s.log) : Life C d u (s.track C u) now (s'.track C u) := by
  simp only [State.track, hslots, hslots', htable, hlog, List.filter_cons, Event.about, if_true]
  exact .tickStarted rfl

theorem Life.of_insert {mail : Mail} {T : Mails} (hi : s.table.insert (mailToRow C mail) = some T)
    (hslots : s'.slots = s.slots) (htable : s'.table = T) (hlog : s'.log = ⟨now, .enqueued mail⟩ :: s.log) :
    Life C d u (s.track C u) now (s'.track C u) := by
  simp only [State.track, hslots, htable, hlog, Table.find_insert hi, List.filter_cons, Event.about]
  by_cases hu : mail.id = u
  · subst hu
    simp only [mailToRow, if_true, decide_true]
    exact .enqueued (Table.insert_new hi) rfl
  · simp only [mailToRow, C.uuidText_inj, hu, if_false, decide_false, Bool.false_eq_true]
    exact .stay

/-- The window of a track is the window of the log, for what concerns the mail. -/
theorem window_filter (log : List (Entry τ)) :
    window (log.filter fun e => e.event.about C u) = (window log).filter fun e => e.event.about C u := by
  induction log with
  | nil => rfl
  | cons e log ih =>
    cases hs : e.event.startsTick with
    | true =>
      have hab : e.event.about C u = true := by cases hev : e.event <;> simp_all [Event.startsTick, Event.about]
      simp [window, hs, hab]
    | false =>
      simp only [window, List.filter_cons, List.takeWhile_cons, hs, Bool.not_false, if_true] at ih ⊢
      split
      · simp only [List.takeWhile_cons, hs, Bool.not_false, if_true, ih]
      · exact ih

theorem Life.of_fetch {due : List Mail} {tick : DateTime} (hslots : s.slots = [])
    (hslots' : s'.slots = fetchedSlots due) (htable : s'.table = s.table)
    (hlog : s'.log = (due.map .fetched).map (fun e => ⟨now, e⟩) ++ s.log)
    (hdue : ∀ m ∈ due, ∃ r, s.table.find (C.uuidText m.id) = some r ∧ isDue tick r = true ∧ rowToMail C r = .ok m)
    (hn : (due.map Mail.id).Nodup) (hw : ∀ e ∈ window s.log, e.event.isWork = false) :
    Life C d u (s.track C u) now (s'.track C u) := by
  have hget : Keyed.get Slot.id (fetchedSlots (τ := τ) due) u =
      (Keyed.get Mail.id due u).map fun m => ⟨m, .fetched⟩ :=
    Keyed.get_map _
  have hevents : (due.map (Event.fetched (τ := τ))).filter (fun e => e.about C u) =
      (Keyed.get Mail.id due u).toList.map .fetched := by
    rw [List.filter_map, ← Keyed.filter_key hn]
    rfl
  simp only [State.track, hslots, hslots', htable, hlog, filter_emit, hget, hevents]
  cases hm : Keyed.get Mail.id due u with
  | none => exact .stay
  | some m =>
    obtain ⟨hmem, rfl⟩ := Keyed.mem_of_get hm
    obtain ⟨r, hr, hisDue, hrm⟩ := hdue m hmem
    refine .fetched hr rfl hisDue hrm rfl fun e he => ?_
    rw [window_filter] at he
    exact hw e (List.mem_filter.1 he).1

/-- A delivery that moves on, and perhaps writes its row. -/
theorem Life.of_task (h : Exclusive C d s) {i : Nat} {t : Task τ} (ht : s.tasks[i]? = some t) {stage : Stage τ}
    (events : List (Event τ)) (hslots : s'.slots = (s.setStage i t stage).slots)
    (htable : ∀ u, u ≠ t.mail.id → s'.table.find (C.uuidText u) = s.table.find (C.uuidText u))
    (hlog : s'.log = events.map (fun e => ⟨now, e⟩) ++ s.log)
    (hevents : ∀ e ∈ events, ∀ u, e.about C u = decide (t.mail.id = u))
    (hlife : ∀ log, Life C d t.mail.id ⟨s.table.find (C.uuidText t.mail.id), some t.slot, log⟩ now
      ⟨s'.table.find (C.uuidText t.mail.id), some ⟨t.mail, .running stage⟩,
        events.map (fun e => ⟨now, e⟩) ++ log⟩) :
    Life C d u (s.track C u) now (s'.track C u) := by
  obtain ⟨ha, hset⟩ := h.get_setStage ht stage
  exact .of_slot _ _ events ha (by rw [hslots]; exact hset) htable hlog hevents hlife

/-- **Every step of the system is a step in the life of every mail.** -/
theorem Step.life (h : Exclusive C d s) (hs : Step C d s now s') (u : MailId) :
    Life C d u (s.track C u) now (s'.track C u) := by
  cases hs with
  | start hc =>
    refine .of_log [.started] ?_ rfl rfl (by simp [Event.about])
    simp [State.emit, State.slots, Control.slots, hc]
  | crash | tickPanics | fetchPanics => exact .of_crash
  | exit hc =>
    have hb : s.control.inBatch = false := by rw [hc]; rfl
    exact .of_log [.exited] (h.no_slots hb).symm rfl rfl (by simp [Event.about])
  | enqueue _ he => exact .of_insert (enqueue_ok he).2 rfl rfl rfl
  | recover hc =>
    have hb : s.control.inBatch = false := by rw [hc]; rfl
    refine .of_requeue (p := isSending) (h.no_slots hb) ?_ (by simp [isSending]) (find_requeueSending now) rfl
    simp [State.emit, State.slots, Control.slots, h.quiet hb]
  | recoverFails hc | shutdown hc =>
    refine .of_log [] ?_ rfl rfl (by simp)
    simp [State.slots, Control.slots, hc]
  | elapse => exact .of_log [] rfl rfl rfl (by simp)
  | tick hc _ _ =>
    have hb : s.control.inBatch = false := by rw [hc]; rfl
    refine .of_tick (h.no_slots hb) ?_ rfl rfl
    simp [State.emit, State.slots, Control.slots, h.quiet hb]
  | reclaim hc =>
    have hb : s.control.inBatch = false := by rw [hc]; rfl
    refine .of_requeue (h.no_slots hb) ?_ (fun r hr => ?_) (find_requeueStaleSending now _) rfl
    · simp [State.emit, State.slots, Control.slots, h.quiet hb]
    · simp only [isStale, decide_eq_true_eq] at hr
      exact hr.1
  | reclaimFails hc =>
    refine .of_log [] ?_ rfl rfl (by simp)
    simp [State.slots, Control.slots, hc]
  | fetchFails hc | fetchNone hc _ _ =>
    refine .of_log [.tickEnded 0] ?_ rfl rfl (by simp [Event.about])
    simp [State.emit, State.slots, Control.slots, hc]
  | fetch hc hscan hf _ _ =>
    have hb : s.control.inBatch = false := by rw [hc]; rfl
    obtain ⟨hdue, hn⟩ := fetchDue_ok h.canonical hscan hf
    refine .of_fetch (h.no_slots hb) ?_ rfl rfl hdue hn (h.unworked (by rw [hc]; rfl))
    simp [State.emit, State.slots, Control.slots, h.quiet hb]
  | claim hc hm =>
    rename_i T m due
    obtain ⟨r, hr, hr'⟩ := find_setStatus_self hm
    have hn := h.nodup
    rw [State.slots, hc] at hn
    refine .of_slot ⟨m, .fetched⟩ (some ⟨m, .claimed⟩) [.claimed _] ?_ (fun u => ?_)
      (fun u hu => find_setStatus_other hu hm) rfl (fun e he v => by cases List.mem_singleton.1 he; rfl)
      fun log => ?_
    · rw [State.slots, hc]; exact Keyed.get_middle [] hn
    · simp only [State.slots, hc]
      exact Keyed.get_replace (b := ⟨m, .claimed⟩) [] hn rfl u
    · simp only [Slot.id, hr, hr', State.emit]
      exact .claimed rfl rfl
  | claimFails hc =>
    have hn := h.nodup
    rw [State.slots, hc] at hn
    refine .of_slot ⟨_, .fetched⟩ none [.claimFailed _] ?_ (fun u => ?_)
      (fun _ _ => rfl) rfl (fun e he v => by cases List.mem_singleton.1 he; rfl) fun log => .claimFailed rfl
    · rw [State.slots, hc]; exact Keyed.get_middle [] hn
    · simp only [State.slots, hc]
      exact Keyed.get_remove [] hn u
  | spawn hc hp =>
    rename_i p due m
    have hn := h.nodup
    rw [State.slots, hc] at hn
    refine .of_slot ⟨m, .claimed⟩ (some ⟨m, .running .spawned⟩) [] ?_ (fun u => ?_)
      (fun _ _ => rfl) rfl (by simp) fun log => .spawned rfl
    · rw [State.slots, hc]; exact Keyed.get_middle [] hn
    · simp only [State.slots, hc]
      have hn' := Keyed.nodup_replace (b := ⟨m, .running .spawned⟩) [] hn rfl
      have hrep := Keyed.get_replace (b := ⟨m, .running .spawned⟩) [] hn rfl u
      rw [slots_spawn, ← List.append_assoc]
      exact (Keyed.get_perm hn' (List.perm_append_singleton _ _).symm).trans hrep
  | endClaims hc =>
    refine .of_log [] ?_ rfl rfl (by simp)
    simp [State.slots, Control.slots, hc, fetchedSlots]
  | joinOne hc ht hdead =>
    have hn := h.nodup
    rw [State.slots, hc, ht] at hn
    have hst : ∀ t : Task τ, t.alive = false → t.stage = .ended := by
      intro t ht
      obtain ⟨m, st⟩ := t
      cases st <;> first | rfl | cases ht
    refine .of_slot (Task.slot _) none [] ?_ (fun u => ?_)
      (fun _ _ => rfl) rfl (by simp) fun log => .joined (by rw [Task.slot, hst _ hdead])
    · rw [State.slots, hc, ht]; exact Keyed.get_middle [] hn
    · simp only [State.slots, hc, ht]
      exact Keyed.get_remove [] hn u
  | tickEnds hc ht =>
    refine .of_log [.tickEnded _] ?_ rfl rfl (by simp [Event.about])
    simp [State.emit, State.slots, Control.slots, hc]
  | sendStarts ht hst htr =>
    refine .of_task h ht [.sendStarted _ _] rfl (fun _ _ => rfl) rfl (by simp [Event.about]) fun log => ?_
    exact .sendStarted (by rw [Task.slot, hst]) htr
  | noTransport ht hst htr =>
    refine .of_task h ht [] rfl (fun _ _ => rfl) rfl (by simp) fun log => ?_
    exact .noTransport (by rw [Task.slot, hst]) htr
  | sendOk ht hst =>
    refine .of_task h ht [.sendEnded _ true] rfl (fun _ _ => rfl) rfl (by simp [Event.about, eq_comm]) fun log => ?_
    exact .sendOk (by rw [Task.slot, hst])
  | sendErr ht hst hmk =>
    refine .of_task h ht [.sendEnded _ false] rfl (fun _ _ => rfl) rfl (by simp [Event.about]) fun log => ?_
    exact .sendErr (by rw [Task.slot, hst]) hmk
  | sendErrPanics ht hst _ =>
    refine .of_task h ht [.panicked _, .sendEnded _ false] rfl (fun _ _ => rfl) rfl (by simp [Event.about])
      fun log => ?_
    exact .sendErrPanicked (by rw [Task.slot, hst])
  | mark ht hst hm =>
    obtain ⟨⟨r, hr, hr'⟩, hother⟩ := Mark.run_ok hm
    refine .of_task h ht [.marked _ _] rfl hother rfl (by simp [Event.about]) fun log => ?_
    rw [hr, State.emit, hr']
    exact .marked (by rw [Task.slot, hst]) rfl
  | markFails ht hst =>
    refine .of_task h ht [.markFailed _] rfl (fun _ _ => rfl) rfl (by simp [Event.about]) fun log => ?_
    exact .markFailed (by rw [Task.slot, hst])
  | finish ht hst =>
    refine .of_task h ht [] rfl (fun _ _ => rfl) rfl (by simp) fun log => ?_
    exact .finished (by rw [Task.slot, hst])
  | panic ht hal =>
    refine .of_task h ht [.panicked _] rfl (fun _ _ => rfl) rfl (by simp [Event.about]) fun log => ?_
    exact .panicked rfl hal

/-! ## Counting -/

def Event.isSendOf (u : MailId) : Event τ → Bool
  | .sendStarted _ m => m.id = u
  | _ => false

/-- A send that returned Ok. -/
def Event.isOkOf (u : MailId) : Event τ → Bool
  | .sendEnded v true => v = u
  | _ => false

/-- A `mark_failed` or `mark_dead` that took effect. -/
def Event.isFailureOf (u : MailId) : Event τ → Bool
  | .marked v (.failed _ _) | .marked v (.dead _) => v = u
  | _ => false

def Event.isClaimOf (u : MailId) : Event τ → Bool
  | .claimed v => v = u
  | _ => false

/-- A requeue that moved the row from sending to pending. -/
def Event.isRequeueOf (C : Codec) (u : MailId) : Event τ → Bool
  | .requeued key => key = C.uuidText u
  | _ => false

/-- A crash, a panic, or a status write that did not take effect. -/
def Event.isFault : Event τ → Bool
  | .crashed | .claimFailed _ | .markFailed _ | .panicked _ => true
  | _ => false

def Faultless (log : List (Entry τ)) : Prop := ∀ e ∈ log, e.event.isFault = false

instance (log : List (Entry τ)) : Decidable (Faultless log) :=
  inferInstanceAs (Decidable (∀ e ∈ log, e.event.isFault = false))

theorem Faultless.suffix {l l' : List (Entry τ)} (h : Faultless l') (hs : l <:+ l') : Faultless l :=
  fun e he => h e (hs.subset he)

/-- The number of events of a kind. -/
def count (p : Event τ → Bool) (log : List (Entry τ)) : Nat := log.countP fun e => p e.event

@[simp] theorem count_nil (p : Event τ → Bool) : count p [] = 0 := rfl

@[simp] theorem count_cons (p : Event τ → Bool) (e : Event τ) (log : List (Entry τ)) :
    count p (⟨now, e⟩ :: log) = count p log + if p e then 1 else 0 := List.countP_cons ..

theorem count_pos {p : Event τ → Bool} {log : List (Entry τ)} : 0 < count p log ↔ ∃ e ∈ log, p e.event = true :=
  List.countP_pos_iff

/-- What was recorded before another event. -/
theorem event_of_cons {e ev : Event τ} {log : List (Entry τ)} (h : ∃ x ∈ (⟨now, e⟩ : Entry τ) :: log, x.event = ev)
    (hne : e ≠ ev) : ∃ x ∈ log, x.event = ev := by
  obtain ⟨x, hx, he⟩ := h
  rcases List.mem_cons.1 hx with rfl | hx
  · exact absurd he hne
  · exact ⟨x, hx, he⟩

theorem Event.isOkOf_iff {e : Event τ} : e.isOkOf u = true ↔ e = .sendEnded u true := by
  unfold Event.isOkOf
  split <;> simp_all

theorem Event.about_of_isSendOf {e : Event τ} (h : e.isSendOf u = true) : e.about C u = true := by
  unfold Event.isSendOf at h
  split at h <;> first | exact h | cases h

theorem Event.about_of_isOkOf {e : Event τ} (h : e.isOkOf u = true) : e.about C u = true := by
  rw [Event.isOkOf_iff.1 h]; simp [Event.about]

theorem Event.about_of_isFailureOf {e : Event τ} (h : e.isFailureOf u = true) : e.about C u = true := by
  unfold Event.isFailureOf at h
  split at h <;> first | exact h | cases h

theorem Event.about_of_isClaimOf {e : Event τ} (h : e.isClaimOf u = true) : e.about C u = true := by
  unfold Event.isClaimOf at h
  split at h <;> first | exact h | cases h

theorem Event.about_of_isRequeueOf {e : Event τ} (h : e.isRequeueOf C u = true) : e.about C u = true := by
  unfold Event.isRequeueOf at h
  split at h <;> first | exact h | cases h

/-- What concerns a mail is counted in the part of a log that concerns it. -/
theorem count_about {p : Event τ → Bool} (hp : ∀ e, p e = true → e.about C u = true) (log : List (Entry τ)) :
    count p (log.filter fun e => e.event.about C u) = count p log := by
  rw [count, List.countP_filter]
  refine List.countP_congr fun e _ => ?_
  have := hp e.event
  simp only [Bool.and_eq_true]
  tauto

theorem count_track {p : Event τ → Bool} (hp : ∀ e, p e = true → e.about C u = true) :
    count p (s.track C u).log = count p s.log := count_about hp s.log

/-! ## Runs -/

/-- The log only grows. -/
theorem Life.log_suffix {t t' : Track τ} (h : Life C d u t now t') : t.log <:+ t'.log := by
  cases h with
  | stay | spawned | noTransport | finished | joined => exact List.suffix_rfl
  | sendErrPanicked => exact (List.suffix_cons _ _).trans (List.suffix_cons _ _)
  | _ => exact List.suffix_cons _ _

/-- The lives the runs of a system consist of. -/
abbrev Lives (C : Codec) (d : Dispatcher τ) (u : MailId) : Track τ → Track τ → Prop :=
  Run fun t t' => ∃ now, Life C d u t now t'

theorem Steps.lives (h : Exclusive C d s) (hs : Steps C d s s') (u : MailId) :
    Lives C d u (s.track C u) (s'.track C u) :=
  Run.project (f := fun s => s.track C u) (fun ha ⟨_, hab⟩ => hab.exclusive ha)
    (fun ha ⟨now, hab⟩ => ⟨now, hab.life ha u⟩) h hs

theorem Lives.log_suffix {t t' : Track τ} (h : Lives C d u t t') : t.log <:+ t'.log :=
  Run.invariant (I := fun t' => t.log <:+ t'.log) (fun ha ⟨_, hab⟩ => ha.trans hab.log_suffix) List.suffix_rfl h

/-- What was counted stays counted. -/
theorem Steps.count_le (h : Exclusive C d s) (hs : Steps C d s s') {p : Event τ → Bool}
    (hp : ∀ e, p e = true → e.about C u = true) : count p s.log ≤ count p s'.log := by
  rw [← count_track hp, ← count_track hp]
  exact (Lives.log_suffix (Steps.lives h hs u)).sublist.countP_le

/-- Before any process: a row or none, nothing else. -/
def Track.initial (row : Option Row) : Track τ := ⟨row, none, []⟩

/-- **What every step of a life keeps holds of the mail in every reachable state.** -/
theorem Reachable.invariant {I : Track τ → Prop} (h : Reachable C d s) (hinit : ∀ row, I (.initial row))
    (step : ∀ {t now t'}, I t → Life C d u t now t' → I t') : I (s.track C u) := by
  obtain ⟨T, hT, hs⟩ := h
  exact Run.invariant (fun ha ⟨_, hab⟩ => step ha hab) (hinit _) (Steps.lives (.initial hT) hs u)

/-- The same from an empty queue. -/
theorem ReachableFromEmpty.invariant {I : Track τ → Prop} (h : ReachableFromEmpty C d s) (hinit : I (.initial none))
    (step : ∀ {t now t'}, I t → Life C d u t now t' → I t') : I (s.track C u) :=
  Run.invariant (fun ha ⟨_, hab⟩ => step ha hab) hinit
    (Steps.lives (.initial fun _ hr => absurd hr Table.not_mem_empty) h u)

end OxidRelay
