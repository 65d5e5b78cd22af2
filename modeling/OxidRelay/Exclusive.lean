/-
Exclusive delivery: no mail is held twice by the dispatcher, and no
delivery is alive outside the batch it was spawned in.

The invariant is `Exclusive`. A mail is held from its fetch to the moment
its handle is awaited, in one slot: of the mails not claimed yet, of the
mail that waits for a permit, or of a task; `nodup` says the ids of the
slots are distinct. It starts with the primary key (a fetch answers
distinct ids) and every later step only moves a slot on. `quiet` says that
outside the claim and join loops there is no task at all, which is what
keeps the reclaim from touching a running delivery.
-/
import OxidRelay.Dispatcher
import OxidRelay.Lib.Keyed
import OxidRelay.SqliteFacts

namespace OxidRelay

open SqliteQueue

variable {τ : Type} {C : Codec} {d : Dispatcher τ} {s s' : State τ} {now : DateTime}

/-! ## Slots -/

/-- How far a held mail has come. -/
inductive Phase (τ : Type)
  | fetched
  | claimed
  | running (stage : Stage τ)

structure Slot (τ : Type) where
  mail : Mail
  phase : Phase τ

def Slot.id (x : Slot τ) : MailId := x.mail.id

def Task.slot (t : Task τ) : Slot τ := ⟨t.mail, .running t.stage⟩

def fetchedSlots (due : List Mail) : List (Slot τ) := due.map fun m => ⟨m, .fetched⟩

def Control.slots : Control → List (Slot τ)
  | .claiming due => fetchedSlots due
  | .acquiring m due => ⟨m, .claimed⟩ :: fetchedSlots due
  | _ => []

/-- Everything the dispatcher holds. -/
def State.slots (s : State τ) : List (Slot τ) := s.control.slots ++ s.tasks.map Task.slot

/-- Deliveries that have not ended. -/
def State.alive (s : State τ) : Nat := s.tasks.countP Task.alive

/-- Between the fetch of a batch and the end of its tick. -/
def Control.inBatch : Control → Bool
  | .claiming _ | .acquiring _ _ | .joining _ => true
  | _ => false

/-- In a tick, before its fetch. -/
def Control.beforeFetch : Control → Bool
  | .reclaiming _ _ | .fetching _ => true
  | _ => false

/-- What a tick does with a single mail of its batch. -/
def Event.isWork : Event τ → Bool
  | .fetched _ | .claimed _ | .sendStarted _ _ => true
  | _ => false

def Event.startsTick : Event τ → Bool
  | .tickStarted => true
  | _ => false

/-- The log since the last tick began. -/
def window (log : List (Entry τ)) : List (Entry τ) := log.takeWhile fun e => !e.event.startsTick

theorem window_emit {events : List (Event τ)} (h : ∀ e ∈ events, e.startsTick = false) (log : List (Entry τ)) :
    window (events.map (fun e => ⟨now, e⟩) ++ log) = events.map (fun e => ⟨now, e⟩) ++ window log :=
  List.takeWhile_append_of_pos (by simpa using h)

structure Exclusive (C : Codec) (d : Dispatcher τ) (s : State τ) : Prop where
  canonical : Canonical C s.table
  quiet : s.control.inBatch = false → s.tasks = []
  nodup : (s.slots.map Slot.id).Nodup
  permits : s.control.inBatch = true → s.permits + s.alive = d.config.concurrency
  unworked : s.control.beforeFetch = true → ∀ e ∈ window s.log, e.event.isWork = false

/-! ## Tables -/

theorem Canonical.update {T : Mails} (h : Canonical C T) {p : Row → Bool} {f : Row → Row}
    (hf : ∀ r, (f r).id = r.id) : Canonical C (T.update p f hf) := by
  intro r hr
  obtain ⟨r', hr', rfl⟩ := Table.mem_update.1 hr
  split
  · rw [hf]; exact h r' hr'
  · exact h r' hr'

theorem Canonical.setStatus {T U : Mails} (h : Canonical C T) {id status err bump next}
    (hs : setStatus C T now id status err bump next = .ok U) : Canonical C U := by
  simp only [SqliteQueue.setStatus] at hs
  split at hs
  · cases hs
  · cases hs; exact h.update (setStatusRow_id now status err bump next)

theorem Canonical.mark {T U : Mails} (h : Canonical C T) {id} {mk : Mark} (hs : mk.run C T now id = .ok U) :
    Canonical C U := by
  cases mk <;> exact h.setStatus hs

theorem Canonical.enqueue {T U : Mails} (h : Canonical C T) {mail m : Mail}
    (he : enqueue C T mail = .ok (m, U)) : Canonical C U := by
  obtain ⟨-, hi⟩ := enqueue_ok he
  intro r hr
  rcases (Table.mem_insert hi).1 hr with hr | rfl
  · exact h r hr
  · exact ⟨mail.id, rfl⟩

/-! ## The batch of a fetch -/

theorem mapM_forall₂ {α β ε : Type} {g : α → Except ε β} :
    ∀ {l : List α} {bs : List β}, l.mapM g = .ok bs → List.Forall₂ (fun a b => g a = .ok b) l bs
  | [], bs, h => by cases h; exact .nil
  | a :: l, bs, h => by
    rw [List.mapM_cons, Except.bind_eq_ok] at h
    obtain ⟨b, hb, h⟩ := h
    rw [Except.bind_eq_ok] at h
    obtain ⟨bs', hbs, h⟩ := h
    cases h
    exact .cons hb (mapM_forall₂ hbs)

theorem mapM_mem {α β ε : Type} {g : α → Except ε β} {l : List α} {bs : List β} (h : l.mapM g = .ok bs) :
    ∀ b ∈ bs, ∃ a ∈ l, g a = .ok b := by
  intro b hb
  obtain ⟨i, hi, rfl⟩ := List.getElem_of_mem hb
  have hall := mapM_forall₂ h
  exact ⟨_, List.getElem_mem (by rw [hall.length_eq]; exact hi), hall.get (by rw [hall.length_eq]; exact hi) hi⟩

theorem mapM_mem_left {α β ε : Type} {g : α → Except ε β} {l : List α} {bs : List β} (h : l.mapM g = .ok bs) :
    ∀ a ∈ l, ∃ b ∈ bs, g a = .ok b := by
  intro a ha
  obtain ⟨i, hi, rfl⟩ := List.getElem_of_mem ha
  have hall := mapM_forall₂ h
  exact ⟨_, List.getElem_mem (by rw [← hall.length_eq]; exact hi), hall.get hi (by rw [← hall.length_eq]; exact hi)⟩

theorem mapM_map_eq {α β γ ε : Type} {g : α → Except ε β} {l : List α} {bs : List β} (h : l.mapM g = .ok bs)
    {f : α → γ} {e : β → γ} (hf : ∀ a ∈ l, ∀ b, g a = .ok b → f a = e b) : l.map f = bs.map e := by
  have hall := mapM_forall₂ h
  clear h
  induction hall with
  | nil => rfl
  | cons hab _ ih =>
    rw [List.map_cons, List.map_cons, hf _ (by simp) _ hab, ih fun a ha => hf a (by simp [ha])]

theorem Canonical.id_eq {T : Mails} (h : Canonical C T) {r : Row} {m : Mail} (hr : r ∈ T)
    (hm : rowToMail C r = .ok m) : r.id = C.uuidText m.id := by
  obtain ⟨u, hu⟩ := h r hr
  have hp := (rowOf_of_rowToMail hm).parseId
  rw [hu, C.parseUuid_uuidText] at hp
  cases hp; exact hu

/-- The mails a fetch answers are decoded from due rows of their ids, in
which no id repeats. -/
theorem fetchDue_ok {T : Mails} {scan : List Row} {limit : UInt32} {due : List Mail} (hT : Canonical C T)
    (hscan : scan.Perm T.rows) (h : fetchDue C scan limit now = .ok due) :
    (∀ m ∈ due, ∃ r, T.find (C.uuidText m.id) = some r ∧ isDue now r = true ∧ rowToMail C r = .ok m) ∧
      (due.map Mail.id).Nodup := by
  obtain ⟨-, hnodup, hmem, -, -⟩ := Table.select_spec hscan (isDue now) Row.nextAttemptAt limit.toNat
  constructor
  · intro m hm
    obtain ⟨r, hr, hrm⟩ := mapM_mem h m hm
    obtain ⟨hrT, hdue⟩ := hmem r hr
    exact ⟨r, Table.find_eq_some.2 ⟨hrT, hT.id_eq hrT hrm⟩, hdue, hrm⟩
  · have hids := mapM_map_eq (f := Row.id) (e := fun m => C.uuidText m.id) h fun r hr m hrm =>
      hT.id_eq (hmem r hr).1 hrm
    refine List.Nodup.of_map C.uuidText ?_
    rw [List.map_map]
    exact hids ▸ hnodup

/-! ## Moving one slot -/

theorem slots_spawn (ts : List (Task τ)) (m : Mail) :
    (ts ++ [(⟨m, .spawned⟩ : Task τ)]).map Task.slot = ts.map Task.slot ++ [⟨m, .running .spawned⟩] :=
  List.map_append

/-- The slots around a task. -/
theorem slots_at {i : Nat} {t : Task τ} (ht : s.tasks[i]? = some t) :
    ∃ l₁ l₂ : List (Slot τ), s.slots = l₁ ++ t.slot :: l₂ ∧
      ∀ stage, (s.setStage i t stage).slots = l₁ ++ ⟨t.mail, .running stage⟩ :: l₂ := by
  obtain ⟨hi, rfl⟩ := List.getElem?_eq_some_iff.1 ht
  refine ⟨s.control.slots ++ (s.tasks.take i).map Task.slot, (s.tasks.drop (i + 1)).map Task.slot, ?_,
    fun stage => ?_⟩
  · rw [List.append_assoc, ← List.map_cons, ← List.map_append, List.getElem_cons_drop, List.take_append_drop]
    rfl
  · simp only [State.slots, State.setStage, List.set_eq_take_append_cons_drop, if_pos hi, List.map_append,
      List.map_cons, List.append_assoc]
    rfl

theorem alive_setStage {i : Nat} {t : Task τ} (ht : s.tasks[i]? = some t) (stage : Stage τ) :
    (s.setStage i t stage).alive + t.alive.toNat = s.alive + (⟨t.mail, stage⟩ : Task τ).alive.toNat := by
  obtain ⟨hi, rfl⟩ := List.getElem?_eq_some_iff.1 ht
  have hs : s.alive = (s.tasks.take i ++ s.tasks[i] :: s.tasks.drop (i + 1)).countP Task.alive := by
    rw [List.getElem_cons_drop, List.take_append_drop]; rfl
  rw [hs]
  simp only [State.alive, State.setStage, List.set_eq_take_append_cons_drop, if_pos hi, List.countP_append,
    List.countP_cons, Bool.toNat, Bool.cond_eq_ite]
  omega

namespace Exclusive

theorem inBatch (h : Exclusive C d s) {i : Nat} {t : Task τ} (ht : s.tasks[i]? = some t) :
    s.control.inBatch = true := by
  by_contra hb
  rw [h.quiet (by simpa using hb)] at ht
  simp at ht

theorem not_beforeFetch (h : Exclusive C d s) {i : Nat} {t : Task τ} (ht : s.tasks[i]? = some t) :
    s.control.beforeFetch = false := by
  have hb := h.inBatch ht
  cases hc : s.control <;> simp_all [Control.inBatch, Control.beforeFetch]

/-- Recording events, or another canonical table, changes nothing else. -/
theorem emit (h : Exclusive C d s) {T : Mails} (hT : Canonical C T) {events : List (Event τ)}
    (hs : ∀ e ∈ events, e.startsTick = false) (hw : s.control.beforeFetch = true → ∀ e ∈ events, e.isWork = false) :
    Exclusive C d ({ s with table := T }.emit now events) := by
  refine ⟨hT, h.quiet, h.nodup, h.permits, fun hb e he => ?_⟩
  rw [State.emit, window_emit hs, List.mem_append] at he
  rcases he with he | he
  · obtain ⟨ev, hev, rfl⟩ := List.mem_map.1 he
    exact hw hb ev hev
  · exact h.unworked hb e he

theorem nodup_setStage (h : Exclusive C d s) {i : Nat} {t : Task τ} (ht : s.tasks[i]? = some t) (stage : Stage τ) :
    ((s.setStage i t stage).slots.map Slot.id).Nodup := by
  obtain ⟨l₁, l₂, hl, hset⟩ := slots_at ht
  have hn := h.nodup
  rw [hl] at hn
  rw [hset]
  exact Keyed.nodup_replace l₁ hn rfl

theorem setStage (h : Exclusive C d s) {i : Nat} {t : Task τ} (ht : s.tasks[i]? = some t) (stage : Stage τ)
    (ha : t.alive = true) (hs : (⟨t.mail, stage⟩ : Task τ).alive = true) :
    Exclusive C d (s.setStage i t stage) := by
  refine ⟨h.canonical, fun hb => ?_, h.nodup_setStage ht stage, fun hb => ?_, h.unworked⟩
  · simp [State.setStage, h.quiet hb]
  · have hp := h.permits hb
    have hal := alive_setStage ht stage
    rw [ha, hs] at hal
    have : (s.setStage i t stage).permits = s.permits := rfl
    omega

theorem endTask (h : Exclusive C d s) {i : Nat} {t : Task τ} (ht : s.tasks[i]? = some t) (ha : t.alive = true) :
    Exclusive C d (s.endTask i t) := by
  refine ⟨h.canonical, fun hb => ?_, h.nodup_setStage ht .ended, fun hb => ?_, h.unworked⟩
  · simp [State.endTask, State.setStage, h.quiet hb]
  · have hp := h.permits hb
    have hal : (s.endTask i t).alive + t.alive.toNat = s.alive + 0 := alive_setStage ht .ended
    rw [ha, Bool.toNat_true] at hal
    have : (s.endTask i t).permits = s.permits + 1 := rfl
    omega

theorem halt (h : Exclusive C d s) (e : Event τ) : Exclusive C d (s.halt now e) :=
  ⟨h.canonical, fun _ => rfl, by simp [State.halt, State.emit, State.slots, Control.slots],
    by simp [State.halt, State.emit, Control.inBatch], by simp [State.halt, State.emit, Control.beforeFetch]⟩

/-- Between the phases of the main task outside a batch only the control moves. -/
theorem move (h : Exclusive C d s) (hb : s.control.inBatch = false) {c : Control} (hc : c.inBatch = false)
    (hf : c.beforeFetch = true → s.control.beforeFetch = true) {p : Bool} :
    Exclusive C d { s with control := c, pollElapsed := p } := by
  refine ⟨h.canonical, fun _ => h.quiet hb, ?_, by simp [hc], fun h' => h.unworked (hf h')⟩
  have hslots : c.slots = ([] : List (Slot τ)) := by cases c <;> first | rfl | simp [Control.inBatch] at hc
  simp [State.slots, hslots, h.quiet hb]

/-- The claim loop turns to the next mail: the head of the batch moves on
or is dropped, the task list may grow, the sum of permits and live
deliveries stays. -/
theorem next (h : Exclusive C d s) {T : Mails} (hT : Canonical C T) {c : Control} {p : Nat} {ts : List (Task τ)}
    {log : List (Entry τ)} (hc : c.inBatch = true) (hb : s.control.inBatch = true)
    (hn : ((c.slots ++ ts.map Task.slot).map Slot.id).Nodup)
    (hp : p + ts.countP Task.alive = s.permits + s.alive) :
    Exclusive C d { s with table := T, control := c, permits := p, tasks := ts, log := log } := by
  refine ⟨hT, by simp [hc], hn, fun _ => hp.trans (h.permits hb), fun hf => ?_⟩
  cases c <;> simp [Control.beforeFetch, Control.inBatch] at hc hf

end Exclusive

/-! ## Steps and runs -/

theorem requeuedEvents_plain {T : Mails} {p : Row → Bool} :
    (∀ e ∈ (State.requeuedEvents T p : List (Event τ)), e.startsTick = false) ∧
      ∀ e ∈ (State.requeuedEvents T p : List (Event τ)), e.isWork = false := by
  constructor <;>
  · intro e he
    obtain ⟨r, -, rfl⟩ := List.mem_map.1 he
    rfl

/-- **Every step keeps the dispatcher exclusive.** -/
theorem Step.exclusive (h : Exclusive C d s) (hs : Step C d s now s') : Exclusive C d s' := by
  cases hs with
  | start hc =>
    have hb : s.control.inBatch = false := by rw [hc]; rfl
    exact (h.move hb (c := .starting) rfl (by simp [Control.beforeFetch])).emit h.canonical
      (by simp [Event.startsTick]) (by simp [Event.isWork])
  | crash | exit | tickPanics | fetchPanics => exact h.halt _
  | enqueue _ he =>
    exact h.emit (h.canonical.enqueue he) (by simp [Event.startsTick]) (by simp [Event.isWork])
  | recover hc =>
    have hb : s.control.inBatch = false := by rw [hc]; rfl
    exact (h.move hb (c := .polling) rfl (by simp [Control.beforeFetch])).emit
      (h.canonical.update (requeueRow_id now)) requeuedEvents_plain.1 fun _ => requeuedEvents_plain.2
  | recoverFails hc | shutdown hc =>
    have hb : s.control.inBatch = false := by rw [hc]; rfl
    exact h.move hb rfl (by simp [Control.beforeFetch])
  | elapse => exact ⟨h.canonical, h.quiet, h.nodup, h.permits, h.unworked⟩
  | tick hc _ _ =>
    have hb : s.control.inBatch = false := by rw [hc]; rfl
    refine ⟨h.canonical, fun _ => h.quiet hb, ?_, by simp [State.emit, Control.inBatch], fun _ e he => ?_⟩
    · simp [State.emit, State.slots, Control.slots, h.quiet hb]
    · simp [State.emit, window, Event.startsTick] at he
  | reclaim hc =>
    have hb : s.control.inBatch = false := by rw [hc]; rfl
    exact (h.move hb (c := .fetching _) rfl (fun _ => by rw [hc]; rfl)).emit
      (h.canonical.update (requeueRow_id now)) requeuedEvents_plain.1 fun _ => requeuedEvents_plain.2
  | reclaimFails hc =>
    have hb : s.control.inBatch = false := by rw [hc]; rfl
    exact h.move hb rfl fun _ => by rw [hc]; rfl
  | fetchFails hc | fetchNone hc _ _ =>
    have hb : s.control.inBatch = false := by rw [hc]; rfl
    exact (h.move hb (c := .polling) rfl (by simp [Control.beforeFetch])).emit h.canonical
      (by simp [Event.startsTick]) (by simp [Event.isWork])
  | fetch hc hscan hf _ _ =>
    have hb : s.control.inBatch = false := by rw [hc]; rfl
    have hq := h.quiet hb
    refine ⟨h.canonical, by simp [State.emit, Control.inBatch], ?_, fun _ => ?_,
      by simp [State.emit, Control.beforeFetch]⟩
    · have hn := (fetchDue_ok h.canonical hscan hf).2
      simpa [State.emit, State.slots, hq, Control.slots, fetchedSlots, Function.comp_def, Slot.id] using hn
    · simp [State.emit, State.alive, hq]
  | claim hc hm =>
    refine h.next (h.canonical.setStatus hm) rfl (by rw [hc]; rfl) ?_ rfl
    have hn := h.nodup
    simpa [State.slots, hc, Control.slots, fetchedSlots, Slot.id] using hn
  | claimFails hc =>
    refine h.next h.canonical rfl (by rw [hc]; rfl) ?_ rfl
    have hn := h.nodup
    rw [State.slots, hc] at hn
    exact Keyed.nodup_remove [] hn
  | spawn hc hp =>
    refine h.next h.canonical rfl (by rw [hc]; rfl) ?_ ?_
    · have hn := h.nodup
      rw [State.slots, hc] at hn
      rw [slots_spawn, ← List.append_assoc]
      exact ((List.perm_append_singleton _ _).map Slot.id).nodup_iff.2 hn
    · simp only [List.countP_append, List.countP_singleton, Task.alive, State.alive, hp, if_true]
      omega
  | endClaims hc =>
    refine h.next h.canonical rfl (by rw [hc]; rfl) ?_ rfl
    simpa [State.slots, hc, Control.slots, fetchedSlots] using h.nodup
  | joinOne hc ht hdead =>
    refine h.next h.canonical (by rw [hc]; rfl) (by rw [hc]; rfl) ?_ ?_
    · have hn := h.nodup
      rw [State.slots, hc, ht] at hn
      rw [hc]
      exact Keyed.nodup_remove [] hn
    · simp [State.alive, ht, hdead]
  | tickEnds hc ht =>
    refine ⟨h.canonical, fun _ => ht, ?_, by simp [State.emit, Control.inBatch],
      by simp [State.emit, Control.beforeFetch]⟩
    simp [State.emit, State.slots, Control.slots, ht]
  | sendStarts ht hst _ | sendOk ht hst | sendErr ht hst _ | markFails ht hst =>
    refine (h.setStage ht _ (by simp [Task.alive, hst]) rfl).emit h.canonical (by simp [Event.startsTick]) ?_
    intro hf
    rw [State.setStage, h.not_beforeFetch ht] at hf
    cases hf
  | noTransport ht hst _ => exact h.setStage ht _ (by simp [Task.alive, hst]) rfl
  | sendErrPanics ht hst _ =>
    exact (h.endTask ht (by simp [Task.alive, hst])).emit h.canonical (by simp [Event.startsTick])
      (by simp [Event.isWork])
  | mark ht hst hm =>
    exact (h.setStage ht .returned (by simp [Task.alive, hst]) rfl).emit (h.canonical.mark hm)
      (by simp [Event.startsTick]) (by simp [Event.isWork])
  | finish ht hst => exact h.endTask ht (by simp [Task.alive, hst])
  | panic ht hal =>
    exact (h.endTask ht hal).emit h.canonical (by simp [Event.startsTick]) (by simp [Event.isWork])

theorem Exclusive.initial {T : Mails} (hT : Canonical C T) : Exclusive C d (State.initial T) :=
  ⟨hT, fun _ => rfl, by simp [State.initial, State.slots, Control.slots], by simp [State.initial, Control.inBatch],
    by simp [State.initial, Control.beforeFetch]⟩

theorem Steps.exclusive (h : Exclusive C d s) (hs : Steps C d s s') : Exclusive C d s' :=
  Run.invariant (fun ha ⟨_, hab⟩ => hab.exclusive ha) h hs

theorem Reachable.exclusive (h : Reachable C d s) : Exclusive C d s := by
  obtain ⟨T, hT, hs⟩ := h
  exact Steps.exclusive (.initial hT) hs

theorem ReachableFromEmpty.reachable (h : ReachableFromEmpty C d s) : Reachable C d s :=
  ⟨Table.empty, fun _ hr => absurd hr Table.not_mem_empty, h⟩

end OxidRelay
