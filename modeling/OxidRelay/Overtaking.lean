/-
Waiting mails are served in the order of their times. While a mail waits
for its turn, every mail claimed is one that waited as long (`ahead`), one
of the batch under way that was fetched before the mail came to wait
(`late`), or one that has come to wait as long since: it was enqueued,
requeued or rescheduled for no later a time. So a mail is overtaken a
bounded number of times (`overtaking_bounded`).

The count goes down with each claim because the mails of a batch that are
before the waiting one still have the rows they were fetched with.
-/
import OxidRelay.Blocking

namespace OxidRelay

open DateTime SqliteQueue

variable {τ : Type} {C : Codec} {d : Dispatcher τ} {s s' : State τ} {now : DateTime} {u : MailId} {r : Row}
  {K : String}

/-! ## Who is ahead -/

def Row.isWaiting (r : Row) : Bool := r.status = "pending" ∨ r.status = "failed"

/-- Another row than that of the key `k` that waits, for no later a time than `K`. -/
def Row.isAhead (k K : String) (r : Row) : Bool := r.id ≠ k ∧ r.isWaiting = true ∧ r.nextAttemptAt ≤ K

/-- The number of mails that wait ahead of the mail of id `u`, whose time is `K`. -/
def State.ahead (s : State τ) (C : Codec) (u : MailId) (K : String) : Nat :=
  s.table.affected (Row.isAhead (C.uuidText u) K)

/-- A claim of any mail. -/
def Event.isClaim : Event τ → Bool
  | .claimed _ => true
  | _ => false

/-- What makes a mail wait for no later a time than `K`. -/
def Event.joins (K : String) : Event τ → Bool
  | .enqueued m => m.nextAttemptAt.toRfc3339 ≤ K
  | .requeued _ => true
  | .marked _ (.failed _ retryAt) => retryAt.toRfc3339 ≤ K
  | _ => false

/-- The mail is next in the claim loop. -/
def Control.isTurn (u : MailId) : Control → Bool
  | .claiming (m :: _) => m.id = u
  | _ => false

/-- The mails to be claimed before the one of id `u`. -/
def Control.front (u : MailId) (c : Control) : List Mail := c.due.takeWhile fun m => m.id ≠ u

/-- Whether the row of a mail is not there, or waits for a later time than `K`. -/
def State.isLate (s : State τ) (C : Codec) (K : String) (m : Mail) : Bool :=
  !(s.table.find (C.uuidText m.id)).any fun r => r.nextAttemptAt ≤ K

/-- The number of mails to be claimed before the one of id `u` that wait for a later time than `K`. -/
def State.late (s : State τ) (C : Codec) (u : MailId) (K : String) : Nat :=
  (s.control.front u).countP (s.isLate C K)

/-- A step before the mail's turn. -/
def Passes (C : Codec) (d : Dispatcher τ) (u : MailId) (s s' : State τ) : Prop :=
  s.control.isTurn u = false ∧ ∃ now, Step C d s now s'

/-- The mail waits with its row `r`, and so do the mails to be claimed before it. -/
structure Queued (C : Codec) (u : MailId) (r : Row) (s : State τ) : Prop where
  row : s.table.find (C.uuidText u) = some r
  waiting : r.isWaiting = true
  front : ∀ m ∈ s.control.front u, ∃ r', s.table.find (C.uuidText m.id) = some r' ∧ r'.isWaiting = true

/-! ## What a step does -/

/-- No claim, and nothing that makes a mail wait. -/
def Event.isQuiet : Event τ → Bool
  | .claimed _ | .enqueued _ | .requeued _ | .marked _ _ => false
  | _ => true

/-- What a step does to the table and to the mails not claimed yet. -/
inductive Effect (C : Codec) (now : DateTime) (s s' : State τ) : Prop
  | quiet (events : List (Event τ)) : s'.table = s.table →
      s'.control.due = s.control.due ∨ s'.control.due = [] →
      s'.log = events.map (fun e => ⟨now, e⟩) ++ s.log → (∀ e ∈ events, e.isQuiet = true) → Effect C now s s'
  | skipped {m : Mail} {due : List Mail} : s.control = .claiming (m :: due) → s'.table = s.table →
      s'.control.due = due → s'.log = ⟨now, .claimFailed m.id⟩ :: s.log → Effect C now s s'
  | fetched {scan : List Row} {limit : UInt32} {tick : DateTime} {due : List Mail} : scan.Perm s.table.rows →
      fetchDue C scan limit tick = .ok due → s'.table = s.table → s'.control.due = due →
      s'.log = (due.map .fetched).map (fun e => ⟨now, e⟩) ++ s.log → Effect C now s s'
  | enqueued {mail : Mail} : s.table.insert (mailToRow C mail) = some s'.table → s'.control = s.control →
      s'.log = ⟨now, .enqueued mail⟩ :: s.log → Effect C now s s'
  | requeued {p : Row → Bool} : (∀ r, p r = true → r.status = "sending") →
      s'.table = s.table.update p _ (requeueRow_id now) → s'.control.due = [] →
      s'.log = (State.requeuedEvents s.table p).map (fun e => ⟨now, e⟩) ++ s.log → Effect C now s s'
  | claimed {m : Mail} {due : List Mail} : s.control = .claiming (m :: due) →
      markSending C s.table now m.id = .ok s'.table → s'.control.due = due →
      s'.log = ⟨now, .claimed m.id⟩ :: s.log → Effect C now s s'
  | marked {i : Nat} {t : Task τ} {mk : Mark} : s.tasks[i]? = some t → t.stage = .marking mk →
      mk.run C s.table now t.mail.id = .ok s'.table → s'.control = s.control →
      s'.log = ⟨now, .marked t.mail.id mk⟩ :: s.log → Effect C now s s'

theorem Step.effect (hs : Step C d s now s') : Effect C now s s' := by
  cases hs with
  | start => exact .quiet [.started] rfl (.inr rfl) rfl (by simp [Event.isQuiet])
  | crash | tickPanics | fetchPanics => exact .quiet [.crashed] rfl (.inr rfl) rfl (by simp [Event.isQuiet])
  | exit => exact .quiet [.exited] rfl (.inr rfl) rfl (by simp [Event.isQuiet])
  | enqueue _ he => exact .enqueued (enqueue_ok he).2 rfl rfl
  | recover => exact .requeued (p := isSending) (by simp [isSending]) rfl rfl rfl
  | recoverFails | shutdown | reclaimFails => exact .quiet [] rfl (.inr rfl) rfl (by simp)
  | elapse => exact .quiet [] rfl (.inl rfl) rfl (by simp)
  | tick => exact .quiet [.tickStarted] rfl (.inr rfl) rfl (by simp [Event.isQuiet])
  | reclaim =>
    refine .requeued (fun r hr => ?_) rfl rfl rfl
    simp only [isStale, decide_eq_true_eq] at hr
    exact hr.1
  | fetchFails | fetchNone => exact .quiet [.tickEnded 0] rfl (.inr rfl) rfl (by simp [Event.isQuiet])
  | fetch _ hscan hf => exact .fetched hscan hf rfl rfl rfl
  | claim hc hm => exact .claimed hc hm rfl rfl
  | claimFails hc => exact .skipped hc rfl rfl rfl
  | spawn hc =>
    refine .quiet [] rfl (.inl ?_) rfl (by simp)
    rw [hc]
    rfl
  | endClaims => exact .quiet [] rfl (.inr rfl) rfl (by simp)
  | joinOne => exact .quiet [] rfl (.inl rfl) rfl (by simp)
  | tickEnds => exact .quiet [.tickEnded _] rfl (.inr rfl) rfl (by simp [Event.isQuiet])
  | sendStarts => exact .quiet [.sendStarted _ _] rfl (.inl rfl) rfl (by simp [Event.isQuiet])
  | noTransport | finish => exact .quiet [] rfl (.inl rfl) rfl (by simp)
  | sendOk => exact .quiet [.sendEnded _ true] rfl (.inl rfl) rfl (by simp [Event.isQuiet])
  | sendErr => exact .quiet [.sendEnded _ false] rfl (.inl rfl) rfl (by simp [Event.isQuiet])
  | sendErrPanics =>
    exact .quiet [.panicked _, .sendEnded _ false] rfl (.inl rfl) rfl (by simp [Event.isQuiet])
  | mark ht hst hm => exact .marked ht hst hm rfl rfl
  | markFails => exact .quiet [.markFailed _] rfl (.inl rfl) rfl (by simp [Event.isQuiet])
  | panic => exact .quiet [.panicked _] rfl (.inl rfl) rfl (by simp [Event.isQuiet])

/-! ## Counting -/

def State.claims (s : State τ) : Nat := count Event.isClaim s.log

/-- How often a mail came to wait for no later a time than `K`. -/
def State.joins (s : State τ) (K : String) : Nat := count (Event.joins K) s.log

theorem count_emit (p : Event τ → Bool) (events : List (Event τ)) (log : List (Entry τ)) :
    count p (events.map (fun e => ⟨now, e⟩) ++ log) = count p log + events.countP p := by
  rw [count, List.countP_append, List.countP_map, Nat.add_comm]
  rfl

theorem Event.isQuiet.counts {e : Event τ} (h : e.isQuiet = true) : e.isClaim = false ∧ e.joins K = false := by
  cases e <;> first | exact ⟨rfl, rfl⟩ | cases h

/-- Quiet events count for nothing. -/
theorem counts_of_quiet {events : List (Event τ)} (h : ∀ e ∈ events, e.isQuiet = true)
    (hlog : s'.log = events.map (fun e => ⟨now, e⟩) ++ s.log) : s'.claims = s.claims ∧ s'.joins K = s.joins K := by
  have hclaim : events.countP Event.isClaim = 0 := List.countP_eq_zero.2 fun e he => by
    simp [(Event.isQuiet.counts (K := K) (h e he)).1]
  have hjoins : events.countP (Event.joins K) = 0 := List.countP_eq_zero.2 fun e he => by
    simp [(Event.isQuiet.counts (K := K) (h e he)).2]
  simp only [State.claims, State.joins, hlog, count_emit, hclaim, hjoins, Nat.add_zero, and_self]

theorem counts_cons {e : Event τ} (hlog : s'.log = ⟨now, e⟩ :: s.log) :
    s'.claims = s.claims + e.isClaim.toNat ∧ s'.joins K = s.joins K + (e.joins K).toNat := by
  simp only [State.claims, State.joins, hlog, count_cons, Bool.toNat, Bool.cond_eq_ite, and_self]

theorem setStatus_affected {T U : Mails} {id status err bump next}
    (h : setStatus C T now id status err bump next = .ok U) (hr : T.find (C.uuidText id) = some r) (q : Row → Bool) :
    U.affected q + (q r).toNat = T.affected q + (q (setStatusRow now status err bump next r)).toNat := by
  simp only [setStatus] at h
  split at h
  · cases h
  · cases h
    exact Table.affected_update_key hr q _ _

theorem Mark.run_affected {T U : Mails} {mk : Mark} (h : mk.run C T now u = .ok U)
    (hr : T.find (C.uuidText u) = some r) (q : Row → Bool) :
    U.affected q + (q r).toNat = T.affected q + (q (mk.row now r)).toNat := by
  cases mk <;> exact setStatus_affected h hr q

theorem Row.isAhead_of_not_waiting {k : String} (h : r.isWaiting = false) : r.isAhead k K = false := by
  simp [Row.isAhead, h]

theorem Row.not_waiting_of_sending (h : r.status = "sending") : r.isWaiting = false := by
  simp [Row.isWaiting, h]

/-! ## One step -/

/-- A step adds no more to the claims, the mails ahead and the late ones than come to wait. -/
def Pays (C : Codec) (u : MailId) (K : String) (s s' : State τ) : Prop :=
  s'.claims + s'.ahead C u K + s'.late C u K + s.joins K ≤ s.claims + s.ahead C u K + s.late C u K + s'.joins K

/-- No mail is late that was not, when the rows stay. -/
theorem State.late_le {front : List Mail} (hfront : (s'.control.front u).Sublist front)
    (hsame : ∀ m ∈ s'.control.front u, s'.table.find (C.uuidText m.id) = s.table.find (C.uuidText m.id)) :
    s'.late C u K ≤ front.countP (s.isLate C K) := by
  have hcongr : (s'.control.front u).countP (s'.isLate C K) = (s'.control.front u).countP (s.isLate C K) :=
    List.countP_congr fun m hm => by rw [State.isLate, State.isLate, hsame m hm]
  rw [State.late, hcongr]
  exact hfront.countP_le

theorem State.late_of_nil (hdue : s.control.due = []) : s.late C u K = 0 := by
  rw [State.late, Control.front, hdue]
  rfl

/-- The mails of a sorted batch that are before a mail of it wait for no later a time. -/
theorem front_of_sorted {rows : List Row} {due : List Mail}
    (h : List.Forall₂ (fun r m => rowToMail C r = .ok m) rows due)
    (hsorted : rows.Pairwise fun a b => a.nextAttemptAt ≤ b.nextAttemptAt) (hr : r ∈ rows)
    (hid : ∀ m, rowToMail C r = .ok m → m.id = u) {m : Mail} (hm : m ∈ due.takeWhile fun m => m.id ≠ u) :
    ∃ r' ∈ rows, rowToMail C r' = .ok m ∧ r'.nextAttemptAt ≤ r.nextAttemptAt := by
  induction h with
  | nil => cases hr
  | @cons a b rows due hab _ ih =>
    obtain ⟨ha, hrows⟩ := List.pairwise_cons.1 hsorted
    by_cases hb : b.id = u
    · rw [List.takeWhile_cons_of_neg (by simpa using hb)] at hm
      cases hm
    · rw [List.takeWhile_cons_of_pos (by simpa using hb)] at hm
      have hne : r ≠ a := fun he => hb (hid b (he ▸ hab))
      have hr := (List.mem_cons.1 hr).resolve_left hne
      rcases List.mem_cons.1 hm with rfl | hm
      · exact ⟨a, List.mem_cons_self, hab, ha r hr⟩
      · obtain ⟨r', hr', hrest⟩ := ih hrows hr hm
        exact ⟨r', List.mem_cons_of_mem _ hr', hrest⟩

/-- A batch takes before a waiting mail only mails that wait for no later a time. -/
theorem front_of_fetch {T : Mails} (hT : Canonical C T) {scan : List Row} {limit : UInt32} {tick : DateTime}
    {due : List Mail} (hscan : scan.Perm T.rows) (hf : fetchDue C scan limit tick = .ok due)
    (hr : T.find (C.uuidText u) = some r) (hw : r.isWaiting = true) {m : Mail}
    (hm : m ∈ due.takeWhile fun m => m.id ≠ u) :
    ∃ r', T.find (C.uuidText m.id) = some r' ∧ r'.isWaiting = true ∧ r'.nextAttemptAt ≤ r.nextAttemptAt := by
  obtain ⟨hrT, hrid⟩ := Table.find_eq_some.1 hr
  obtain ⟨-, -, hmem, hsorted, holdest⟩ := Table.select_spec hscan (isDue tick) Row.nextAttemptAt limit.toNat
  have hid : ∀ m, rowToMail C r = .ok m → m.id = u := fun m hm =>
    C.uuidText_inj.1 ((hT.id_eq hrT hm).symm.trans hrid)
  have hall := mapM_forall₂ hf
  obtain ⟨r', hr', hdec, hle⟩ : ∃ r' ∈ Table.select scan (isDue tick) Row.nextAttemptAt limit.toNat,
      rowToMail C r' = .ok m ∧ r'.nextAttemptAt ≤ r.nextAttemptAt := by
    by_cases hin : r ∈ Table.select scan (isDue tick) Row.nextAttemptAt limit.toNat
    · exact front_of_sorted hall hsorted hin hid hm
    · obtain ⟨r', hr', hdec⟩ := mapM_mem hf m (List.takeWhile_subset _ hm)
      refine ⟨r', hr', hdec, ?_⟩
      by_cases hdue : isDue tick r = true
      · exact holdest r hrT hdue hin r' hr'
      · -- not due yet, so it waits for a later time than the whole batch
        have hdue' := (hmem r' hr').2
        simp only [isDue, Row.isWaiting, decide_eq_true_eq] at hdue hdue' hw
        exact hdue'.2.trans (le_of_lt (not_le.1 fun hle => hdue ⟨hw, hle⟩))
  obtain ⟨hrT', hdue'⟩ := hmem r' hr'
  simp only [isDue, decide_eq_true_eq] at hdue'
  exact ⟨r', Table.find_eq_some.2 ⟨hrT', hT.id_eq hrT' hdec⟩, decide_eq_true hdue'.1, hle⟩

namespace Queued

theorem quiet (h : Queued C u r s) {events : List (Event τ)} (htable : s'.table = s.table)
    (hfront : (s'.control.front u).Sublist (s.control.front u))
    (hlog : s'.log = events.map (fun e => ⟨now, e⟩) ++ s.log) (hquiet : ∀ e ∈ events, e.isQuiet = true) :
    Queued C u r s' ∧ Pays C u K s s' := by
  obtain ⟨hclaims, hjoins⟩ := counts_of_quiet (K := K) hquiet hlog
  have hlate : s'.late C u K ≤ s.late C u K := State.late_le hfront fun m _ => by rw [htable]
  refine ⟨⟨by rw [htable]; exact h.row, h.waiting, fun m hm => ?_⟩, ?_⟩
  · rw [htable]
    exact h.front m (hfront.subset hm)
  · simp only [Pays, State.ahead, htable, hclaims, hjoins]
    omega

theorem enqueued (h : Queued C u r s) {mail : Mail} (hi : s.table.insert (mailToRow C mail) = some s'.table)
    (hcontrol : s'.control = s.control) (hlog : s'.log = ⟨now, .enqueued mail⟩ :: s.log) :
    Queued C u r s' ∧ Pays C u K s s' := by
  have hother {k : String} {r' : Row} (hr' : s.table.find k = some r') : s'.table.find k = some r' := by
    have hnew := Table.insert_new hi
    rw [Table.find_insert hi, if_neg]
    · exact hr'
    · intro hk
      rw [hk, hr'] at hnew
      cases hnew
  have hlate : s'.late C u K ≤ s.late C u K := State.late_le (hcontrol ▸ .refl _) fun m hm => by
    obtain ⟨r', hr', -⟩ := h.front m (hcontrol ▸ hm)
    rw [hr', hother hr']
  refine ⟨⟨hother h.row, h.waiting, fun m hm => ?_⟩, ?_⟩
  · obtain ⟨r', hr', hrest⟩ := h.front m (hcontrol ▸ hm)
    exact ⟨r', hother hr', hrest⟩
  · have hle : (Row.isAhead (C.uuidText u) K (mailToRow C mail)).toNat ≤
        (Event.joins K (.enqueued mail : Event τ)).toNat := by
      refine Bool.toNat_le_toNat fun hahead => ?_
      simp only [Row.isAhead, decide_eq_true_eq] at hahead
      exact decide_eq_true hahead.2.2
    have hahead := Table.affected_insert hi (Row.isAhead (C.uuidText u) K)
    obtain ⟨hclaims, hjoins⟩ := counts_cons (K := K) hlog
    simp only [Event.isClaim, Bool.toNat_false] at hclaims
    simp only [Pays, State.ahead]
    omega

theorem requeued (h : Queued C u r s) {p : Row → Bool} (hp : ∀ r, p r = true → r.status = "sending")
    (htable : s'.table = s.table.update p _ (requeueRow_id now)) (hcdue : s'.control.due = [])
    (hlog : s'.log = (State.requeuedEvents s.table p).map (fun e => ⟨now, e⟩) ++ s.log) :
    Queued C u r s' ∧ Pays C u K s s' := by
  have hrow : p r = false := by
    by_contra hpr
    have := Row.not_waiting_of_sending (hp r (by simpa using hpr))
    rw [h.waiting] at this
    cases this
  refine ⟨⟨?_, h.waiting, fun m hm => ?_⟩, ?_⟩
  · rw [htable, Table.find_update, h.row, Option.map_some, hrow]
    rfl
  · rw [Control.front, hcdue] at hm
    cases hm
  · have hahead := Table.affected_update_le s.table p (Row.isAhead (C.uuidText u) K) _ (requeueRow_id now)
    have hclaims : s'.claims = s.claims := by
      rw [State.claims, hlog, count_emit, State.requeuedEvents, List.countP_map]
      simp [State.claims, Event.isClaim, Function.comp_def]
    have hjoins : s'.joins K = s.joins K + s.table.affected p := by
      rw [State.joins, hlog, count_emit, State.requeuedEvents, List.countP_map]
      simp [State.joins, Event.joins, Function.comp_def, Table.affected]
    rw [← htable] at hahead
    simp only [Pays, State.ahead, State.late_of_nil hcdue]
    omega

theorem claimed (h : Queued C u r s) (hexcl : Exclusive C d s) {m : Mail} {due : List Mail}
    (hc : s.control = .claiming (m :: due)) (hne : m.id ≠ u) (hm : markSending C s.table now m.id = .ok s'.table)
    (hcdue : s'.control.due = due) (hlog : s'.log = ⟨now, .claimed m.id⟩ :: s.log) :
    Queued C u r s' ∧ Pays C u r.nextAttemptAt s s' := by
  have hfront : s.control.front u = m :: due.takeWhile fun m => m.id ≠ u := by
    rw [Control.front, hc]
    exact List.takeWhile_cons_of_pos (by simpa using hne)
  obtain ⟨r', hr', hw⟩ := h.front m (hfront ▸ List.mem_cons_self)
  have hother {v : MailId} (hv : v ≠ m.id) : s'.table.find (C.uuidText v) = s.table.find (C.uuidText v) :=
    find_setStatus_other hv hm
  have hrest (m' : Mail) (hm' : m' ∈ s'.control.front u) :
      m' ∈ s.control.front u ∧ s'.table.find (C.uuidText m'.id) = s.table.find (C.uuidText m'.id) := by
    rw [Control.front, hcdue] at hm'
    have hids := hexcl.nodup
    rw [State.slots, hc] at hids
    have hslot : (⟨m', .fetched⟩ : Slot τ) ∈ fetchedSlots due ++ s.tasks.map Task.slot :=
      List.mem_append_left _ (List.mem_map_of_mem (List.takeWhile_subset _ hm'))
    have hne' : (⟨m', .fetched⟩ : Slot τ).id ≠ (⟨m, .fetched⟩ : Slot τ).id := Keyed.ne_of_nodup [] hids hslot
    exact ⟨hfront ▸ List.mem_cons_of_mem _ hm', hother hne'⟩
  refine ⟨⟨by rw [hother hne.symm]; exact h.row, h.waiting, fun m' hm' => ?_⟩, ?_⟩
  · obtain ⟨hin, hsame⟩ := hrest m' hm'
    rw [hsame]
    exact h.front m' hin
  · have hahead := setStatus_affected hm hr' (Row.isAhead (C.uuidText u) r.nextAttemptAt)
    have hafter : Row.isAhead (C.uuidText u) r.nextAttemptAt (setStatusRow now .sending none false none r') = false :=
      Row.isAhead_of_not_waiting (Row.not_waiting_of_sending rfl)
    have hlate : s'.late C u r.nextAttemptAt ≤
        (due.takeWhile fun m => m.id ≠ u).countP (s.isLate C r.nextAttemptAt) :=
      State.late_le (by rw [Control.front, hcdue]) fun m' hm' => (hrest m' hm').2
    have hpaid : (Row.isAhead (C.uuidText u) r.nextAttemptAt r').toNat +
        (s.isLate C r.nextAttemptAt m).toNat = 1 := by
      obtain ⟨-, hid⟩ := Table.find_eq_some.1 hr'
      have hne' : r'.id ≠ C.uuidText u := fun he => hne (C.uuidText_inj.1 (hid.symm.trans he))
      by_cases hle : r'.nextAttemptAt ≤ r.nextAttemptAt <;> simp [Row.isAhead, State.isLate, hr', hw, hne', hle]
    have hhead : s.late C u r.nextAttemptAt = (due.takeWhile fun m => m.id ≠ u).countP (s.isLate C r.nextAttemptAt) +
        (s.isLate C r.nextAttemptAt m).toNat := by
      rw [State.late, hfront, List.countP_cons]
      cases s.isLate C r.nextAttemptAt m <;> rfl
    obtain ⟨hclaims, hjoins⟩ := counts_cons (K := r.nextAttemptAt) hlog
    rw [hafter] at hahead
    simp only [Event.isClaim, Event.joins, Bool.toNat_true, Bool.toNat_false] at hclaims hjoins hahead
    simp only [Pays, State.ahead]
    omega

theorem marked (h : Queued C u r s) (hreach : Reachable C d s) {i : Nat} {t : Task τ} {mk : Mark}
    (ht : s.tasks[i]? = some t) (hst : t.stage = .marking mk) (hm : mk.run C s.table now t.mail.id = .ok s'.table)
    (hcontrol : s'.control = s.control) (hlog : s'.log = ⟨now, .marked t.mail.id mk⟩ :: s.log) :
    Queued C u r s' ∧ Pays C u K s s' := by
  have hslot : (s.track C t.mail.id).slot = some t.slot := (hreach.exclusive.get_setStage ht t.stage).1
  obtain ⟨-, r', hr', hco⟩ := hreach.coherent t.mail.id _ hslot
  have hsending : r'.isWaiting = false :=
    Row.not_waiting_of_sending (hco.inFlight (by rw [Task.slot, hst]; rfl)).1
  have hother {v : MailId} {r'' : Row} (hv : s.table.find (C.uuidText v) = some r'') (hw : r''.isWaiting = true) :
      s'.table.find (C.uuidText v) = some r'' := by
    rw [(Mark.run_ok hm).2 v, hv]
    rintro rfl
    obtain rfl := Option.some.inj (hr'.symm.trans hv)
    rw [hsending] at hw
    cases hw
  have hlate : s'.late C u K ≤ s.late C u K := State.late_le (hcontrol ▸ .refl _) fun m hm => by
    obtain ⟨r'', hr'', hw⟩ := h.front m (hcontrol ▸ hm)
    rw [hr'', hother hr'' hw]
  refine ⟨⟨hother h.row h.waiting, h.waiting, fun m hm => ?_⟩, ?_⟩
  · obtain ⟨r'', hr'', hw⟩ := h.front m (hcontrol ▸ hm)
    exact ⟨r'', hother hr'' hw, hw⟩
  · have hahead := Mark.run_affected hm hr' (Row.isAhead (C.uuidText u) K)
    have hle : (Row.isAhead (C.uuidText u) K (mk.row now r')).toNat ≤
        (Event.joins K (.marked t.mail.id mk : Event τ)).toNat := by
      refine Bool.toNat_le_toNat fun hah => ?_
      simp only [Row.isAhead, decide_eq_true_eq] at hah
      obtain ⟨-, hw, hle⟩ := hah
      cases mk with
      | sent | dead => simp [Mark.row, setStatusRow, statusToStr, Row.isWaiting] at hw
      | failed error retryAt => exact decide_eq_true hle
    obtain ⟨hclaims, hjoins⟩ := counts_cons (K := K) hlog
    rw [Row.isAhead_of_not_waiting hsending] at hahead
    simp only [Event.isClaim, Bool.toNat_false] at hclaims hahead
    simp only [Pays, State.ahead]
    omega

end Queued

/-- A batch leaves a due mail out only when it is full of mails ahead of it. -/
theorem fetch_passes {T : Mails} (hT : Canonical C T) {scan : List Row} {limit : UInt32} {tick : DateTime}
    {due : List Mail} (hscan : scan.Perm T.rows) (hf : fetchDue C scan limit tick = .ok due)
    (hr : T.find (C.uuidText u) = some r) (hdue : isDue tick r = true) (hout : ∀ m ∈ due, m.id ≠ u) :
    due.length = limit.toNat ∧ limit.toNat ≤ T.affected (Row.isAhead (C.uuidText u) r.nextAttemptAt) := by
  obtain ⟨hrT, hrid⟩ := Table.find_eq_some.1 hr
  obtain ⟨hlength, hnodup, hmem, -, holdest⟩ := Table.select_spec hscan (isDue tick) Row.nextAttemptAt limit.toNat
  have hnot : r ∉ Table.select scan (isDue tick) Row.nextAttemptAt limit.toNat := by
    intro hin
    obtain ⟨m, hm, hdec⟩ := mapM_mem_left hf r hin
    exact hout m hm (C.uuidText_inj.1 ((hT.id_eq hrT hdec).symm.trans hrid))
  have hfull : limit.toNat < (T.rows.filter (isDue tick)).length := by
    by_contra hle
    exact hnot (Table.mem_select_of_le hscan (not_lt.1 hle) hrT hdue)
  have hlen : (Table.select scan (isDue tick) Row.nextAttemptAt limit.toNat).length = due.length :=
    (mapM_forall₂ hf).length_eq
  rw [Nat.min_eq_left hfull.le] at hlength
  refine ⟨hlen.symm.trans hlength, ?_⟩
  have hsub : Table.select scan (isDue tick) Row.nextAttemptAt limit.toNat ⊆
      T.rows.filter (Row.isAhead (C.uuidText u) r.nextAttemptAt) := by
    intro r' hr'
    obtain ⟨hrT', hdue'⟩ := hmem r' hr'
    simp only [isDue, decide_eq_true_eq] at hdue'
    refine List.mem_filter.2 ⟨hrT', decide_eq_true ⟨fun hid => ?_, decide_eq_true hdue'.1, ?_⟩⟩
    · have hfind := Table.find_self hrT'
      rw [hid, hr] at hfind
      obtain rfl := Option.some.inj hfind
      exact hnot hr'
    · exact holdest r hrT hdue hnot r' hr'
  rw [← hlength]
  exact (List.subperm_of_subset (List.Nodup.of_map _ hnodup) hsub).length_le

theorem Passes.of_runChecked {script : List (DateTime × Action)}
    (h : s.runChecked C d (fun s _ _ => !s.control.isTurn u) script = some s') : Run (Passes C d u) s s' :=
  Run.of_runChecked (I := fun _ => True) (fun _ hs hturn => ⟨⟨by simpa using hturn, _, hs⟩, trivial⟩) trivial h

end OxidRelay
