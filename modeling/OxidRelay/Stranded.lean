/-
No mail is lost or stranded. A row, once inserted, is there in every later
state, under the one key (`Track.Carried`); and whatever left it in one of
the states that are not final, the next tick whose clock has passed its
timestamps has it in its due set.

The second part needs no liveness argument: a pending or failed row is due
by its `next_attempt_at`, a sending row is reclaimed first by its
`updated_at`, and the reclaim keeps `next_attempt_at`. Between the start
of a tick and its fetch nobody else touches the row, because no delivery
is alive.
-/
import OxidRelay.Content
import OxidRelay.DueOrder

namespace OxidRelay

open DateTime SqliteQueue

variable {τ : Type} {C : Codec} {d : Dispatcher τ} {s s' : State τ} {now : DateTime} {u : MailId} {t t' : Track τ}
  {m e : Mail} {r : Row}

/-! ## The instants a run has written -/

/-- The instants a step wrote into the table. -/
def Entry.written (x : Entry τ) : List DateTime :=
  match x.event with
  | .enqueued m => [m.createdAt, m.updatedAt, m.nextAttemptAt]
  | .requeued _ | .claimed _ | .marked _ .sent | .marked _ (.dead _) => [x.time]
  | .marked _ (.failed _ retryAt) => [x.time, retryAt]
  | _ => []

def WrittenIn (log : List (Entry τ)) (at_ : DateTime) : Prop := ∃ x ∈ log, at_ ∈ x.written

theorem WrittenIn.suffix {l l' : List (Entry τ)} {at_ : DateTime} (h : WrittenIn l at_) (hs : l <:+ l') :
    WrittenIn l' at_ := by
  obtain ⟨x, hx, ha⟩ := h
  exact ⟨x, hs.subset hx, ha⟩

theorem Row.Written.mono {P Q : DateTime → Prop} (h : r.Written C P) (hPQ : ∀ x, P x → Q x) : r.Written C Q where
  id := h.id
  sender := h.sender
  recipients := h.recipients
  status := h.status
  created := h.created.imp fun _ h => ⟨hPQ _ h.1, h.2⟩
  updated := h.updated.imp fun _ h => ⟨hPQ _ h.1, h.2⟩
  next := h.next.imp fun _ h => ⟨hPQ _ h.1, h.2⟩

theorem Row.Written.mark {P : DateTime → Prop} (h : r.Written C P) {mk : Mark}
    (hp : ∀ x ∈ (⟨now, .marked u mk⟩ : Entry τ).written, P x) :
    (mk.row now r).Written C P := by
  cases mk with
  | sent | dead => exact h.setStatusRow (hp now (by simp [Entry.written])) (by simp)
  | failed error retryAt =>
    exact h.setStatusRow (hp now (by simp [Entry.written])) (by simpa using hp retryAt (by simp [Entry.written]))

/-- The row is one that the writes of the log can leave. -/
def Track.RowWritten (C : Codec) (t : Track τ) : Prop := ∀ r, t.row = some r → r.Written C (WrittenIn t.log)

theorem Life.rowWritten (hw : t.RowWritten C) (h : Life C d u t now t') : t'.RowWritten C := by
  have keep : ∀ {r : Row}, t.row = some r → r.Written C (WrittenIn t'.log) := fun hr =>
    (hw _ hr).mono fun _ hx => hx.suffix h.log_suffix
  cases h with
  | enqueued =>
    intro r hr
    cases hr
    exact .mailToRow ⟨_, List.mem_cons_self, by simp [Entry.written]⟩
      ⟨_, List.mem_cons_self, by simp [Entry.written]⟩ ⟨_, List.mem_cons_self, by simp [Entry.written]⟩
  | requeued hr _ _ =>
    intro r hr
    cases hr
    exact (keep hr).requeueRow ⟨_, List.mem_cons_self, by simp [Entry.written]⟩
  | claimed _ hr =>
    intro r hr
    cases hr
    exact (keep hr).setStatusRow ⟨_, List.mem_cons_self, by simp [Entry.written]⟩ (by simp)
  | marked _ hr =>
    intro r hr
    cases hr
    exact (keep hr).mark fun x hx => ⟨_, List.mem_cons_self, hx⟩
  | _ => exact fun r hr => keep hr

theorem ReachableFromEmpty.rowWritten (h : ReachableFromEmpty C d s) {k : String} (hr : s.table.find k = some r) :
    r.Written C (WrittenIn s.log) := by
  obtain ⟨hmem, rfl⟩ := Table.find_eq_some.1 hr
  obtain ⟨u, hu⟩ := h.reachable.exclusive.canonical r hmem
  rw [hu] at hr
  refine (h.invariant (by simp [Track.RowWritten, Track.initial]) Life.rowWritten r hr).mono ?_
  intro x hx'
  obtain ⟨y, hy, hx⟩ := hx'
  exact ⟨y, (List.mem_filter.1 hy).1, hx⟩

/-! ## From the start of a tick to its fetch -/

/-- What happens beside the main task while it stays where it is. -/
abbrev Meanwhile (C : Codec) (d : Dispatcher τ) : State τ → State τ → Prop :=
  Run fun s s' => (∃ now, Step C d s now s') ∧ s'.control = s.control

/-- A tick that starts in `s` at `now`, whose reclaim succeeds, stands in
`s'` before its fetch. -/
inductive ReachesFetch (C : Codec) (d : Dispatcher τ) (s : State τ) (now cutoff : DateTime) (s' : State τ) : Prop
  | intro {s₁ s₂ s₃ : State τ} {at_ : DateTime} (polling : s.control = .polling)
    (cutoff_eq : d.cutoff now = some cutoff)
    (start : Step C d s now s₁) (started : s₁.control = .reclaiming now cutoff) (before : Meanwhile C d s₁ s₂)
    (reclaim : Step C d s₂ at_ s₃) (reclaimed : s₃.table = (requeueStaleSending s₂.table at_ cutoff).1)
    (fetching : s₃.control = .fetching now) (after : Meanwhile C d s₃ s')

/-- Before the fetch of a tick, a step that leaves the main task where it
is keeps every row. -/
theorem Step.row_kept (h : Exclusive C d s) (hs : Step C d s now s') (hb : s.control.beforeFetch = true)
    (hc : s'.control = s.control) {k : String} (hr : s.table.find k = some r) : s'.table.find k = some r := by
  cases hs with
  | enqueue _ he =>
    have hi := (enqueue_ok he).2
    simp only [State.emit, Table.find_insert hi]
    split
    · next hk => rw [← hk, Table.insert_new hi] at hr; cases hr
    · exact hr
  | mark ht => rw [h.not_beforeFetch ht] at hb; cases hb
  | recover hc' | reclaim hc' | claim hc' => simp [State.emit, hc'] at hc
  | _ => exact hr

theorem Meanwhile.row_kept (h : Exclusive C d s) (hs : Meanwhile C d s s') (hb : s.control.beforeFetch = true)
    {k : String} (hr : s.table.find k = some r) : Exclusive C d s' ∧ s'.table.find k = some r := by
  have := Run.invariant (I := fun s' => Exclusive C d s' ∧ s'.control.beforeFetch = true ∧ s'.table.find k = some r)
    ?_ ⟨h, hb, hr⟩ hs
  · exact ⟨this.1, this.2.2⟩
  · intro a b hinv hstep
    obtain ⟨ha, hba, hra⟩ := hinv
    obtain ⟨⟨now, hab⟩, hc⟩ := hstep
    exact ⟨hab.exclusive ha, hc ▸ hba, hab.row_kept ha hba hc hra⟩

/-- The step that starts a tick leaves the table alone. -/
theorem Step.tick_table (hs : Step C d s now s') (hp : s.control = .polling) {at_ cutoff : DateTime}
    (hc : s'.control = .reclaiming at_ cutoff) : s'.table = s.table := by
  cases hs with
  | enqueue | recover | reclaim | claim | mark => simp_all [State.emit, State.setStage]
  | _ => rfl

/-- What the reclaim of the tick did to a row is all that happened to it. -/
theorem ReachesFetch.find (h : Exclusive C d s) {cutoff : DateTime} (hf : ReachesFetch C d s now cutoff s')
    {k : String} (hr : s.table.find k = some r) : Exclusive C d s' ∧
      ∃ at_, s'.table.find k = some (if isStale cutoff r then requeueRow at_ r else r) := by
  obtain ⟨polling, -, start, started, before, reclaim, reclaimed, fetching, after⟩ := hf
  rename_i s₁ s₂ s₃ at_
  have h₁ := start.exclusive h
  have hr₁ := (start.tick_table polling started) ▸ hr
  obtain ⟨h₂, hr₂⟩ := before.row_kept h₁ (by rw [started]; rfl) hr₁
  have h₃ := reclaim.exclusive h₂
  have hr₃ := find_requeueStaleSending (T := s₂.table) at_ cutoff k
  rw [hr₂, ← reclaimed] at hr₃
  obtain ⟨h', hr'⟩ := after.row_kept h₃ (by rw [fetching]; rfl) hr₃
  exact ⟨h', _, hr'⟩

theorem Dispatcher.cutoff_le {cutoff : DateTime} (h : d.cutoff now = some cutoff) : cutoff ≤ now := by
  refine checkedSub_le ?_ h
  cases hc : d.config.sendingLease.toChrono with
  | none => simp [chronoSeconds]
  | some lease =>
    simp only [Duration.toChrono] at hc
    split at hc
    · cases hc; simp
    · cases hc

/-- A mail that is neither sent nor dead, once its timestamps have passed,
is due after a reclaim. -/
theorem isDue_after_reclaim (hm : rowToMail C r = .ok m) (hup : r.updatedAt = m.updatedAt.toRfc3339)
    (hnext : r.nextAttemptAt = m.nextAttemptAt.toRfc3339) (hupr : m.updatedAt.YearInRange)
    (hnextr : m.nextAttemptAt.YearInRange) (hsent : m.status ≠ .sent) (hdead : m.status ≠ .dead) {cutoff : DateTime}
    (hnow : now.YearInRange) (hcut : cutoff ≤ now) (hdue : m.nextAttemptAt ≤ now)
    (hstale : m.updatedAt < cutoff) (at_ : DateTime) :
    isDue now (if isStale cutoff r then requeueRow at_ r else r) = true := by
  have hcr : cutoff.YearInRange := hupr.between hnow hstale.le hcut
  have hst : r.status = statusToStr m.status := (rowOf_of_rowToMail hm).status
  have hpast : r.nextAttemptAt ≤ now.toRfc3339 := by rw [hnext]; exact (toRfc3339_le_iff hnextr hnow).2 hdue
  have hold : r.updatedAt < cutoff.toRfc3339 := by rw [hup]; exact (toRfc3339_lt_iff hupr hcr).2 hstale
  cases hs : m.status with
  | sent => exact absurd hs hsent
  | dead => exact absurd hs hdead
  | sending =>
    have : isStale cutoff r = true := by simp only [isStale, decide_eq_true_eq]; exact ⟨by rw [hst, hs]; rfl, hold⟩
    rw [this, if_pos rfl]
    simp only [isDue, requeueRow, decide_eq_true_eq]
    exact ⟨by simp, hpast⟩
  | pending | failed =>
    have : isStale cutoff r = false := by simp [isStale, hst, hs, statusToStr]
    rw [this, if_neg (by simp)]
    simp only [isDue, decide_eq_true_eq, hst, hs]
    exact ⟨by simp [statusToStr], hpast⟩

/-! ## Nothing is lost or stranded -/

/-- **No accepted mail is lost or stranded.** In every state reached from
an empty queue, whatever crashed, panicked or failed, as long as the
timestamps written had years 0 to 9999: each mail ever enqueued has exactly
one row, which decodes to a mail of its content; and when that mail is
neither sent nor dead, any tick that starts here at a `now` past its
`next_attempt_at` and whose cutoff is past its `updated_at`, having
reclaimed, has the row in its due set, so that its fetch answers it when
`batch_size` is no smaller than the number of due rows. -/
theorem nothing_stranded (h : ReachableFromEmpty C d s) (hrange : ∀ at_, WrittenIn s.log at_ → at_.YearInRange)
    (he : Enqueued e s.log) :
    ∃ r m, s.table.rows.filter (fun r => r.id = C.uuidText e.id) = [r] ∧ rowToMail C r = .ok m ∧ SameContent m e ∧
      (m.status ≠ .sent → m.status ≠ .dead → ∀ now cutoff s', ReachesFetch C d s now cutoff s' → now.YearInRange →
        m.nextAttemptAt ≤ now → m.updatedAt < cutoff →
        ∃ r', s'.table.find (C.uuidText e.id) = some r' ∧ isDue now r' = true ∧
          ∀ scan due, scan.Perm s'.table.rows → fetchDue C scan d.config.batchSize now = .ok due →
            (s'.table.rows.filter (isDue now)).length ≤ d.config.batchSize.toNat → ∃ m' ∈ due, m'.id = e.id) := by
  have hcreated : e.createdAt.YearInRange := by
    obtain ⟨x, hx, hev⟩ := he
    exact hrange _ ⟨x, hx, by simp [Entry.written, hev]⟩
  have hcar := h.reachable.carried hcreated e.id
  have he' : Enqueued e (s.track C e.id).log := by
    obtain ⟨x, hx, hev⟩ := he
    exact ⟨x, List.mem_filter.2 ⟨hx, by simp [hev, Event.about]⟩, hev⟩
  have hexcl := h.reachable.exclusive
  cases hr : s.table.find (C.uuidText e.id) with
  | none => exact absurd he' (hcar.absent hr).1
  | some r =>
    have hw := (h.rowWritten hr).mono hrange
    obtain ⟨m, hm, -, hupr, hup, hnextr, hnext⟩ := hw.decodes
    have hsame := (rowOf_of_rowToMail hm).snapshot.toCarries.same (hcar.row he' r hr)
    refine ⟨r, m, by rw [s.table.filter_key, hr]; rfl, hm, hsame, ?_⟩
    intro hsent hdead now cutoff s' hf hnow hdue hstale
    have hcut : cutoff ≤ now := by
      obtain ⟨-, hcut, -⟩ := hf
      exact Dispatcher.cutoff_le hcut
    obtain ⟨hexcl', at_, hr'⟩ := hf.find hexcl hr
    have hisDue := isDue_after_reclaim hm hup hnext hupr hnextr hsent hdead hnow hcut hdue hstale at_
    refine ⟨_, hr', hisDue, fun scan due hscan hfetch hlen => ?_⟩
    obtain ⟨hmem, hkey⟩ := Table.find_eq_some.1 hr'
    obtain ⟨m', hm', hdec⟩ := mapM_mem_left hfetch _ (Table.mem_select_of_le hscan hlen hmem hisDue)
    exact ⟨m', hm', C.uuidText_inj.1 ((hexcl'.canonical.id_eq hmem hdec).symm.trans hkey)⟩

/-- What the crash left of the letter. The failed send before had already set its retry time. -/
def letterLeft : Mail := { letterAgain with status := .sending, lastError := none, updatedAt := firstDay 41 }

/-- The letter of the run, left sending by the crash: the next tick past its
lease has it in its due set, and its fetch answers it. -/
theorem nothing_stranded_example :
    ∃ r' due, reclaimedState.table.find (textCodec.uuidText letter.id) = some r' ∧ isDue (firstDay 1000) r' = true ∧
      fetchDue textCodec reclaimedState.table.rows exampleDispatcher.config.batchSize (firstDay 1000) = .ok due ∧
      ∃ m' ∈ due, m'.id = letter.id := by
  have hrange : ∀ at_, WrittenIn restartedState.log at_ → at_.YearInRange := fun at_ h => by
    have hall : ∀ x ∈ restartedState.log, ∀ at_ ∈ x.written, at_.YearInRange := by decide +kernel
    obtain ⟨x, hx, hat⟩ := h
    exact hall x hx at_ hat
  have hleft : rowToMail textCodec (mailToRow textCodec letterLeft) = .ok letterLeft :=
    rowToMail_mailToRow textCodec (by decide) (by decide) (by decide)
  obtain ⟨r, m, hr, hm, -, hfetched⟩ := nothing_stranded reachable_restartedState hrange enqueued_restartedState
  have hrow : r = mailToRow textCodec letterLeft := (List.singleton_inj.1 hr).symm
  obtain rfl : letterLeft = m := Except.ok.inj (hleft.symm.trans (hrow ▸ hm))
  have hfetch : fetchDue textCodec reclaimedState.table.rows exampleDispatcher.config.batchSize (firstDay 1000) =
      .ok [letterReclaimed] := by decide +kernel
  have hreaches : ReachesFetch textCodec exampleDispatcher restartedState (firstDay 1000) (firstDay 880)
      reclaimedState :=
    ⟨rfl, rfl, .tick rfl rfl rfl, rfl, .refl, State.exec_step (a := .reclaim true) rfl, rfl, rfl, .refl⟩
  obtain ⟨r', hr', hdue, hanswers⟩ :=
    hfetched (by decide) (by decide) _ _ _ hreaches (by decide) (by decide) (by decide)
  exact ⟨r', [letterReclaimed], hr', hdue, hfetch, hanswers _ _ (.refl _) hfetch (by decide)⟩

end OxidRelay
