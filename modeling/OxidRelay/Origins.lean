/-
Where the mails of a queue come from. From an empty queue on, each row
stands for the one mail that was enqueued under its id, and a send is
handed the content of that mail (`Track.Sourced`). Unlike `Carried`, this
asks nothing of timestamps: a row whose creation time the decoder refuses
is never fetched.
-/
import OxidRelay.BadRow
import OxidRelay.Content

namespace OxidRelay

open SqliteQueue

variable {τ : Type} {C : Codec} {d : Dispatcher τ} {s s' : State τ} {now : DateTime} {u : MailId} {t t' : Track τ}
  {m e : Mail} {r : Row}

/-! ## Columns -/

/-- The columns that no UPDATE sets. -/
structure Row.SameColumns (r r' : Row) : Prop where
  id : r.id = r'.id
  sender : r.sender = r'.sender
  recipients : r.recipients = r'.recipients
  subject : r.subject = r'.subject
  body : r.body = r'.body
  transport : r.transport = r'.transport
  createdAt : r.createdAt = r'.createdAt

theorem Row.SameColumns.refl (r : Row) : r.SameColumns r := ⟨rfl, rfl, rfl, rfl, rfl, rfl, rfl⟩

theorem Row.SameColumns.setStatusRow {r' : Row} (h : r.SameColumns r') {status err bump next} :
    (setStatusRow now status err bump next r).SameColumns r' := { h with }

theorem Row.SameColumns.requeueRow {r' : Row} (h : r.SameColumns r') : (requeueRow now r).SameColumns r' := { h with }

theorem Row.SameColumns.mark {r' : Row} (h : r.SameColumns r') (mk : Mark) : (mk.row now r).SameColumns r' := by
  cases mk <;> exact h.setStatusRow

/-- A row that decodes has the content of the mail it was written for. -/
theorem Row.SameColumns.content (hr : r.SameColumns (mailToRow C e)) (h : Carries C m r) : SameContent m e := by
  obtain ⟨hid, hsender, hrecipients, hsubject, hbody, htransport, hcreated⟩ := hr
  have hparse : parseTime C e.createdAt.toRfc3339 = .ok m.createdAt := by
    rw [← h.parseCreated, hcreated]
    rfl
  refine h.same ⟨?_, ?_, ?_, hsubject, hbody, htransport, ?_⟩
  · rw [hsender]
    exact parseSender_toJson C _
  · rw [hrecipients]
    exact parseRecipients_toJson C _
  · rw [hid]
    exact C.parseUuid_uuidText _
  · rw [hcreated]
    exact parseTime_toRfc3339 C (yearInRange_of_parseTime hparse)

/-! ## Tracks -/

/-- The row stands for the one mail enqueued, whose content each send had. -/
structure Track.Sourced (C : Codec) (d : Dispatcher τ) (u : MailId) (t : Track τ) : Prop where
  absent : t.row = none → (∀ e, ¬ Enqueued e t.log) ∧ ∀ tr m, ¬ SendStarted tr m t.log
  row : ∀ r, t.row = some r → ∃ e, e.id = u ∧ Enqueued e t.log ∧ r.SameColumns (mailToRow C e) ∧
    (∀ e', Enqueued e' t.log → e' = e) ∧
    ∀ tr m, SendStarted tr m t.log → SameContent m e ∧ d.transportFor e.transport = some tr

/-- A step that enqueues nothing, sends nothing and keeps the columns. -/
theorem Track.Sourced.keep (h : t.Sourced C d u) (hn : t'.row = none → t.row = none)
    (hr : ∀ r', t'.row = some r' → ∃ r, t.row = some r ∧ ∀ q, r.SameColumns q → r'.SameColumns q)
    (he : ∀ e, Enqueued e t'.log ↔ Enqueued e t.log)
    (hs : ∀ tr m, SendStarted tr m t'.log → SendStarted tr m t.log) : t'.Sourced C d u where
  absent hn' := by
    obtain ⟨henq, hsend⟩ := h.absent (hn hn')
    exact ⟨fun e hx => henq e ((he e).1 hx), fun tr m hx => hsend tr m (hs tr m hx)⟩
  row r' hr' := by
    obtain ⟨r, hrow, hcols⟩ := hr r' hr'
    obtain ⟨e, hid, henq, hsame, hone, hsends⟩ := h.row r hrow
    exact ⟨e, hid, (he e).2 henq, hcols _ hsame, fun e' hx => hone e' ((he e').1 hx),
      fun tr m hx => hsends tr m (hs tr m hx)⟩

theorem enqueued_append {log : List (Entry τ)} {events : List (Event τ)} (hne : ∀ e, .enqueued e ∉ events) :
    Enqueued e (events.map (fun ev => ⟨now, ev⟩) ++ log) ↔ Enqueued e log := by
  refine ⟨fun h => ?_, fun h => ?_⟩
  · obtain ⟨x, hx, hev⟩ := h
    rcases List.mem_append.1 hx with hx | hx
    · obtain ⟨ev, hmem, rfl⟩ := List.mem_map.1 hx
      cases hev
      exact absurd hmem (hne e)
    · exact ⟨x, hx, hev⟩
  · obtain ⟨x, hx, hev⟩ := h
    exact ⟨x, List.mem_append_right _ hx, hev⟩

theorem enqueued_cons {log : List (Entry τ)} {ev : Event τ} (hne : ∀ e, ev ≠ .enqueued e) :
    Enqueued e (⟨now, ev⟩ :: log) ↔ Enqueued e log := by
  have hnot : ∀ e, .enqueued e ∉ [ev] := fun e h => hne e (List.mem_singleton.1 h).symm
  exact enqueued_append hnot

theorem Life.sourced (hc : t.Coherent C u) (hk : t.Sourced C d u) (h : Life C d u t now t') : t'.Sourced C d u := by
  cases h with
  | stay => exact hk
  | crashed | tickStarted | fetched | claimFailed | sendOk | sendErr | markFailed | panicked =>
    exact hk.keep id (fun r' hr' => ⟨r', hr', fun _ => id⟩) (fun e => enqueued_cons (by simp))
      fun tr m hx => hx.of_cons (by simp)
  | sendErrPanicked =>
    exact hk.keep id (fun r' hr' => ⟨r', hr', fun _ => id⟩)
      (fun e => (enqueued_cons (by simp)).trans (enqueued_cons (by simp)))
      fun tr m hx => (hx.of_cons (by simp)).of_cons (by simp)
  | spawned | noTransport | finished | joined =>
    exact hk.keep id (fun r' hr' => ⟨r', hr', fun _ => id⟩) (fun e => Iff.rfl) fun _ _ => id
  | requeued hr =>
    refine hk.keep (by simp) (fun r' hr' => ?_) (fun e => enqueued_cons (by simp)) fun tr m hx => hx.of_cons (by simp)
    cases hr'
    exact ⟨_, hr, fun _ hq => hq.requeueRow⟩
  | claimed _ hr =>
    refine hk.keep (by simp) (fun r' hr' => ?_) (fun e => enqueued_cons (by simp)) fun tr m hx => hx.of_cons (by simp)
    cases hr'
    exact ⟨_, hr, fun _ hq => hq.setStatusRow⟩
  | marked _ hr =>
    refine hk.keep (by simp) (fun r' hr' => ?_) (fun e => enqueued_cons (by simp)) fun tr m hx => hx.of_cons (by simp)
    cases hr'
    exact ⟨_, hr, fun _ hq => hq.mark _⟩
  | enqueued hr hid =>
    rename_i mail
    obtain ⟨hnone, hunsent⟩ := hk.absent hr
    refine ⟨by simp, fun r hr' => ?_⟩
    cases hr'
    refine ⟨mail, hid, ⟨_, List.mem_cons_self, rfl⟩, .refl _, fun e' he' => ?_,
      fun tr m hs => absurd (hs.of_cons (by simp)) (hunsent tr m)⟩
    by_contra hne
    exact hnone e' (he'.of_cons (by simpa using Ne.symm hne))
  | sendStarted hx htr =>
    obtain ⟨-, r, hr, hco⟩ := hc _ hx
    obtain ⟨e, hid, henq, hsame, hone, hsends⟩ := hk.row r hr
    refine ⟨fun hn => by simp [hr] at hn, fun r' hr' => ?_⟩
    cases hr.symm.trans hr'
    refine ⟨e, hid, (enqueued_cons (by simp)).2 henq, hsame, fun e' he' => hone e' ((enqueued_cons (by simp)).1 he'),
      fun tr m hs => ?_⟩
    obtain ⟨x, hmem, hev⟩ := hs
    rcases List.mem_cons.1 hmem with rfl | hmem
    · cases hev
      have hcontent := hsame.content (hco.inFlight rfl).2.toCarries
      exact ⟨hcontent, hcontent.transport ▸ htr⟩
    · exact hsends tr m ⟨x, hmem, hev⟩

theorem ReachableFromEmpty.sourced (h : ReachableFromEmpty C d s) (u : MailId) : (s.track C u).Sourced C d u := by
  refine (h.invariant (I := fun t => t.Coherent C u ∧ t.Sourced C d u) ?_ ?_).2
  · exact ⟨.initial none, fun _ => ⟨by simp [Enqueued, Track.initial], by simp [SendStarted, Track.initial]⟩,
      by simp [Track.initial]⟩
  · intro t now t' h hstep
    obtain ⟨hc, hk⟩ := h
    exact ⟨hstep.coherent hc, hstep.sourced hc hk⟩

/-! ## States -/

/-- A step is an enqueue, or leaves the mails enqueued as they are. -/
theorem Step.enqueued_cases (hs : Step C d s now s') :
    (∃ mail, s'.log = ⟨now, .enqueued mail⟩ :: s.log) ∨ ∀ e, Enqueued e s'.log ↔ Enqueued e s.log := by
  cases hs with
  | enqueue => exact .inl ⟨_, rfl⟩
  | recover | reclaim => exact .inr fun e => enqueued_append (by simp [State.requeuedEvents])
  | fetch => exact .inr fun e => enqueued_append (by simp)
  | sendErrPanics => exact .inr fun e => (enqueued_cons (by simp)).trans (enqueued_cons (by simp))
  | recoverFails | elapse | shutdown | reclaimFails | spawn | endClaims | joinOne | noTransport | finish =>
    exact .inr fun e => Iff.rfl
  | _ => exact .inr fun e => enqueued_cons (by simp)

theorem Enqueued.track (h : Enqueued e s.log) : Enqueued e (s.track C e.id).log := by
  obtain ⟨x, hx, hev⟩ := h
  exact ⟨x, List.mem_filter.2 ⟨hx, by simp [hev, Event.about]⟩, hev⟩

theorem Enqueued.of_track (h : Enqueued e (s.track C u).log) : Enqueued e s.log := by
  obtain ⟨x, hx, hev⟩ := h
  exact ⟨x, (List.mem_filter.1 hx).1, hev⟩

theorem SendStarted.track {tr : τ} (h : SendStarted tr m s.log) : SendStarted tr m (s.track C m.id).log := by
  obtain ⟨x, hx, hev⟩ := h
  exact ⟨x, List.mem_filter.2 ⟨hx, by simp [hev, Event.about]⟩, hev⟩

/-- **A mail once enqueued has its row**, with its content, in every later state. -/
theorem ReachableFromEmpty.row_of_enqueued (h : ReachableFromEmpty C d s) (he : Enqueued e s.log) :
    ∃ r, s.table.find (C.uuidText e.id) = some r ∧ r.SameColumns (mailToRow C e) := by
  have hsourced := h.sourced e.id
  cases hr : (s.track C e.id).row with
  | none => exact absurd he.track ((hsourced.absent hr).1 e)
  | some r =>
    obtain ⟨e', -, -, hsame, hone, -⟩ := hsourced.row r hr
    rw [← hone e he.track] at hsame
    exact ⟨r, hr, hsame⟩

/-- **Each row stands for a mail that was enqueued.** -/
theorem ReachableFromEmpty.enqueued_of_row (h : ReachableFromEmpty C d s) (hr : r ∈ s.table) :
    ∃ e, Enqueued e s.log ∧ r.id = C.uuidText e.id ∧ r.SameColumns (mailToRow C e) := by
  obtain ⟨u, hu⟩ := h.reachable.exclusive.canonical r hr
  have hfind : s.table.find (C.uuidText u) = some r := hu ▸ Table.find_self hr
  obtain ⟨e, hid, henq, hsame, -, -⟩ := (h.sourced u).row r hfind
  exact ⟨e, henq.of_track, by rw [hid, hu], hsame⟩

/-- **Each send has the content of a mail that was enqueued.** -/
theorem ReachableFromEmpty.enqueued_of_send (h : ReachableFromEmpty C d s) {tr : τ} (hs : SendStarted tr m s.log) :
    ∃ e, Enqueued e s.log ∧ SameContent m e ∧ d.transportFor e.transport = some tr := by
  have hsourced := h.sourced m.id
  cases hr : (s.track C m.id).row with
  | none => exact absurd hs.track ((hsourced.absent hr).2 tr m)
  | some r =>
    obtain ⟨e, -, henq, -, -, hsends⟩ := hsourced.row r hr
    exact ⟨e, henq.of_track, hsends tr m hs.track⟩

end OxidRelay
