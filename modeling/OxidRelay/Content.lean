/-
Content integrity: what a transport is handed is what was enqueued.

A row carries the content of a mail (`Carries`) from its INSERT on, since
no statement of the queue rewrites a content column; and a snapshot in
flight has the content its row carries (`Track.Coherent`). So each send
has the content of the one mail that was enqueued under its id.
-/
import OxidRelay.Lifecycle

namespace OxidRelay

open DateTime SqliteQueue

variable {τ : Type} {C : Codec} {d : Dispatcher τ} {s s' : State τ} {now : DateTime} {u : MailId} {t t' : Track τ}
  {m e : Mail} {r : Row}

/-! ## Content -/

/-- Two mails of one content; their delivery state may differ. -/
structure SameContent (m e : Mail) : Prop where
  id : m.id = e.id
  fromAddr : m.fromAddr = e.fromAddr
  toAddrs : m.toAddrs = e.toAddrs
  subject : m.subject = e.subject
  body : m.body = e.body
  transport : m.transport = e.transport
  createdAt : m.createdAt = e.createdAt

/-- A row carries one content. -/
theorem Carries.same (hm : Carries C m r) (he : Carries C e r) : SameContent m e where
  id := Except.ok.inj (hm.parseId.symm.trans he.parseId)
  fromAddr := Except.ok.inj (hm.parseSender.symm.trans he.parseSender)
  toAddrs := Except.ok.inj (hm.parseRecipients.symm.trans he.parseRecipients)
  subject := hm.subject.symm.trans he.subject
  body := hm.body.symm.trans he.body
  transport := hm.transport.symm.trans he.transport
  createdAt := Except.ok.inj (hm.parseCreated.symm.trans he.parseCreated)

theorem Carries.mailToRow (hc : e.createdAt.YearInRange) : Carries C e (mailToRow C e) :=
  ⟨parseSender_toJson C _, parseRecipients_toJson C _, C.parseUuid_uuidText _, rfl, rfl, rfl,
    parseTime_toRfc3339 C hc⟩

theorem Carries.setStatusRow (h : Carries C e r) {status err bump next} :
    Carries C e (setStatusRow now status err bump next r) := { h with }

theorem Carries.requeueRow (h : Carries C e r) : Carries C e (requeueRow now r) := { h with }

theorem Carries.mark (h : Carries C e r) (mk : Mark) : Carries C e (mk.row now r) := by
  cases mk <;> exact h.setStatusRow

/-! ## Tracks -/

def Enqueued (e : Mail) (log : List (Entry τ)) : Prop := ∃ x ∈ log, x.event = .enqueued e

def SendStarted (tr : τ) (m : Mail) (log : List (Entry τ)) : Prop := ∃ x ∈ log, x.event = .sendStarted tr m

/-- The row carries what was enqueued, and so did every send. -/
structure Track.Carried (C : Codec) (d : Dispatcher τ) (e : Mail) (t : Track τ) : Prop where
  absent : t.row = none → ¬ Enqueued e t.log ∧ ∀ tr m, ¬ SendStarted tr m t.log
  row : Enqueued e t.log → ∀ r, t.row = some r → Carries C e r
  sends : Enqueued e t.log → ∀ tr m, SendStarted tr m t.log → SameContent m e ∧ d.transportFor e.transport = some tr

theorem Enqueued.of_cons {log : List (Entry τ)} {ev : Event τ} (h : Enqueued e (⟨now, ev⟩ :: log))
    (hne : ev ≠ .enqueued e) : Enqueued e log :=
  event_of_cons h hne

theorem Enqueued.suffix {l l' : List (Entry τ)} (h : Enqueued e l) (hs : l <:+ l') : Enqueued e l' := by
  obtain ⟨x, hx, hev⟩ := h
  exact ⟨x, hs.subset hx, hev⟩

theorem SendStarted.of_cons {log : List (Entry τ)} {ev : Event τ} {tr : τ} (h : SendStarted tr m (⟨now, ev⟩ :: log))
    (hne : ev ≠ .sendStarted tr m) : SendStarted tr m log :=
  event_of_cons h hne

/-- A step that enqueues nothing, sends nothing and keeps the content of the row. -/
theorem Track.Carried.keep (hk : t.Carried C d e) (hlog : ∀ x, Enqueued x t'.log → Enqueued x t.log)
    (hsends : ∀ tr m, SendStarted tr m t'.log → SendStarted tr m t.log) (hn : t'.row = none → t.row = none)
    (hr : ∀ r', t'.row = some r' → ∃ r, t.row = some r ∧ (Carries C e r → Carries C e r')) : t'.Carried C d e where
  absent hn' :=
    ⟨fun he => (hk.absent (hn hn')).1 (hlog e he), fun tr m h => (hk.absent (hn hn')).2 tr m (hsends tr m h)⟩
  row he r' hr' := by
    obtain ⟨r, hr, hcar⟩ := hr r' hr'
    exact hcar (hk.row (hlog e he) r hr)
  sends he tr m h := hk.sends (hlog e he) tr m (hsends tr m h)

theorem Life.carried (hcreated : e.createdAt.YearInRange) (hc : t.Coherent C u) (hk : t.Carried C d e)
    (h : Life C d u t now t') : t'.Carried C d e := by
  cases h with
  | stay => exact hk
  | crashed | tickStarted | fetched | claimFailed | sendOk | sendErr | markFailed | panicked =>
    exact hk.keep (fun x hx => hx.of_cons (by simp)) (fun tr m hx => hx.of_cons (by simp)) id
      fun r' hr' => ⟨r', hr', id⟩
  | sendErrPanicked =>
    exact hk.keep (fun x hx => (hx.of_cons (by simp)).of_cons (by simp))
      (fun tr m hx => (hx.of_cons (by simp)).of_cons (by simp))
      id fun r' hr' => ⟨r', hr', id⟩
  | spawned | noTransport | finished | joined =>
    exact hk.keep (fun _ => id) (fun _ _ => id) id fun r' hr' => ⟨r', hr', id⟩
  | requeued hr =>
    refine hk.keep (fun x hx => hx.of_cons (by simp)) (fun tr m hx => hx.of_cons (by simp)) (by simp)
      fun r' hr' => ?_
    cases hr'
    exact ⟨_, hr, Carries.requeueRow⟩
  | claimed _ hr =>
    refine hk.keep (fun x hx => hx.of_cons (by simp)) (fun tr m hx => hx.of_cons (by simp)) (by simp)
      fun r' hr' => ?_
    cases hr'
    exact ⟨_, hr, fun h => h.setStatusRow⟩
  | marked _ hr =>
    refine hk.keep (fun x hx => hx.of_cons (by simp)) (fun tr m hx => hx.of_cons (by simp)) (by simp)
      fun r' hr' => ?_
    cases hr'
    exact ⟨_, hr, fun h => h.mark _⟩
  | enqueued hr _ =>
    rename_i mail _
    obtain ⟨hnot, hnone⟩ := hk.absent hr
    refine ⟨by simp, fun he r' hr' => ?_, fun he tr m hs => absurd (hs.of_cons (by simp)) (hnone tr m)⟩
    cases hr'
    by_cases hm : mail = e
    · rw [hm]; exact .mailToRow hcreated
    · exact absurd (he.of_cons (by simpa using hm)) hnot
  | sendStarted hx htr =>
    obtain ⟨-, r, hr, hco⟩ := hc _ hx
    refine ⟨fun hn => by simp [hr] at hn, fun he => hk.row (he.of_cons (by simp)), fun he tr m hs => ?_⟩
    have he' := he.of_cons (by simp)
    obtain ⟨x, hx', hev⟩ := hs
    rcases List.mem_cons.1 hx' with rfl | hx'
    · cases hev
      have hsame := (hco.inFlight rfl).2.toCarries.same (hk.row he' r hr)
      exact ⟨hsame, hsame.transport ▸ htr⟩
    · exact hk.sends he' tr m ⟨x, hx', hev⟩

theorem Reachable.carried (h : Reachable C d s) (hcreated : e.createdAt.YearInRange) (u : MailId) :
    (s.track C u).Carried C d e := by
  refine (h.invariant (I := fun t => t.Coherent C u ∧ t.Carried C d e) (fun row => ?_) ?_).2
  · exact ⟨.initial row, fun _ => ⟨by simp [Enqueued, Track.initial], by simp [SendStarted, Track.initial]⟩,
      by simp [Enqueued, Track.initial], by simp [Enqueued, Track.initial]⟩
  · intro t now t' h hstep
    obtain ⟨hc, hk⟩ := h
    exact ⟨hstep.coherent hc, hstep.carried hcreated hc hk⟩

/-! ## From enqueue to transport -/

theorem transportFor_eq_some {own : Option String} {tr : τ} : d.transportFor own = some tr ↔
    ∃ name, (own = some name ∨ own = none ∧ d.defaultTransport = some name) ∧
      d.transports.lookup name = some tr := by
  cases own <;> simp [Dispatcher.transportFor, Option.bind_eq_some_iff]

/-- **Content integrity.** For a mail with timestamps of years 0 to 9999:
in every run, from any queue, that enqueues it, each send under its id is
invoked with its content, on the transport of its own transport name or,
when it has none, of the default name; and `get` right after `enqueue`
answers the mail as it was. -/
theorem content_integrity (hc : e.createdAt.YearInRange) (hu : e.updatedAt.YearInRange)
    (hn : e.nextAttemptAt.YearInRange) :
    (∀ s : State τ, Reachable C d s → Enqueued e s.log → ∀ tr m, SendStarted tr m s.log → m.id = e.id →
      SameContent m e ∧
        ∃ name, (e.transport = some name ∨ e.transport = none ∧ d.defaultTransport = some name) ∧
          d.transports.lookup name = some tr) ∧
    ∀ T U m, enqueue C T e = .ok (m, U) → m = e ∧ get C U e.id = .ok e := by
  constructor
  · intro s h henqueued tr m hsent hid
    obtain ⟨x, hx, hev⟩ := henqueued
    obtain ⟨y, hy, hev'⟩ := hsent
    have hsends := (h.carried hc e.id).sends ⟨x, List.mem_filter.2 ⟨hx, by simp [hev, Event.about]⟩, hev⟩ tr m
      ⟨y, List.mem_filter.2 ⟨hy, by simp [hev', Event.about, hid]⟩, hev'⟩
    exact ⟨hsends.1, transportFor_eq_some.1 hsends.2⟩
  · intro T U m he
    obtain ⟨rfl, hi⟩ := enqueue_ok he
    have hfind : U.find (C.uuidText m.id) = some (mailToRow C m) := by rw [Table.find_insert hi]; exact if_pos rfl
    refine ⟨rfl, ?_⟩
    rw [SqliteQueue.get, hfind]
    exact rowToMail_mailToRow C hc hu hn

theorem enqueued_retryState : Enqueued letter retryState.log :=
  ⟨⟨quarterSecond, .enqueued letter⟩, by simp [retryState, joinedState, sendsState, fetchingState], rfl⟩

theorem enqueued_restartedState : Enqueued letter restartedState.log :=
  enqueued_retryState.suffix (List.suffix_append _ _)

theorem enqueued_resentState : Enqueued letter resentState.log := by
  have hreclaimed : Enqueued letter reclaimedState.log := enqueued_restartedState.suffix (List.suffix_append _ _)
  exact hreclaimed.suffix (List.suffix_append _ _)

/-- The letter of the run, sent again when its send had failed, and when the
process had crashed; and looked up when it was enqueued. -/
theorem content_integrity_example :
    SameContent letterAgain letter ∧ SameContent letterReclaimed letter ∧
      ∃ T, enqueue textCodec Table.empty letter = .ok (letter, T) ∧ get textCodec T letter.id = .ok letter := by
  have hrange : quarterSecond.YearInRange := by decide
  have hintegrity := content_integrity (C := textCodec) (d := exampleDispatcher) (e := letter) hrange hrange hrange
  have hempty : enqueue textCodec Table.empty letter =
      .ok (letter, ⟨[mailToRow textCodec letter], List.nodup_singleton _⟩) := rfl
  refine ⟨?_, ?_, _, hempty, (hintegrity.2 _ _ _ hempty).2⟩
  · exact (hintegrity.1 retryState reachable_retryState.reachable enqueued_retryState () letterAgain
      ⟨⟨firstDay 41, .sendStarted () letterAgain⟩, List.mem_cons_self, rfl⟩ rfl).1
  · exact (hintegrity.1 resentState reachable_resentState.reachable enqueued_resentState () letterReclaimed
      ⟨⟨firstDay 1000, .sendStarted () letterReclaimed⟩, List.mem_cons_self, rfl⟩ rfl).1

end OxidRelay
