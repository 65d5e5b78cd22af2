/-
What a mail is sent twice for, and what a row is left `sending` for. Both
take a loss: the process crashed, the delivery panicked, or the status
write that should have followed failed. A mail that a send has answered Ok
for is sent again only after such a loss and, later, a requeue
(`resend_explained`); a row that is `sending` while its mail is not in
flight has met one since it was last claimed (`orphan_explained`).

Both are kept since an event, the Ok or the claim: `Track.After` and
`Track.Held` speak of a track and of the entries since.
-/
import OxidRelay.Attempts
import OxidRelay.RetryTimes

namespace OxidRelay

open SqliteQueue

variable {τ : Type} {C : Codec} {d : Dispatcher τ} {s s' : State τ} {now : DateTime} {u : MailId} {t t' : Track τ}
  {l : List (Entry τ)} {e : Event τ} {x y : Entry τ}

/-! ## Losses -/

/-- What can keep the outcome of a delivery from its row. -/
def Event.isLossOf (u : MailId) : Event τ → Bool
  | .crashed => true
  | .markFailed v | .panicked v => v = u
  | _ => false

def Lost (u : MailId) (l : List (Entry τ)) : Prop := ∃ x ∈ l, x.event.isLossOf u = true

/-- A loss, and a requeue after it; the log has the newest entry first. -/
def Redone (C : Codec) (u : MailId) (l : List (Entry τ)) : Prop :=
  ∃ q x, List.Sublist [q, x] l ∧ q.event = .requeued (C.uuidText u) ∧ x.event.isLossOf u = true

theorem Lost.cons (h : Lost u l) (x : Entry τ) : Lost u (x :: l) := by
  obtain ⟨y, hy, hloss⟩ := h
  exact ⟨y, List.mem_cons_of_mem x hy, hloss⟩

theorem Lost.requeued (h : Lost u l) (hx : x.event = .requeued (C.uuidText u)) : Redone C u (x :: l) := by
  obtain ⟨y, hy, hloss⟩ := h
  exact ⟨x, y, (List.singleton_sublist.2 hy).cons_cons x, hx, hloss⟩

theorem Redone.mono {l' : List (Entry τ)} (h : Redone C u l) (hl : List.Sublist l l') : Redone C u l' := by
  obtain ⟨q, x, hsub, hq, hloss⟩ := h
  exact ⟨q, x, hsub.trans hl, hq, hloss⟩

/-- Of the slot, that the mail is neither fetched nor in flight. -/
def Track.Unheld (t : Track τ) : Prop := ∀ x, t.slot = some x → (x.phase.isFetched || x.phase.inFlight) = false

/-! ## Since a send that returned Ok -/

/-- How a mail stands, and what happened, since a send of it returned Ok. -/
inductive Track.After (C : Codec) (u : MailId) (t : Track τ) (l : List (Entry τ)) : Prop
  | delivered : t.delivered → t.After C u l
  | orphaned : Lost u l → t.row = some r → r.status = "sending" → t.Unheld → t.After C u l
  | redone : Redone C u l → t.After C u l

/-- What a step does to the row and the slot that an orphan has. -/
theorem Life.orphaned (hrow : t.row = some r) (hst : r.status = "sending") (hfree : t.Unheld) (hlost : Lost u l)
    (h : Life C d u t now t') : ∃ new, t'.log = new ++ t.log ∧ t'.After C u (new ++ l) := by
  have held {x : Slot τ} (hx : t.slot = some x) (hp : (x.phase.isFetched || x.phase.inFlight) = true) : False := by
    rw [hfree x hx] at hp
    cases hp
  cases h with
  | stay => exact ⟨[], rfl, .orphaned hlost hrow hst hfree⟩
  | crashed => exact ⟨[_], rfl, .orphaned (hlost.cons _) hrow hst fun x hx => by cases hx⟩
  | tickStarted => exact ⟨[_], rfl, .orphaned (hlost.cons _) hrow hst hfree⟩
  | enqueued hr _ =>
    rw [hr] at hrow
    cases hrow
  | requeued => exact ⟨[_], rfl, .redone (hlost.requeued rfl)⟩
  | fetched hr _ hdue =>
    obtain rfl := Option.some.inj (hrow.symm.trans hr)
    simp [isDue, hst] at hdue
  | claimed hx | claimFailed hx | spawned hx | sendStarted hx | noTransport hx | sendOk hx | sendErr hx
  | sendErrPanicked hx | marked hx | markFailed hx => exact (held hx rfl).elim
  | finished hx =>
    refine ⟨[], rfl, .orphaned hlost hrow hst fun x hx => ?_⟩
    cases hx
    rfl
  | panicked hx =>
    refine ⟨[_], rfl, .orphaned (hlost.cons _) hrow hst fun x hx => ?_⟩
    cases hx
    rfl
  | joined => exact ⟨[], rfl, .orphaned hlost hrow hst fun x hx => by cases hx⟩

/-- What a step does to a mail that was delivered. -/
theorem Life.delivered (hc : t.Coherent C u) (hd : t.delivered) (h : Life C d u t now t') :
    ∃ new, t'.log = new ++ t.log ∧ t'.After C u (new ++ l) := by
  rcases hd with ⟨m, hm⟩ | ⟨r, hr, hst⟩
  · -- its `mark_sent` is due
    obtain ⟨-, r, hr, hco⟩ := hc _ hm
    have hst := (hco.inFlight rfl).1
    have other {x : Slot τ} (hx : t.slot = some x) (hne : x ≠ ⟨m, .running (.marking .sent)⟩) : False :=
      hne (Option.some.inj (hx.symm.trans hm))
    have none (hx : t.slot = none) : False := by rw [hx] at hm; cases hm
    cases h with
    | stay => exact ⟨[], rfl, .delivered (.inl ⟨m, hm⟩)⟩
    | crashed => exact ⟨[_], rfl, .orphaned ⟨_, List.mem_cons_self, rfl⟩ hr hst fun x hx => by cases hx⟩
    | tickStarted hx | requeued _ _ hx | fetched _ hx => exact (none hx).elim
    | enqueued hr' _ =>
      rw [hr'] at hr
      cases hr
    | claimed hx | claimFailed hx | spawned hx | sendStarted hx | noTransport hx | sendOk hx | sendErr hx
    | sendErrPanicked hx | finished hx | joined hx => exact (other hx (by simp)).elim
    | marked hx hr' =>
      obtain ⟨rfl, hmk⟩ := Slot.mk.inj (Option.some.inj (hx.symm.trans hm))
      cases hmk
      exact ⟨[_], rfl, .delivered (.inr ⟨_, rfl, rfl⟩)⟩
    | markFailed =>
      refine ⟨[_], rfl, .orphaned ⟨_, List.mem_cons_self, by simp [Event.isLossOf]⟩ hr hst fun x hx => ?_⟩
      cases hx
      rfl
    | panicked =>
      refine ⟨[_], rfl, .orphaned ⟨_, List.mem_cons_self, by simp [Event.isLossOf]⟩ hr hst fun x hx => ?_⟩
      cases hx
      rfl
  · have held {x : Slot τ} (hx : t.slot = some x) (hp : (x.phase.isFetched || x.phase.inFlight) = true) : False :=
      hc.not_final hx hp hr (.inl hst)
    cases h with
    | stay | finished | joined => exact ⟨[], rfl, .delivered (.inr ⟨r, hr, hst⟩)⟩
    | crashed | tickStarted | panicked => exact ⟨[_], rfl, .delivered (.inr ⟨r, hr, hst⟩)⟩
    | enqueued hr' _ =>
      rw [hr'] at hr
      cases hr
    | requeued hr' hst' | fetched hr' =>
      obtain rfl := Option.some.inj (hr.symm.trans hr')
      simp_all [isDue]
    | claimed hx | claimFailed hx | spawned hx | sendStarted hx | noTransport hx | sendOk hx | sendErr hx
    | sendErrPanicked hx | marked hx | markFailed hx => exact (held hx rfl).elim

theorem Track.After.keep (hc : t.Coherent C u) (ha : t.After C u l) (h : Life C d u t now t') :
    ∃ new, t'.log = new ++ t.log ∧ t'.After C u (new ++ l) := by
  cases ha with
  | delivered hd => exact h.delivered hc hd
  | orphaned hlost hrow hst hfree => exact h.orphaned hrow hst hfree hlost
  | redone hredone =>
    obtain ⟨new, hnew⟩ := h.log_suffix
    exact ⟨new, hnew.symm, .redone (hredone.mono (List.sublist_append_right new l))⟩

/-- What an event that a step adds to the log says of the step. -/
theorem Life.made (h : Life C d u t now t') {c : List (Entry τ)} (hlog : t'.log = l ++ x :: c ++ t.log) :
    (x.event = .sendEnded u true → t'.delivered) ∧
    (x.event.isSendOf u = true → c = [] ∧ ∃ m, t.slot = some ⟨m, .running .spawned⟩) ∧
    (x.event = .claimed u → ∃ r m, t'.row = some r ∧ t'.slot = some ⟨m, .claimed⟩) := by
  have cancel (new : List (Entry τ)) (h : new ++ t.log = l ++ x :: c ++ t.log) : new = l ++ x :: c :=
    List.append_cancel_right h
  have single {y : Entry τ} (h : y :: t.log = l ++ x :: c ++ t.log) : y = x ∧ c = [] := by
    have hone := List.append_eq_singleton_iff.1 (cancel [y] h).symm
    simp only [List.cons_ne_nil, and_false, or_false, List.cons.injEq] at hone
    exact ⟨hone.2.1.symm, hone.2.2⟩
  cases h with
  | stay | spawned | noTransport | finished | joined =>
    have hnil := cancel [] hlog
    simp at hnil
  | sendOk =>
    obtain ⟨rfl, -⟩ := single hlog
    exact ⟨fun _ => .inl ⟨_, rfl⟩, nofun, nofun⟩
  | sendStarted hx =>
    obtain ⟨rfl, hnil⟩ := single hlog
    exact ⟨nofun, fun _ => ⟨hnil, _, hx⟩, nofun⟩
  | claimed =>
    obtain ⟨rfl, -⟩ := single hlog
    exact ⟨nofun, nofun, fun _ => ⟨_, _, rfl, rfl⟩⟩
  | sendErrPanicked =>
    have hx : x ∈ [⟨now, .panicked u⟩, ⟨now, .sendEnded u false⟩] := by rw [cancel [_, _] hlog]; simp
    rcases List.mem_cons.1 hx with rfl | hx
    · exact ⟨nofun, nofun, nofun⟩
    · obtain rfl := List.mem_singleton.1 hx
      exact ⟨nofun, nofun, nofun⟩
  | _ =>
    obtain ⟨rfl, -⟩ := single hlog
    exact ⟨nofun, nofun, nofun⟩

/-- While the delivery of a mail is under way it is not delivered, nor an orphan. -/
theorem Track.After.of_running (hc : t.Coherent C u) {m : Mail} (hx : t.slot = some ⟨m, .running .spawned⟩)
    (ha : t.After C u l) : Redone C u l := by
  cases ha with
  | delivered hd => exact absurd hd (hc.not_delivered hx rfl (by simp))
  | orphaned _ _ _ hfree =>
    have := hfree _ hx
    cases this
  | redone h => exact h

/-- The tracks that a life from `row` comes to. -/
abbrev Lived (C : Codec) (d : Dispatcher τ) (u : MailId) (row : Option Row) : Track τ → Prop :=
  Lives C d u (.initial row)

theorem Lived.coherent {row : Option Row} (h : Lived C d u row t) : t.Coherent C u :=
  Run.invariant (fun hc ⟨_, hl⟩ => hl.coherent hc) (.initial row) h

theorem Lived.after {row : Option Row} (h : Lived C d u row t) :
    ∀ l x c, t.log = l ++ x :: c → x.event = .sendEnded u true → t.After C u l :=
  Run.since (I := fun t => t.Coherent C u) (fun hc ⟨_, hl⟩ => hl.coherent hc) (fun ⟨_, hl⟩ => hl.log_suffix)
    (fun hc ⟨_, hl⟩ ha => ha.keep hc hl) (fun _ ⟨_, hl⟩ hlog hok => .delivered ((hl.made hlog).1 hok))
    (.initial row) rfl h

/-- Below each send, every Ok is followed by a loss and a requeue. -/
theorem Lived.redone {row : Option Row} (h : Lived C d u row t) :
    ∀ a x c, t.log = a ++ x :: c → x.event.isSendOf u = true →
      ∀ b y c', c = b ++ y :: c' → y.event = .sendEnded u true → Redone C u b := by
  refine Run.below (I := Lived C d u row) (fun ht hl => ht.tail hl) (fun ⟨_, hl⟩ => hl.log_suffix) ?_ .refl rfl h
  intro t t' a x c ht hl hlog hx b y c' hb hy
  obtain ⟨now, hl⟩ := hl
  obtain ⟨rfl, m, hm⟩ := (hl.made hlog).2.1 hx
  exact (ht.after b y c' hb hy).of_running ht.coherent hm

/-- **A mail that was delivered is sent again only after a loss and a
requeue.** In every run, between a send of a mail that returned Ok and any
later send of it, the process crashed, the delivery panicked or the status
write failed, and after that its row was requeued. -/
theorem resend_explained (h : Reachable C d s) {a b c : List (Entry τ)} (hlog : s.log = a ++ x :: (b ++ y :: c))
    (hx : x.event.isSendOf u = true) (hy : y.event = .sendEnded u true) : Redone C u b := by
  obtain ⟨T, hT, hs⟩ := h
  have hlived : Lived C d u (T.find (C.uuidText u)) (s.track C u) := Steps.lives (.initial hT) hs u
  have hyabout : y.event.about C u = true := Event.about_of_isOkOf (Event.isOkOf_iff.2 hy)
  have htrack : (s.track C u).log = a.filter (fun e => e.event.about C u) ++
      x :: (b.filter (fun e => e.event.about C u) ++ y :: c.filter fun e => e.event.about C u) := by
    simp only [State.track, hlog, List.filter_append, List.filter_cons, Event.about_of_isSendOf hx, hyabout, if_true]
  exact (hlived.redone _ x _ htrack hx _ y _ rfl hy).mono List.filter_sublist

/-! ## Since a claim -/

/-- A row that is `sending` is that of a mail in flight, or there was a loss. -/
def Track.Held (u : MailId) (t : Track τ) (l : List (Entry τ)) : Prop :=
  ∃ r, t.row = some r ∧
    (r.status = "sending" → (∃ x, t.slot = some x ∧ x.phase.inFlight = true) ∨ Lost u l)

theorem Life.held_of_held (hc : t.Coherent C u) (hh : t.Held u l) (h : Life C d u t now t') :
    ∃ new, t'.log = new ++ t.log ∧ t'.Held u (new ++ l) := by
  obtain ⟨r, hr, hex⟩ := hh
  have lost {new : List (Entry τ)} (hlost : Lost u new) (hrow : t'.row = some r) : t'.Held u (new ++ l) := by
    obtain ⟨y, hy, hloss⟩ := hlost
    exact ⟨r, hrow, fun _ => .inr ⟨y, List.mem_append_left l hy, hloss⟩⟩
  have keep (new : List (Entry τ)) (hrow : t'.row = t.row) (hslot : ∀ x, t.slot = some x → x.phase.inFlight = true →
      ∃ x', t'.slot = some x' ∧ x'.phase.inFlight = true) : t'.Held u (new ++ l) := by
    refine ⟨r, hrow.trans hr, fun hst => ?_⟩
    rcases hex hst with ⟨x, hx, hp⟩ | ⟨y, hy, hloss⟩
    · exact .inl (hslot x hx hp)
    · exact .inr ⟨y, List.mem_append_right new hy, hloss⟩
  have landed {m : Mail} {stage : Stage τ} (hx : t.slot = some ⟨m, .running stage⟩)
      (hp : (Phase.running stage).inFlight = false) (x : Slot τ) (hx' : t.slot = some x)
      (hp' : x.phase.inFlight = true) : False := by
    obtain rfl := Option.some.inj (hx.symm.trans hx')
    rw [hp] at hp'
    cases hp'
  cases h with
  | stay => exact ⟨[], rfl, r, hr, hex⟩
  | crashed => exact ⟨[_], rfl, lost ⟨_, List.mem_cons_self, rfl⟩ hr⟩
  | sendErrPanicked => exact ⟨[_, _], rfl, lost ⟨_, List.mem_cons_self, by simp [Event.isLossOf]⟩ hr⟩
  | markFailed | panicked => exact ⟨[_], rfl, lost ⟨_, List.mem_cons_self, by simp [Event.isLossOf]⟩ hr⟩
  | tickStarted hx => exact ⟨[_], rfl, keep [_] rfl fun x hx' => by rw [hx] at hx'; cases hx'⟩
  | enqueued hr' _ =>
    rw [hr'] at hr
    cases hr
  | requeued => exact ⟨[_], rfl, _, rfl, fun hst => by simp [requeueRow] at hst⟩
  | fetched hr' _ hdue =>
    obtain rfl := Option.some.inj (hr.symm.trans hr')
    refine ⟨[_], rfl, r, hr, fun hst => ?_⟩
    simp [isDue, hst] at hdue
  | claimed => exact ⟨[_], rfl, _, rfl, fun _ => .inl ⟨_, rfl, rfl⟩⟩
  | claimFailed hx =>
    obtain ⟨-, r', hr', hco⟩ := hc _ hx
    obtain rfl := Option.some.inj (hr.symm.trans hr')
    refine ⟨[_], rfl, r, hr, fun hst => ?_⟩
    simpa [hst] using (hco.fetched rfl).2
  | spawned | noTransport => exact ⟨[], rfl, keep [] rfl fun _ _ _ => ⟨_, rfl, rfl⟩⟩
  | sendStarted | sendOk | sendErr => exact ⟨[_], rfl, keep [_] rfl fun _ _ _ => ⟨_, rfl, rfl⟩⟩
  | marked hx hr' =>
    rename_i mk
    refine ⟨[_], rfl, _, rfl, fun hst => ?_⟩
    cases mk <;> simp [Mark.row, setStatusRow, statusToStr] at hst
  | finished hx | joined hx => exact ⟨[], rfl, keep [] rfl fun x hx' hp => (landed hx rfl x hx' hp).elim⟩

theorem Lived.held {row : Option Row} (h : Lived C d u row t) :
    ∀ l x c, t.log = l ++ x :: c → x.event = .claimed u → t.Held u l := by
  refine Run.since (I := fun t => t.Coherent C u) (fun hc ⟨_, hl⟩ => hl.coherent hc) (fun ⟨_, hl⟩ => hl.log_suffix)
    (fun hc ⟨_, hl⟩ hh => hl.held_of_held hc hh) ?_ (.initial row) rfl h
  intro t t' l x c _ hl hlog hx
  obtain ⟨now, hl⟩ := hl
  obtain ⟨r, m, hr, hm⟩ := (hl.made hlog).2.2 hx
  exact ⟨r, hr, fun _ => .inl ⟨_, hm, rfl⟩⟩

/-- **A row is left `sending` only by a loss.** In every run, the row of a
mail that was claimed is there, and when it is `sending` the mail is in
flight, or since that claim the process crashed, the delivery panicked or
its status write failed. Between two batches, as when the relay is shut
down, nothing is in flight. -/
theorem orphan_explained (h : Reachable C d s) {a b : List (Entry τ)} (hlog : s.log = a ++ x :: b)
    (hx : x.event = .claimed u) :
    ∃ r, s.table.find (C.uuidText u) = some r ∧ (r.status = "sending" →
      (∃ y ∈ s.slots, y.id = u ∧ y.phase.inFlight = true ∧ s.control.inBatch = true) ∨ Lost u a) := by
  have hexcl := h.exclusive
  obtain ⟨T, hT, hs⟩ := h
  have hlived : Lived C d u (T.find (C.uuidText u)) (s.track C u) := Steps.lives (.initial hT) hs u
  have hxabout : x.event.about C u = true := by rw [hx]; simp [Event.about]
  have htrack : (s.track C u).log = a.filter (fun e => e.event.about C u) ++
      x :: b.filter fun e => e.event.about C u := by
    simp only [State.track, hlog, List.filter_append, List.filter_cons, hxabout, if_true]
  obtain ⟨r, hr, hex⟩ := hlived.held _ x _ htrack hx
  refine ⟨r, hr, fun hst => ?_⟩
  rcases hex hst with ⟨y, hy, hp⟩ | ⟨y, hy, hloss⟩
  · have hslot := (Keyed.get_eq_some hexcl.nodup).1 hy
    refine .inl ⟨y, hslot.1, hslot.2, hp, ?_⟩
    by_contra hbatch
    rw [hexcl.no_slots (by simpa using hbatch)] at hslot
    cases hslot.1
  · exact .inr ⟨y, (List.mem_filter.1 hy).1, hloss⟩

/-! ## A run -/

/-- The process crashed when the mail was sent and its row not yet marked. -/
def crashedState : State Unit where
  table := ⟨[setStatusRow default .sending none false none (mailToRow textCodec exampleMail)], List.nodup_singleton _⟩
  control := .down
  tasks := []
  permits := 7
  pollElapsed := false
  log := [⟨default, .crashed⟩, ⟨default, .sendEnded ⟨0⟩ true⟩, ⟨default, .sendStarted () exampleMail⟩,
    ⟨default, .claimed ⟨0⟩⟩, ⟨default, .fetched exampleMail⟩, ⟨default, .tickStarted⟩,
    ⟨default, .enqueued exampleMail⟩, ⟨default, .started⟩]

theorem run_crashedState : (State.initial Table.empty).run textCodec exampleDispatcher
    (scriptAt default [.start, .enqueue exampleMail, .recover false, .tick, .reclaim false, .fetch id, .claim true,
      .spawn, .deliver 0, .sendOk 0, .crash]) = some crashedState := by
  decide +kernel

theorem reachable_crashedState : ReachableFromEmpty textCodec exampleDispatcher crashedState :=
  Steps.of_run run_crashedState

theorem orphan_explained_example :
    Lost ⟨0⟩ [(⟨default, .crashed⟩ : Entry Unit), ⟨default, .sendEnded ⟨0⟩ true⟩,
      ⟨default, .sendStarted () exampleMail⟩] := by
  obtain ⟨r, hr, hex⟩ := orphan_explained (u := ⟨0⟩) (x := ⟨default, .claimed ⟨0⟩⟩)
    reachable_crashedState.reachable (a := [_, _, _]) rfl rfl
  obtain rfl := List.mem_singleton.1 (Table.find_eq_some.1 hr).1
  rcases hex rfl with ⟨y, hy, -⟩ | hlost
  · cases hy
  · exact hlost

/-- The next process sends the mail again. -/
def sentAgainState : State Unit :=
  { crashedState with
    control := .claiming []
    tasks := [⟨exampleMail, .sending ()⟩]
    log := [⟨default, .sendStarted () exampleMail⟩, ⟨default, .claimed ⟨0⟩⟩, ⟨default, .fetched exampleMail⟩,
      ⟨default, .tickStarted⟩, ⟨default, .requeued (textCodec.uuidText ⟨0⟩)⟩, ⟨default, .started⟩] ++
      crashedState.log }

theorem run_sentAgainState : crashedState.run textCodec exampleDispatcher
    (scriptAt default [.start, .recover true, .tick, .reclaim false, .fetch id, .claim true, .spawn, .deliver 0]) =
    some sentAgainState := by
  decide +kernel

theorem resend_explained_example :
    Redone textCodec ⟨0⟩ [(⟨default, .claimed ⟨0⟩⟩ : Entry Unit), ⟨default, .fetched exampleMail⟩,
      ⟨default, .tickStarted⟩, ⟨default, .requeued (textCodec.uuidText ⟨0⟩)⟩, ⟨default, .started⟩,
      ⟨default, .crashed⟩] := by
  have hreach : ReachableFromEmpty textCodec exampleDispatcher sentAgainState :=
    reachable_crashedState.trans (Steps.of_run run_sentAgainState)
  exact resend_explained hreach.reachable (x := ⟨default, .sendStarted () exampleMail⟩)
    (y := ⟨default, .sendEnded ⟨0⟩ true⟩) (a := []) rfl rfl rfl

end OxidRelay
