/-
The wiring of the relay (`run_relay`): the dispatcher over the transports
that the start built, and the routing that names them.

A mail whose transport was not built is never sent: it is dead, with one
attempt, once its delivery was tried (`unroutable_buried`). Where each
target of the routing has its transport no mail comes to that, and a dead
mail is one that was sent without success as often as attempts are allowed
(`dead_exhausted`).
-/
import Mathlib.Data.Fintype.EquivFin
import OxidRelay.Attempts
import OxidRelay.Plugins
import OxidRelay.Provenance
import OxidRelay.RetryTimes
import OxidRelay.Startup

namespace OxidRelay

open SqliteQueue

variable {τ : Type} {C : Codec} {X : Externals} {config : Config} {d : Dispatcher τ} {s s' : State τ} {now : DateTime}
  {u : MailId} {t t' : Track τ} {r : Row} {m : Mail} {mk : Mark} {routing : RoutingConfig}

/-! ## The dispatcher of run_relay -/

/-- The name of the default transport: the configured one, else SMTP's when that was built. -/
def defaultTransport (configured : Option String) (smtp : Option τ) : Option String :=
  configured.or (smtp.map fun _ => "smtp")

/-- `configured` is `mail.default_transport`; `smtp` and `plugins` are the transports that were built. -/
def relayDispatcher (config : Config) (configured : Option String) (smtp : Option τ) (plugins : List (String × τ)) :
    Dispatcher τ where
  transports := relayTransports smtp plugins
  defaultTransport := defaultTransport configured smtp
  config := dispatcherConfig config

/-- The transport that the mails for a target name. -/
def RouteTargetConfig.own (target : RouteTargetConfig) : Option String :=
  if target.transport = "" then none else some target.transport

/-- All rules of the routing. -/
def RoutingConfig.rules (routing : RoutingConfig) : List RouteRule :=
  routing.defaultRule.toList ++ routing.senders.entries.map Prod.snd

/-- Each target that the routing can give has its transport. -/
def Dispatcher.wired (d : Dispatcher τ) (routing : RoutingConfig) : Bool :=
  if routing.isActive then routing.rules.all fun rule => rule.listed.all fun target =>
    (d.transportFor target.own).isSome
  else (d.transportFor none).isSome

/-! ## When every target has its transport -/

theorem exists_new_sender (senders : List String) : ∃ sender, sender ∉ senders := by
  have hinf : Infinite String := Infinite.of_injective String.ofList fun a b h => by
    simpa using congrArg String.toList h
  obtain ⟨sender, hsender⟩ := Infinite.exists_notMem_finset senders.toFinset
  exact ⟨sender, fun h => hsender (List.mem_toFinset.2 h)⟩

/-- A rule is that of some sender. -/
theorem mem_rules_iff {rule : RouteRule} : rule ∈ routing.rules ↔ ∃ sender, EffectiveRule routing sender rule := by
  unfold RoutingConfig.rules
  rw [List.mem_append, Option.mem_toList, List.mem_map]
  refine ⟨fun h => ?_, fun h => ?_⟩
  · rcases h with hdefault | hown
    · obtain ⟨sender, hsender⟩ := exists_new_sender (routing.senders.entries.map Prod.fst)
      exact ⟨sender, .byDefault (fun rule hrule => hsender (List.mem_map_of_mem hrule)) hdefault⟩
    · obtain ⟨⟨sender, rule⟩, hmem, rfl⟩ := hown
      exact ⟨sender, .own hmem⟩
  · obtain ⟨sender, hrule⟩ := h
    cases hrule with
    | own hmem => exact .inr ⟨_, hmem, rfl⟩
    | byDefault _ hdefault => exact .inl hdefault

/-- **The check is exact.** -/
theorem Dispatcher.wired_iff (d : Dispatcher τ) : d.wired routing = true ↔
    ∀ sender W, Targets routing sender W → ∀ target ∈ W, (d.transportFor target.own).isSome = true := by
  unfold Dispatcher.wired
  by_cases hactive : routing.isActive = true
  · simp only [hactive, if_true, List.all_eq_true]
    refine ⟨fun h sender W hW target ht => ?_, fun h rule hrule target ht => ?_⟩
    · cases hW with
      | inactive hdefault hsenders =>
        rw [RoutingConfig.isActive_eq_false.2 ⟨hdefault, hsenders⟩] at hactive
        cases hactive
      | byRule hrule => exact h _ (mem_rules_iff.2 ⟨sender, hrule⟩) target ht
      | norule => cases ht
    · obtain ⟨sender, hrule⟩ := mem_rules_iff.1 hrule
      exact h sender _ (.byRule hrule) target ht
  · have hinactive : routing.isActive = false := by simpa using hactive
    obtain ⟨hdefault, hsenders⟩ := RoutingConfig.isActive_eq_false.1 hinactive
    rw [if_neg hactive]
    refine ⟨fun h sender W hW target ht => ?_, fun h => h "" _ (.inactive hdefault hsenders) _ List.mem_cons_self⟩
    cases hW with
    | inactive =>
      obtain rfl := List.mem_singleton.1 ht
      exact h
    | byRule hrule =>
      cases hrule with
      | own hmem => simp [hsenders] at hmem
      | byDefault _ hrule => simp [hdefault] at hrule
    | norule => cases ht

theorem Transaction.mailFor_transport (t : Transaction) (subject body : String) (a : Attempt)
    (target : RouteTargetConfig) : (t.mailFor subject body a target).transport = target.own := rfl

/-! ## Without a transport -/

/-- The error of a mail that names the transport `own`, or none. -/
def noTransportText (C : Codec) (d : Dispatcher τ) (own : Option String) : String :=
  "no transport available (requested " ++ Dispatcher.debugOption C own ++ ", default " ++
    Dispatcher.debugOption C d.defaultTransport ++ ")"

/-- A row whose transport is missing: untouched until it is dead, with one attempt. -/
structure Row.Unrouted (C : Codec) (d : Dispatcher τ) (r : Row) : Prop where
  status : r.status = "pending" ∨ r.status = "sending" ∨ r.status = "dead"
  untouched : r.status ≠ "dead" → r.attempts = 0 ∧ r.lastError = none
  dead : r.status = "dead" → r.attempts = 1 ∧ r.lastError = some (noTransportText C d r.transport)

/-- What is held of such a mail: it is not being sent, and its status write buries it. -/
structure Slot.Unrouted (C : Codec) (d : Dispatcher τ) (x : Slot τ) : Prop where
  idle : ∀ tr, x.phase ≠ .running (.sending tr)
  buries : ∀ mk, x.phase = .running (.marking mk) → mk = .dead (d.noTransportMessage C x.mail)

structure Track.Unrouted (C : Codec) (d : Dispatcher τ) (u : MailId) (t : Track τ) : Prop where
  absent : t.row = none → t.sends u = 0
  row : ∀ r, t.row = some r → d.transportFor r.transport = none →
    t.sends u = 0 ∧ r.Unrouted C d ∧ ∀ x, t.slot = some x → x.Unrouted C d

namespace Row.Unrouted

theorem sending (h : r.Unrouted C d) (hs : r.status ≠ "dead") :
    (setStatusRow now .sending none false none r).Unrouted C d :=
  ⟨.inr (.inl rfl), fun _ => ⟨by simpa [setStatusRow] using (h.untouched hs).1, rfl⟩,
    by simp [setStatusRow, statusToStr]⟩

theorem requeue (h : r.Unrouted C d) (hs : r.status = "sending") : (requeueRow now r).Unrouted C d :=
  ⟨.inl rfl, fun _ => h.untouched (by simp [hs]), by simp [requeueRow]⟩

theorem bury (h : r.Unrouted C d) (hs : r.status = "sending") {message : String}
    (hm : message = noTransportText C d r.transport) : ((Mark.dead message).row now r).Unrouted C d := by
  obtain ⟨hattempts, -⟩ := h.untouched (by simp [hs])
  have hdead : ((Mark.dead message).row now r).status = "dead" := rfl
  refine ⟨.inr (.inr hdead), fun hne => absurd hdead hne, fun _ => ⟨?_, congrArg some hm⟩⟩
  simp [Mark.row, setStatusRow, hattempts]

end Row.Unrouted

theorem Mark.row_transport (mk : Mark) (r : Row) : (mk.row now r).transport = r.transport := by
  cases mk <;> rfl

/-- A step that keeps the row and the number of sends. -/
theorem Track.Unrouted.keep (h : t.Unrouted C d u) (hr : t'.row = t.row) (hs : t'.sends u = t.sends u)
    (hx : ∀ r, t.row = some r → d.transportFor r.transport = none → ∀ x, t'.slot = some x → x.Unrouted C d) :
    t'.Unrouted C d u where
  absent hr' := hs ▸ h.absent (hr ▸ hr')
  row r hr' hnone := by
    rw [hr] at hr'
    obtain ⟨hsends, hrow, -⟩ := h.row r hr' hnone
    exact ⟨hs.trans hsends, hrow, hx r hr' hnone⟩

theorem Life.unrouted (hc : t.Coherent C u) (hu : t.Unrouted C d u) (h : Life C d u t now t')
    (hfresh : AllFresh t'.log) : t'.Unrouted C d u := by
  have sends_cons : ∀ {e : Event τ}, e.isSendOf u = false →
      count (Event.isSendOf u) (⟨now, e⟩ :: t.log) = t.sends u := fun he => by simp [he, Track.sends]
  cases h with
  | stay => exact hu
  | crashed | claimFailed => exact hu.keep rfl (sends_cons rfl) (by simp)
  | tickStarted hs => exact hu.keep rfl (sends_cons rfl) (by simp [hs])
  | joined => exact hu.keep rfl rfl (by simp)
  | enqueued hr hid =>
    obtain ⟨new, at_, hm⟩ := hfresh _ List.mem_cons_self _ rfl
    have h0 := hu.absent hr
    refine ⟨by simp, fun r hr' _ => ?_⟩
    cases hr'
    refine ⟨(sends_cons rfl).trans h0, ?_, fun x hx => ?_⟩
    · rw [hm]
      exact ⟨.inl rfl, fun _ => ⟨rfl, rfl⟩, by simp [mailToRow, Mail.fromNew, statusToStr]⟩
    · obtain ⟨-, r, hr', -⟩ := hc x hx
      cases hr.symm.trans hr'
  | requeued hr hst hs =>
    refine ⟨by simp, fun r hr' hnone => ?_⟩
    cases hr'
    obtain ⟨hsends, hrow, -⟩ := hu.row _ hr hnone
    exact ⟨(sends_cons rfl).trans hsends, hrow.requeue hst, by simp [hs]⟩
  | fetched =>
    refine hu.keep rfl (sends_cons rfl) fun r _ _ x hx => ?_
    cases hx
    exact ⟨by simp, by simp⟩
  | claimed hs hr =>
    obtain ⟨-, r', hr', hco⟩ := hc _ hs
    cases hr.symm.trans hr'
    refine ⟨by simp, fun r hr' hnone => ?_⟩
    cases hr'
    obtain ⟨hsends, hrow, -⟩ := hu.row _ hr hnone
    refine ⟨(sends_cons rfl).trans hsends,
      hrow.sending (by rcases (hco.fetched rfl).2 with h | h <;> simp [h]), fun x hx => ?_⟩
    cases hx
    exact ⟨by simp, by simp⟩
  | spawned | finished =>
    refine hu.keep rfl rfl fun r _ _ x hx => ?_
    cases hx
    exact ⟨by simp, by simp⟩
  | markFailed | panicked =>
    refine hu.keep rfl (sends_cons rfl) fun r _ _ x hx => ?_
    cases hx
    exact ⟨by simp, by simp⟩
  | noTransport =>
    refine hu.keep rfl rfl fun r _ _ x hx => ?_
    cases hx
    exact ⟨by simp, fun mk hmk => (Stage.marking.inj (Phase.running.inj hmk)).symm⟩
  | sendStarted hs htr =>
    -- the row names the transport that was found
    obtain ⟨-, r, hr, hco⟩ := hc _ hs
    refine ⟨fun hn => by simp [hr] at hn, fun r' hr' hnone => ?_⟩
    cases hr.symm.trans hr'
    rw [(hco.inFlight rfl).2.transport, htr] at hnone
    cases hnone
  | sendOk hs | sendErr hs _ | sendErrPanicked hs =>
    obtain ⟨-, r, hr, -⟩ := hc _ hs
    refine ⟨fun hn => by simp [hr] at hn, fun r' hr' hnone => ?_⟩
    obtain ⟨-, -, hslot⟩ := hu.row r' hr' hnone
    exact absurd rfl ((hslot _ hs).idle _)
  | marked hs hr =>
    obtain ⟨-, r', hr', hco⟩ := hc _ hs
    cases hr.symm.trans hr'
    obtain ⟨hst, hsnap⟩ := hco.inFlight rfl
    refine ⟨by simp, fun r'' hr'' hnone => ?_⟩
    obtain rfl := Option.some.inj hr''
    rw [Mark.row_transport] at hnone
    obtain ⟨hsends, hrow, hslot⟩ := hu.row _ hr hnone
    have hmk := (hslot _ hs).buries _ rfl
    refine ⟨(sends_cons rfl).trans hsends, ?_, fun x hx => ?_⟩
    · rw [hmk]
      exact hrow.bury hst (by rw [hsnap.transport]; rfl)
    · obtain rfl := Option.some.inj hx
      exact ⟨by simp, by simp⟩

theorem ReachableFromEmpty.unrouted (h : ReachableFromEmpty C d s) (hfresh : AllFresh s.log) (u : MailId) :
    (s.track C u).Unrouted C d u := by
  have hf : AllFresh (s.track C u).log := fun e he => hfresh e (List.mem_filter.1 he).1
  refine (h.invariant (I := fun t => t.Coherent C u ∧ (AllFresh t.log → t.Unrouted C d u)) ?_ ?_).2 hf
  · exact ⟨.initial none, fun _ => ⟨fun _ => rfl, by simp [Track.initial]⟩⟩
  · intro t now t' h hstep
    obtain ⟨hc, hu⟩ := h
    exact ⟨hstep.coherent hc, fun hf => hstep.unrouted hc (hu (hf.suffix hstep.log_suffix)) hf⟩

/-- **A mail without a transport is buried, not retried.** In every
reachable state, from an empty queue that only fresh mails entered: a row
whose transport is missing was never sent. It is pending or in flight
without an attempt or an error, or dead with one attempt, and then its
error names the transport it asked for and the default. -/
theorem unroutable_buried (h : ReachableFromEmpty C d s) (hfresh : AllFresh s.log) (hr : r ∈ s.table)
    (hnone : d.transportFor r.transport = none) :
    ∃ u, r.id = C.uuidText u ∧ count (Event.isSendOf u) s.log = 0 ∧ r.Unrouted C d := by
  obtain ⟨u, hu⟩ := h.reachable.exclusive.canonical r hr
  have hfind : s.table.find (C.uuidText u) = some r := hu ▸ Table.find_self hr
  obtain ⟨hsends, hrow, -⟩ := (h.unrouted hfresh u).row r hfind hnone
  rw [Track.sends, count_track fun _ => Event.about_of_isSendOf] at hsends
  exact ⟨u, hu, hsends, hrow⟩

/-- The stray mail of the run was dead at its first delivery. -/
theorem unroutable_buried_example : ∃ u, strayDead.id = textCodec.uuidText u ∧
    count (Event.isSendOf u) resentState.log = 0 ∧ strayDead.attempts = 1 ∧
    strayDead.lastError = some (noTransportText textCodec exampleDispatcher strayDead.transport) := by
  have hfresh : AllFresh resentState.log := by decide +kernel
  obtain ⟨u, hu, hsends, hrow⟩ := unroutable_buried reachable_resentState hfresh
    (r := strayDead) (by simp [resentState, Table.mem_def]) (by decide)
  exact ⟨u, hu, hsends, hrow.dead rfl⟩

/-! ## With a transport -/

/-- A failure comes directly after the end of a send that returned an error. -/
def Entry.Tried (u : MailId) (e : Entry τ) (earlier : List (Entry τ)) : Prop :=
  e.event.isFailureOf u = true → ∃ failed rest, earlier = ⟨failed, .sendEnded u false⟩ :: rest

theorem Entry.Tried.other {e : Event τ} {earlier : List (Entry τ)} (he : e.isFailureOf u = false) :
    Entry.Tried u ⟨now, e⟩ earlier := fun h => by rw [he] at h; cases h

theorem each_tried_of_none {log : List (Entry τ)} (h : count (Event.isFailureOf u) log = 0) :
    Each (Entry.Tried u) log := by
  induction log with
  | nil => trivial
  | cons e log ih =>
    rw [count_cons] at h
    refine ⟨fun he => ?_, ih (by omega)⟩
    simp [he] at h

/-- Each failure of a mail that has a transport is that of a send, and so is
the one that a status write in progress will record. -/
structure Track.Tried (d : Dispatcher τ) (u : MailId) (t : Track τ) : Prop where
  absent : t.row = none → t.failures u = 0
  entries : ∀ r, t.row = some r → (d.transportFor r.transport).isSome = true → Each (Entry.Tried u) t.log
  marking : ∀ r m mk, t.row = some r → (d.transportFor r.transport).isSome = true →
    t.slot = some ⟨m, .running (.marking mk)⟩ → mk.failures ≠ 0 →
    ∃ failed rest, t.log = ⟨failed, .sendEnded u false⟩ :: rest

/-- A step that records no failure, and after which none is to be recorded. -/
theorem Track.Tried.keep (h : t.Tried d u) (hn : t'.row = none → t.row = none)
    (hr : ∀ r', t'.row = some r' → ∃ r, t.row = some r ∧ r.transport = r'.transport)
    (hf : t'.failures u = t.failures u) (hlog : Each (Entry.Tried u) t.log → Each (Entry.Tried u) t'.log)
    (hslot : ∀ m mk, t'.slot = some ⟨m, .running (.marking mk)⟩ → mk.failures = 0) : t'.Tried d u where
  absent hr' := hf ▸ h.absent (hn hr')
  entries r' hr' htr := by
    obtain ⟨r, hrow, heq⟩ := hr r' hr'
    exact hlog (h.entries r hrow (heq ▸ htr))
  marking r' m mk _ _ hs hmk := absurd (hslot m mk hs) hmk

theorem Life.tried (hc : t.Coherent C u) (ht : t.Tried d u) (h : Life C d u t now t') : t'.Tried d u := by
  have failures_cons : ∀ {e : Event τ}, e.isFailureOf u = false →
      count (Event.isFailureOf u) (⟨now, e⟩ :: t.log) = t.failures u := fun he => by simp [he, Track.failures]
  cases h with
  | stay => exact ht
  | crashed | claimFailed | fetched | sendStarted | markFailed | panicked =>
    exact ht.keep id (fun r hr => ⟨r, hr, rfl⟩) (failures_cons rfl) (fun h => ⟨.other rfl, h⟩) (by simp)
  | tickStarted hs =>
    exact ht.keep id (fun r hr => ⟨r, hr, rfl⟩) (failures_cons rfl) (fun h => ⟨.other rfl, h⟩) (by simp [hs])
  | spawned | finished | joined => exact ht.keep id (fun r hr => ⟨r, hr, rfl⟩) rfl id (by simp)
  | sendOk =>
    refine ht.keep id (fun r hr => ⟨r, hr, rfl⟩) (failures_cons rfl) (fun h => ⟨.other rfl, h⟩) fun m mk hs => ?_
    cases hs
    rfl
  | sendErrPanicked =>
    exact ht.keep id (fun r hr => ⟨r, hr, rfl⟩) (by simp [Track.failures, Event.isFailureOf])
      (fun h => ⟨.other rfl, .other rfl, h⟩) (by simp)
  | enqueued hr _ =>
    refine ⟨by simp, fun r _ _ => ⟨.other rfl, each_tried_of_none (ht.absent hr)⟩, fun r m mk _ _ hs _ => ?_⟩
    obtain ⟨-, r, hr', -⟩ := hc _ hs
    cases hr.symm.trans hr'
  | requeued hr _ hs =>
    refine ht.keep (by simp) (fun r' hr' => ?_) (failures_cons rfl) (fun h => ⟨.other rfl, h⟩) (by simp [hs])
    cases hr'
    exact ⟨_, hr, rfl⟩
  | claimed hs hr =>
    refine ht.keep (by simp) (fun r' hr' => ?_) (failures_cons rfl) (fun h => ⟨.other rfl, h⟩) (by simp)
    cases hr'
    exact ⟨_, hr, rfl⟩
  | noTransport hs hnone =>
    refine ⟨ht.absent, ht.entries, fun r m mk hr htr _ _ => ?_⟩
    obtain ⟨-, r', hr', hco⟩ := hc _ hs
    cases hr.symm.trans hr'
    rw [(hco.inFlight rfl).2.transport, hnone] at htr
    cases htr
  | sendErr =>
    exact ⟨fun hr => (failures_cons rfl).trans (ht.absent hr), fun r hr htr => ⟨.other rfl, ht.entries r hr htr⟩,
      fun _ _ _ _ _ _ _ => ⟨_, _, rfl⟩⟩
  | marked hs hr =>
    rename_i r m mk
    have htransport : ∀ r', some (mk.row now r) = some r' → r'.transport = r.transport := fun r' hr' => by
      cases hr'
      exact mk.row_transport r
    refine ⟨by simp, fun r' hr' htr => ⟨fun hf => ?_, ht.entries r hr (htransport r' hr' ▸ htr)⟩, by simp⟩
    refine ht.marking r m mk hr (htransport r' hr' ▸ htr) hs ?_
    cases mk <;> simp [Event.isFailureOf, Mark.failures] at hf ⊢

theorem ReachableFromEmpty.tried (h : ReachableFromEmpty C d s) (u : MailId) : (s.track C u).Tried d u := by
  refine (h.invariant (I := fun t => t.Coherent C u ∧ t.Tried d u) ?_ ?_).2
  · exact ⟨.initial none, fun _ => rfl, by simp [Track.initial], by simp [Track.initial]⟩
  · intro t now t' h hstep
    obtain ⟨hc, ht⟩ := h
    exact ⟨hstep.coherent hc, hstep.tried hc ht⟩

/-- The send that a failure of the log is that of; nothing about the mail
is between them. -/
def FailedSend (C : Codec) (u : MailId) (earlier : List (Entry τ)) : Prop :=
  ∃ between failed rest, earlier = between ++ ⟨failed, .sendEnded u false⟩ :: rest ∧
    ∀ e ∈ between, e.event.about C u = false

theorem ReachableFromEmpty.failed_send (h : ReachableFromEmpty C d s) (hr : s.table.find (C.uuidText u) = some r)
    (htr : (d.transportFor r.transport).isSome = true) {later earlier : List (Entry τ)} {e : Entry τ}
    (hlog : s.log = later ++ e :: earlier) (he : e.event.isFailureOf u = true) : FailedSend C u earlier := by
  have hentries := (h.tried u).entries r hr htr
  have habout : e.event.about C u = true := Event.about_of_isFailureOf he
  rw [State.track, hlog, filter_around (Event.about C u) habout] at hentries
  obtain ⟨failed, rest, hfilter⟩ := hentries.at he
  obtain ⟨between, rest, rfl, hbetween, -, -⟩ := List.filter_eq_cons_iff.1 hfilter
  exact ⟨between, failed, rest, rfl, fun e he => by simpa using hbetween e he⟩

/-- **Where every target has its transport, dead means exhausted.** Suppose
the configuration is valid and its routing is wired to the transports that
the start built. Then in every reachable state of the relay each row has
its transport, each failure recorded of its mail is that of a send which
had returned an error just before, and a dead one has failed as often as
attempts are allowed. -/
theorem dead_exhausted {configured : Option String} {smtp : Option τ} {plugins : List (String × τ)}
    {relay : Relay τ} (hv : config.validate = .ok ())
    (hwired : (relayDispatcher config configured smtp plugins).wired config.routing = true)
    (hr : Relay.Reachable C X config (relayDispatcher config configured smtp plugins) relay)
    (hrow : r ∈ relay.state.table) :
    ((relayDispatcher config configured smtp plugins).transportFor r.transport).isSome = true ∧
    ∃ u, r.id = C.uuidText u ∧
      (∀ later e earlier, relay.state.log = later ++ e :: earlier → e.event.isFailureOf u = true →
        FailedSend C u earlier) ∧
      (r.status = "dead" →
        count (Event.isFailureOf u) relay.state.log = config.dispatcher.maxAttempts.toNat) := by
  have hs := hr.sound
  have hmax : 1 ≤ (relayDispatcher config configured smtp plugins).maxAttempts := by
    have hpos := (Config.validate_ok hv).2
    show 1 ≤ config.dispatcher.maxAttempts.toNat
    have : config.dispatcher.maxAttempts.toNat ≠ 0 := fun h0 => hpos (UInt32.toNat_inj.1 h0)
    omega
  have htr : ((relayDispatcher config configured smtp plugins).transportFor r.transport).isSome = true := by
    obtain ⟨mail, henq, -, hsame⟩ := hs.queue.enqueued_of_row hrow
    obtain ⟨sub, -, -, hadmitted⟩ := hs.submitted_by henq
    obtain ⟨parsed, W, target, -, hW, hmem, hmail⟩ := hadmitted.called
    rw [hsame.transport, mailToRow, hmail, Transaction.mailFor_transport]
    exact (Dispatcher.wired_iff _).1 hwired _ W hW target hmem
  obtain ⟨u, hu⟩ := hs.queue.reachable.exclusive.canonical r hrow
  have hfind : relay.state.table.find (C.uuidText u) = some r := hu ▸ Table.find_self hrow
  refine ⟨htr, u, hu, fun later e earlier hlog he => hs.queue.failed_send hfind htr hlog he, fun hdead => ?_⟩
  have hlife := (hs.queue.lifecycle hmax hs.fresh u).row r hfind
  rw [Track.failures, count_track fun _ => Event.about_of_isFailureOf] at hlife
  refine ((hlife.dead hdead).2.2).resolve_right fun hnone => ?_
  rw [hnone] at htr
  cases htr

/-- The mail whose only send failed. -/
theorem dead_exhausted_example : ∃ r : Relay Unit, r.state = relayState ∧
    ∃ u, deadRow.id = textCodec.uuidText u ∧ count (Event.isFailureOf u) relayState.log = 1 ∧
      FailedSend textCodec u (relayState.log.drop 1) := by
  have hwired : relayDispatcher onceConfig none (some ()) [] = onceDispatcher := rfl
  obtain ⟨relay, hr, hstate, -⟩ := exists_relayed
  rw [← hwired] at hr
  obtain ⟨-, u, hu, hsends, hdead⟩ := dead_exhausted (by decide) (by decide) hr
    (r := deadRow) (by simp [hstate, relayState, Table.mem_def])
  rw [hstate] at hsends hdead
  have hone : u = ⟨1⟩ := textCodec.uuidText_inj.1 (hu.symm.trans rfl)
  subst hone
  exact ⟨relay, hstate, _, hu, hdead rfl, hsends [] _ _ rfl rfl⟩

end OxidRelay
