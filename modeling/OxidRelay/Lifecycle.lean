/-
The lifecycle of a queued mail under the dispatcher.

`Track.Coherent` relates what the dispatcher holds to the row: until its
batch is claimed a mail is held as its row decodes, and from its claim to
the status write of its delivery the row is `sending` and the snapshot
still has its content and its attempts. That needs no assumption on the
runs, and it already makes `sent` and `dead` final.

`Lifecycle` adds the attempts: they are the failures recorded for the
row, below the limit unless it is `dead`. It holds from an empty queue
that only fresh mails enter.
-/
import OxidRelay.Exec
import OxidRelay.Life
import OxidRelay.TextCodec

namespace OxidRelay

open SqliteQueue

variable {τ : Type} {C : Codec} {d : Dispatcher τ} {s s' : State τ} {now : DateTime} {u : MailId} {t t' : Track τ}

/-! ## Snapshots -/

/-- The content a mail and a row have in common. -/
structure Carries (C : Codec) (m : Mail) (r : Row) : Prop where
  parseSender : C.parseAddress r.sender = .ok m.fromAddr
  parseRecipients : C.parseAddresses r.recipients = .ok m.toAddrs
  parseId : C.parseUuid r.id = .ok m.id
  subject : r.subject = m.subject
  body : r.body = m.body
  transport : r.transport = m.transport
  parseCreated : parseTime C r.createdAt = .ok m.createdAt

/-- What a mail held for delivery and its row have in common. -/
structure Snapshot (C : Codec) (m : Mail) (r : Row) : Prop extends Carries C m r where
  attempts : asU32 r.attempts = m.attempts

theorem RowOf.snapshot {m : Mail} {r : Row} (h : RowOf C m r) : Snapshot C m r :=
  ⟨⟨h.parseSender, h.parseRecipients, h.parseId, h.subject, h.body, h.transport, h.parseCreated⟩, h.attempts⟩

theorem Snapshot.setStatusRow {m : Mail} {r : Row} (h : Snapshot C m r) {now status err next} :
    Snapshot C m (SqliteQueue.setStatusRow now status err false next r) :=
  { h with attempts := by simpa [SqliteQueue.setStatusRow] using h.attempts }

/-! ## Coherence -/

/-- From the claim of a mail until the status write of its delivery. -/
def Phase.inFlight : Phase τ → Bool
  | .claimed | .running .spawned | .running (.sending _) | .running (.marking _) => true
  | .fetched | .running .returned | .running .ended => false

def Phase.isFetched : Phase τ → Bool
  | .fetched => true
  | _ => false

structure Slot.Coherent (C : Codec) (x : Slot τ) (r : Row) : Prop where
  fetched : x.phase.isFetched = true → rowToMail C r = .ok x.mail ∧ (r.status = "pending" ∨ r.status = "failed")
  inFlight : x.phase.inFlight = true → r.status = "sending" ∧ Snapshot C x.mail r

/-- A held mail has a row that agrees with it. -/
def Track.Coherent (C : Codec) (u : MailId) (t : Track τ) : Prop :=
  ∀ x, t.slot = some x → x.id = u ∧ ∃ r, t.row = some r ∧ x.Coherent C r

theorem Slot.Coherent.idle {x : Slot τ} {r : Row} (hf : x.phase.isFetched = false) (hi : x.phase.inFlight = false) :
    x.Coherent C r := ⟨by simp [hf], by simp [hi]⟩

theorem Life.coherent (hc : t.Coherent C u) (h : Life C d u t now t') : t'.Coherent C u := by
  cases h with
  | stay => exact hc
  | crashed | claimFailed | joined => intro x hx; cases hx
  | tickStarted hs => intro x hx; rw [hs] at hx; cases hx
  | enqueued hr _ =>
    intro x hx
    obtain ⟨-, r, hr', -⟩ := hc x hx
    rw [hr] at hr'; cases hr'
  | requeued _ _ hs => intro x hx; rw [hs] at hx; cases hx
  | fetched hr _ hdue hm hid _ =>
    intro x hx
    cases hx
    simp only [isDue, decide_eq_true_eq] at hdue
    exact ⟨hid, _, hr, fun _ => ⟨hm, hdue.1⟩, by simp [Phase.inFlight]⟩
  | claimed hs hr =>
    intro x hx
    cases hx
    obtain ⟨hid, r, hr', hco⟩ := hc _ hs
    rw [hr] at hr'; cases hr'
    exact ⟨hid, _, rfl, by simp [Phase.isFetched],
      fun _ => ⟨rfl, (rowOf_of_rowToMail (hco.fetched rfl).1).snapshot.setStatusRow⟩⟩
  | spawned hs | sendStarted hs _ | noTransport hs _ | sendOk hs | sendErr hs _ =>
    intro x hx
    cases hx
    obtain ⟨hid, r, hr, hco⟩ := hc _ hs
    exact ⟨hid, r, hr, by simp [Phase.isFetched], fun _ => hco.inFlight rfl⟩
  | sendErrPanicked hs | markFailed hs | finished hs | panicked hs _ =>
    intro x hx
    cases hx
    obtain ⟨hid, r, hr, -⟩ := hc _ hs
    exact ⟨hid, r, hr, .idle rfl rfl⟩
  | marked hs _ =>
    intro x hx
    cases hx
    exact ⟨(hc _ hs).1, _, rfl, .idle rfl rfl⟩

theorem Track.Coherent.initial (row : Option Row) : (Track.initial row : Track τ).Coherent C u := by
  intro x hx; cases hx

theorem Reachable.coherent (h : Reachable C d s) (u : MailId) : (s.track C u).Coherent C u :=
  h.invariant .initial Life.coherent

/-! ## Sent and dead are final -/

def Row.final (r : Row) : Prop := r.status = "sent" ∨ r.status = "dead"

/-- The row of a mail in flight, or about to be, is not final. -/
theorem Track.Coherent.not_final (hc : t.Coherent C u) {x : Slot τ} (hx : t.slot = some x)
    (hp : (x.phase.isFetched || x.phase.inFlight) = true) {r : Row} (hr : t.row = some r) : ¬ r.final := by
  obtain ⟨-, r', hr', hco⟩ := hc x hx
  rw [hr] at hr'; cases hr'
  rintro (h | h) <;>
  · rcases Bool.or_eq_true_iff.1 hp with hf | hi
    · have := (hco.fetched hf).2
      simp [h] at this
    · have := (hco.inFlight hi).1
      simp [h] at this

theorem Life.final (hc : t.Coherent C u) (h : Life C d u t now t') {r : Row} (hr : t.row = some r) (hf : r.final) :
    t'.row = some r ∧ count (Event.isSendOf u) t'.log = count (Event.isSendOf u) t.log := by
  cases h with
  | stay | crashed | tickStarted | claimFailed | spawned | noTransport | sendOk | sendErr | sendErrPanicked
  | markFailed | finished | panicked | joined => exact ⟨hr, by simp [Event.isSendOf]⟩
  | enqueued hn _ => rw [hr] at hn; cases hn
  | requeued hr' hs _ =>
    rw [hr] at hr'; cases hr'
    rcases hf with h | h <;> simp [h] at hs
  | fetched => exact ⟨hr, by simp [Event.isSendOf]⟩
  | claimed hs _ | sendStarted hs _ | marked hs _ => exact absurd hf (hc.not_final hs rfl hr)

/-- A final row and the number of sends of its mail stay as they are. -/
theorem Lives.final (h : Lives C d u t t') (hc : t.Coherent C u) {r : Row} (hr : t.row = some r) (hf : r.final) :
    t'.row = some r ∧ count (Event.isSendOf u) t'.log = count (Event.isSendOf u) t.log := by
  refine (Run.invariant (I := fun t' => t'.Coherent C u ∧ t'.row = some r ∧
    count (Event.isSendOf u) t'.log = count (Event.isSendOf u) t.log) ?_ ⟨hc, hr, rfl⟩ h).2
  intro a b ha hstep
  obtain ⟨hca, hra, hn⟩ := ha
  obtain ⟨now, hab⟩ := hstep
  obtain ⟨hrb, hnb⟩ := hab.final hca hra hf
  exact ⟨hab.coherent hca, hrb, hnb.trans hn⟩

/-! ## Attempts -/

/-- A mail as `Mail::from_new` builds it. -/
def Mail.Fresh (m : Mail) : Prop := ∃ new now, m = Mail.fromNew new now m.id

theorem Mail.fresh_iff {m : Mail} :
    m.Fresh ↔ m = Mail.fromNew ⟨m.fromAddr, m.toAddrs, m.subject, m.body, m.transport⟩ m.createdAt m.id := by
  refine ⟨fun h => ?_, fun h => ⟨_, _, h⟩⟩
  obtain ⟨new, now, h⟩ := h
  rw [h]
  rfl

instance (m : Mail) : Decidable m.Fresh := decidable_of_iff _ Mail.fresh_iff.symm

/-- Every mail enqueued was fresh. -/
def AllFresh (log : List (Entry τ)) : Prop := ∀ e ∈ log, ∀ m, e.event = .enqueued m → m.Fresh

def Event.mail? : Event τ → Option Mail
  | .enqueued m => some m
  | _ => none

instance (log : List (Entry τ)) : Decidable (AllFresh log) :=
  decidable_of_iff (∀ e ∈ log, ∀ m ∈ e.event.mail?, m.Fresh) <| by
    refine forall₂_congr fun e _ => forall_congr' fun m => ?_
    cases e.event <;> simp [Event.mail?]

def Dispatcher.maxAttempts (d : Dispatcher τ) : Nat := d.config.retry.maxAttempts.toNat

/-- A row after so many failures and successful sends. -/
structure Row.Lifecycle (d : Dispatcher τ) (r : Row) (failures oks : Nat) : Prop where
  attempts : r.attempts = failures
  below : r.status ≠ "dead" → failures < d.maxAttempts
  failed : r.status = "failed" → 1 ≤ failures ∧ r.lastError.isSome
  dead : r.status = "dead" → failures ≤ d.maxAttempts ∧ r.lastError.isSome ∧
    (failures = d.maxAttempts ∨ d.transportFor r.transport = none)
  sent : r.status = "sent" → 0 < oks

/-- What a delivery's status write rests on. -/
def Mark.Justified (d : Dispatcher τ) (m : Mail) (oks : Nat) : Mark → Prop
  | .sent => 0 < oks
  | .failed _ _ => m.attempts.toNat + 1 < d.maxAttempts
  | .dead _ => m.attempts.toNat + 1 = d.maxAttempts ∨ d.transportFor m.transport = none

def Mark.failures : Mark → Nat
  | .sent => 0
  | .failed _ _ | .dead _ => 1

theorem Snapshot.attempts_toNat {m : Mail} {r : Row} {n : Nat} (h : Snapshot C m r) (hn : r.attempts = n)
    (hlt : n < d.maxAttempts) : m.attempts.toNat = n := by
  have hmax : d.maxAttempts < 4294967296 := d.config.retry.maxAttempts.toNat_lt
  have := asU32_toNat (n := r.attempts) (by omega) (by omega)
  rw [h.attempts] at this
  omega

namespace Row.Lifecycle

variable {r : Row} {failures oks : Nat}

theorem sending (h : r.Lifecycle d failures oks) (hs : r.status ≠ "dead") :
    (setStatusRow now .sending none false none r).Lifecycle d failures oks :=
  ⟨by simpa [setStatusRow] using h.attempts, fun _ => h.below hs, by simp [setStatusRow, statusToStr],
    by simp [setStatusRow, statusToStr], by simp [setStatusRow, statusToStr]⟩

theorem requeue (h : r.Lifecycle d failures oks) (hs : r.status = "sending") :
    (requeueRow now r).Lifecycle d failures oks :=
  ⟨h.attempts, fun _ => h.below (by simp [hs]), by simp [requeueRow], by simp [requeueRow], by simp [requeueRow]⟩

theorem mono (h : r.Lifecycle d failures oks) {oks' : Nat} (ho : oks ≤ oks') : r.Lifecycle d failures oks' :=
  ⟨h.attempts, h.below, h.failed, h.dead, fun hs => (h.sent hs).trans_le ho⟩

theorem mark (h : r.Lifecycle d failures oks) {m : Mail} {mk : Mark} (hs : r.status = "sending")
    (hsnap : Snapshot C m r) (hmk : mk.Justified d m oks) :
    (mk.row now r).Lifecycle d (failures + mk.failures) oks := by
  have hlt := h.below (by simp [hs])
  have hatt := h.attempts
  have hm := hsnap.attempts_toNat hatt hlt
  cases mk with
  | sent =>
    exact ⟨by simpa [Mark.row, setStatusRow, Mark.failures] using hatt, fun _ => hlt,
      by simp [Mark.row, setStatusRow, statusToStr],
      by simp [Mark.row, setStatusRow, statusToStr], fun _ => hmk⟩
  | failed error retryAt =>
    refine ⟨by simp [Mark.row, setStatusRow, Mark.failures, hatt], fun _ => ?_,
      fun _ => ⟨by simp [Mark.failures], rfl⟩,
      by simp [Mark.row, setStatusRow, statusToStr], by simp [Mark.row, setStatusRow, statusToStr]⟩
    simp only [Mark.Justified, hm] at hmk
    exact hmk
  | dead error =>
    refine ⟨by simp [Mark.row, setStatusRow, Mark.failures, hatt], fun hne => absurd rfl hne,
      by simp [Mark.row, setStatusRow, statusToStr], fun _ => ⟨hlt, rfl, ?_⟩,
      by simp [Mark.row, setStatusRow, statusToStr]⟩
    rcases hmk with hmk | hmk
    · exact .inl (by rw [← hmk, hm]; rfl)
    · exact .inr (by rw [← hsnap.transport] at hmk; exact hmk)

end Row.Lifecycle

/-- What a failed send calls for is justified below the limit. -/
theorem onError_justified {m : Mail} {err : CoreError} {mk : Mark} (h : d.onError m err now = some mk) {oks : Nat}
    (hlt : m.attempts.toNat < d.maxAttempts) : mk.Justified d m oks := by
  have hex : d.config.retry.isExhausted (m.attempts + 1) = true ↔ d.maxAttempts ≤ m.attempts.toNat + 1 :=
    RetryPolicy.isExhausted_succ_iff hlt
  simp only [Dispatcher.onError] at h
  split at h
  · next he =>
    cases h
    have := hex.1 he
    exact .inl (by omega)
  · next he =>
    obtain ⟨retryAt, -, rfl⟩ := Option.map_eq_some_iff.1 h
    have := mt hex.2 he
    simp only [Mark.Justified]
    omega

/-! ## The lifecycle of a track -/

/-- Failures and Ok sends counted so far. -/
def Track.failures (u : MailId) (t : Track τ) : Nat := count (Event.isFailureOf u) t.log

def Track.oks (u : MailId) (t : Track τ) : Nat := count (Event.isOkOf u) t.log

structure Track.Lifecycle (d : Dispatcher τ) (u : MailId) (t : Track τ) : Prop where
  absent : t.row = none → t.failures u = 0
  row : ∀ r, t.row = some r → r.Lifecycle d (t.failures u) (t.oks u)
  marking : ∀ m mk, t.slot = some ⟨m, .running (.marking mk)⟩ → mk.Justified d m (t.oks u)

/-- A step that keeps the row and the number of failures. -/
theorem Track.Lifecycle.keep (h : t.Lifecycle d u) (hr : t'.row = t.row) (hf : t'.failures u = t.failures u)
    (ho : t.oks u ≤ t'.oks u)
    (hm : ∀ m mk, t'.slot = some ⟨m, .running (.marking mk)⟩ → mk.Justified d m (t'.oks u)) :
    t'.Lifecycle d u where
  absent := by rw [hr, hf]; exact h.absent
  row r hr' := by rw [hf]; exact (h.row r (hr ▸ hr')).mono ho
  marking := hm

/-- A mail in flight has attempts left. -/
theorem Track.Lifecycle.attempts_lt (h : t.Lifecycle d u) (hc : t.Coherent C u) {x : Slot τ} (hx : t.slot = some x)
    (hi : x.phase.inFlight = true) : x.mail.attempts.toNat < d.maxAttempts := by
  obtain ⟨-, r, hr, hco⟩ := hc x hx
  obtain ⟨hs, hsnap⟩ := hco.inFlight hi
  have hrow := h.row r hr
  have hlt := hrow.below (by simp [hs])
  rw [hsnap.attempts_toNat hrow.attempts hlt]
  exact hlt

theorem Mail.Fresh.lifecycle {m : Mail} (h : m.Fresh) (hmax : 1 ≤ d.maxAttempts) (oks : Nat) :
    (mailToRow C m).Lifecycle d 0 oks := by
  obtain ⟨new, at_, hm⟩ := h
  rw [hm]
  exact ⟨rfl, fun _ => hmax, by simp [mailToRow, Mail.fromNew, statusToStr],
    by simp [mailToRow, Mail.fromNew, statusToStr], by simp [mailToRow, Mail.fromNew, statusToStr]⟩

theorem Life.lifecycle (hmax : 1 ≤ d.maxAttempts) (hc : t.Coherent C u) (hl : t.Lifecycle d u)
    (h : Life C d u t now t') (hfresh : AllFresh t'.log) : t'.Lifecycle d u := by
  have failures_cons : ∀ {e : Event τ}, e.isFailureOf u = false →
      count (Event.isFailureOf u) (⟨now, e⟩ :: t.log) = t.failures u := fun he => by simp [he, Track.failures]
  have oks_cons : ∀ e : Event τ, t.oks u ≤ count (Event.isOkOf u) (⟨now, e⟩ :: t.log) := fun e => by
    simp [Track.oks]
  cases h with
  | stay => exact hl
  | crashed | claimFailed => exact hl.keep rfl (failures_cons rfl) (oks_cons _) (by simp)
  | tickStarted hs => exact hl.keep rfl (failures_cons rfl) (oks_cons _) (by simp [hs])
  | enqueued hr _ =>
    refine ⟨by simp, fun r hr' => ?_, fun m mk hs => ?_⟩
    · cases hr'
      rw [Track.failures, failures_cons rfl, hl.absent hr]
      exact (hfresh _ List.mem_cons_self _ rfl).lifecycle hmax _
    · obtain ⟨-, r, hr', -⟩ := hc _ hs
      rw [hr] at hr'; cases hr'
  | requeued hr hst hs =>
    refine ⟨by simp, fun r hr' => ?_, by simp [hs]⟩
    cases hr'
    rw [Track.failures, failures_cons rfl]
    exact ((hl.row _ hr).requeue hst).mono (oks_cons _)
  | fetched => exact hl.keep rfl (failures_cons rfl) (oks_cons _) (by simp)
  | claimed hs hr =>
    obtain ⟨-, r, hr', hco⟩ := hc _ hs
    rw [hr] at hr'; cases hr'
    refine ⟨by simp, fun r hr' => ?_, by simp⟩
    cases hr'
    rw [Track.failures, failures_cons rfl]
    exact ((hl.row _ hr).sending (by rcases (hco.fetched rfl).2 with h | h <;> simp [h])).mono (oks_cons _)
  | spawned | finished | joined => exact hl.keep rfl rfl le_rfl (by simp)
  | sendStarted | markFailed | panicked => exact hl.keep rfl (failures_cons rfl) (oks_cons _) (by simp)
  | sendErrPanicked =>
    exact hl.keep rfl (by simp [Track.failures, Event.isFailureOf]) (by simp [Track.oks, Event.isOkOf]) (by simp)
  | noTransport _ htr =>
    refine hl.keep rfl rfl le_rfl fun m mk hs => ?_
    cases hs
    exact .inr htr
  | sendOk _ =>
    refine hl.keep rfl (failures_cons rfl) (oks_cons _) fun m mk hs => ?_
    cases hs
    simp [Mark.Justified, Track.oks, Event.isOkOf]
  | sendErr hs hmk =>
    refine hl.keep rfl (failures_cons rfl) (oks_cons _) fun m mk' hs' => ?_
    cases hs'
    exact onError_justified hmk (hl.attempts_lt hc hs rfl)
  | marked hs hr =>
    rename_i r m mk
    obtain ⟨-, r', hr', hco⟩ := hc _ hs
    rw [hr] at hr'; cases hr'
    obtain ⟨hst, hsnap⟩ := hco.inFlight rfl
    refine ⟨by simp, fun r' hr' => ?_, by simp⟩
    cases hr'
    have hf : count (Event.isFailureOf u) (⟨now, .marked u mk⟩ :: t.log) = t.failures u + mk.failures := by
      cases mk <;> simp [Track.failures, Event.isFailureOf, Mark.failures]
    rw [Track.failures, hf]
    exact ((hl.row r hr).mark hst hsnap (hl.marking m mk hs)).mono (oks_cons _)

theorem AllFresh.suffix {l l' : List (Entry τ)} (h : AllFresh l') (hs : l <:+ l') : AllFresh l :=
  fun e he => h e (hs.subset he)

theorem ReachableFromEmpty.lifecycle (h : ReachableFromEmpty C d s) (hmax : 1 ≤ d.maxAttempts)
    (hfresh : AllFresh s.log) (u : MailId) : (s.track C u).Lifecycle d u := by
  have hf : AllFresh (s.track C u).log := fun e he => hfresh e (List.mem_filter.1 he).1
  refine (h.invariant (I := fun t => t.Coherent C u ∧ (AllFresh t.log → t.Lifecycle d u)) ?_ ?_).2 hf
  · exact ⟨.initial none, fun _ => ⟨fun _ => rfl, by simp [Track.initial], by simp [Track.initial]⟩⟩
  · intro t now t' h hstep
    obtain ⟨hc, hl⟩ := h
    exact ⟨hstep.coherent hc, fun hf => hstep.lifecycle hmax hc (hl (hf.suffix hstep.log_suffix)) hf⟩

/-! ## The lifecycle of the queue -/

/-- A delivery that is held from the claim of its mail to its status write. -/
def State.inFlight (s : State τ) (m : Mail) : Prop := ∃ phase, ⟨m, phase⟩ ∈ s.slots ∧ phase.inFlight = true

/-- What is true of a row of id `u` in a state. -/
structure RowLifecycle (C : Codec) (d : Dispatcher τ) (s : State τ) (u : MailId) (r : Row) : Prop where
  attempts : r.attempts = count (Event.isFailureOf u) s.log
  open_ : r.status = "pending" ∨ r.status = "sending" ∨ r.status = "failed" → r.attempts < d.maxAttempts
  failed : r.status = "failed" → 1 ≤ r.attempts ∧ r.lastError.isSome
  dead : r.status = "dead" → r.attempts ≤ d.maxAttempts ∧ r.lastError.isSome ∧
    (r.attempts = d.maxAttempts ∨
      r.transport.or d.defaultTransport = none ∨
      ∃ name, r.transport.or d.defaultTransport = some name ∧ d.transports.lookup name = none)
  sent : r.status = "sent" → ∃ e ∈ s.log, e.event = .sendEnded u true
  final : r.status = "sent" ∨ r.status = "dead" → ∀ s', Steps C d s s' →
    r ∈ s'.table ∧ count (Event.isSendOf u) s'.log = count (Event.isSendOf u) s.log
  snapshot : ∀ m, s.inFlight m → m.id = u → (m.attempts.toNat : Int) = r.attempts

theorem transportFor_eq_none {own : Option String} : d.transportFor own = none ↔
    own.or d.defaultTransport = none ∨
      ∃ name, own.or d.defaultTransport = some name ∧ d.transports.lookup name = none := by
  simp only [Dispatcher.transportFor]
  cases own.or d.defaultTransport <;> simp

/-- **The lifecycle of the queue.** In every state reached from an empty
queue that only fresh mails entered, whatever failed and crashed, each row
is of some mail's id and of one of the five states, and `RowLifecycle`
holds of it. -/
theorem queue_lifecycle (h : ReachableFromEmpty C d s) (hmax : 1 ≤ d.maxAttempts) (hfresh : AllFresh s.log)
    {r : Row}
    (hr : r ∈ s.table) : ∃ u, r.id = C.uuidText u ∧ RowLifecycle C d s u r := by
  obtain ⟨u, hu⟩ := h.reachable.exclusive.canonical r hr
  have hfind : s.table.find (C.uuidText u) = some r := hu ▸ Table.find_self hr
  have hl := h.lifecycle hmax hfresh u
  have hc := h.reachable.coherent u
  have hrow := hl.row r hfind
  have hfail : (s.track C u).failures u = count (Event.isFailureOf u) s.log :=
    count_track fun _ => Event.about_of_isFailureOf
  refine ⟨u, hu, ⟨?_, ?_, ?_, ?_, ?_, ?_, ?_⟩⟩
  · rw [hrow.attempts, hfail]
  · intro hs
    have := hrow.below (by rcases hs with h | h | h <;> simp [h])
    rw [hrow.attempts]; exact_mod_cast this
  · intro hs
    obtain ⟨h1, h2⟩ := hrow.failed hs
    exact ⟨by rw [hrow.attempts]; exact_mod_cast h1, h2⟩
  · intro hs
    obtain ⟨h1, h2, h3⟩ := hrow.dead hs
    rw [transportFor_eq_none] at h3
    rw [hrow.attempts]
    exact ⟨by exact_mod_cast h1, h2, by exact_mod_cast h3⟩
  · intro hs
    have hpos := hrow.sent hs
    rw [Track.oks, count_track fun _ => Event.about_of_isOkOf] at hpos
    obtain ⟨e, he, hok⟩ := count_pos.1 hpos
    exact ⟨e, he, Event.isOkOf_iff.1 hok⟩
  · intro hf s' hs'
    obtain ⟨hr', hn⟩ := (Steps.lives h.reachable.exclusive hs' u).final hc hfind hf
    rw [count_track fun _ => Event.about_of_isSendOf, count_track fun _ => Event.about_of_isSendOf] at hn
    exact ⟨(Table.find_eq_some.1 hr').1, hn⟩
  · intro m hflight hid
    obtain ⟨phase, hm, hi⟩ := hflight
    subst hid
    have hslot := (Keyed.get_eq_some h.reachable.exclusive.nodup).2 ⟨hm, rfl⟩
    obtain ⟨-, r', hr', hco⟩ := hc _ hslot
    cases hfind.symm.trans hr'
    obtain ⟨hst, hsnap⟩ := hco.inFlight hi
    rw [hsnap.attempts_toNat hrow.attempts (hrow.below (by simp [hst])), hrow.attempts]

/-- When their tick is over, one mail of the run has failed, one is dead for
want of a transport, and one was sent, which stays so; in the next tick the
first is in flight again. -/
theorem queue_lifecycle_example :
    RowLifecycle textCodec exampleDispatcher joinedState ⟨3⟩ (mailToRow textCodec letterAgain) ∧
    RowLifecycle textCodec exampleDispatcher joinedState ⟨1⟩ strayDead ∧
    RowLifecycle textCodec exampleDispatcher retryState ⟨3⟩ (claimedAt (firstDay 41) letterAgain) ∧
    sentAt (firstDay 7) (firstDay 1) (exampleMails 2) ∈ resentState.table := by
  have hmax : 1 ≤ exampleDispatcher.maxAttempts := by decide
  have hjoined : AllFresh joinedState.log := by decide +kernel
  have hretry : AllFresh retryState.log := by decide +kernel
  have life {s : State Unit} (h : ReachableFromEmpty textCodec exampleDispatcher s) (hs : AllFresh s.log)
      {r : Row} (hr : r ∈ s.table) (u : MailId) (hu : r.id = textCodec.uuidText u) :
      RowLifecycle textCodec exampleDispatcher s u r := by
    obtain ⟨v, hv, hlife⟩ := queue_lifecycle h hmax hs hr
    obtain rfl := textCodec.uuidText_inj.1 (hu.symm.trans hv)
    exact hlife
  have hsent := life reachable_joinedState hjoined (r := sentAt (firstDay 7) (firstDay 1) (exampleMails 2))
    (List.mem_cons_of_mem _ List.mem_cons_self) ⟨2⟩ rfl
  refine ⟨life reachable_joinedState hjoined (by simp [joinedState, Table.mem_def]) ⟨3⟩ rfl,
    life reachable_joinedState hjoined List.mem_cons_self ⟨1⟩ rfl,
    life reachable_retryState hretry (by simp [retryState, Table.mem_def]) ⟨3⟩ rfl, (hsent.final (.inl rfl) _ ?_).1⟩
  exact (Steps.of_run run_retryState).trans ((Steps.of_run run_restartedState).trans
    ((Steps.of_run run_reclaimedState).trans (Steps.of_run run_resentState)))

end OxidRelay
