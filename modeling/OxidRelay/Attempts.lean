/-
The bound on delivery attempts: a mail is sent at most `max_attempts`
times, and once more for each time its row was moved from sending back to
pending.

The invariant is an account, `Track.Account`. Each send of a mail is
covered by a failure its row counts, by a requeue, or by `Track.open_`:
the one send whose outcome the row does not show yet, because it is in
progress, because its status write is due or was lost, or because it went
well. Without crashes, panics and failed writes a row is `sending` only
while its delivery is in flight, so no requeue ever meets it.
-/
import OxidRelay.Lifecycle

namespace OxidRelay

open SqliteQueue

variable {τ : Type} {C : Codec} {d : Dispatcher τ} {s s' : State τ} {now : DateTime} {u : MailId} {t t' : Track τ}

/-! ## The account -/

/-- A send that neither the attempts nor the requeues count. -/
def Slot.openSend (x : Slot τ) : Option Bool :=
  match x.phase with
  | .fetched | .claimed | .running .spawned => some false
  | .running (.sending _) | .running (.marking _) => some true
  | .running .returned | .running .ended => none

/-- Whether a row alone shows a send that was not accounted for. -/
def Row.openSend (r : Row) : Bool := r.status = "sending" ∨ r.status = "sent"

/-- One when such a send exists, by the slot and else by the row. -/
def Track.open_ (t : Track τ) (r : Row) : Nat := ((t.slot.bind Slot.openSend).getD r.openSend).toNat

def Track.sends (u : MailId) (t : Track τ) : Nat := count (Event.isSendOf u) t.log

def Track.requeues (C : Codec) (u : MailId) (t : Track τ) : Nat := count (Event.isRequeueOf C u) t.log

structure Track.Account (C : Codec) (u : MailId) (t : Track τ) : Prop where
  absent : t.row = none → t.sends u = 0
  covered : ∀ r, t.row = some r → (t.sends u : Int) ≤ r.attempts + t.requeues C u + t.open_ r

/-- A step that keeps the row and the counts. -/
theorem Track.Account.keep (ha : t.Account C u) (hr : t'.row = t.row) (hs : t'.sends u = t.sends u)
    (hq : t'.requeues C u = t.requeues C u) (ho : ∀ r, t.row = some r → t.open_ r ≤ t'.open_ r) :
    t'.Account C u where
  absent hr' := hs ▸ ha.absent (hr ▸ hr')
  covered r hr' := by
    have := ha.covered r (hr ▸ hr')
    have := ho r (hr ▸ hr')
    rw [hs, hq]; omega

/-- The row shows what the slot shows. -/
theorem Track.Coherent.open_le (hc : t.Coherent C u) {r : Row} (hr : t.row = some r) :
    t.open_ r ≤ r.openSend.toNat := by
  cases hx : t.slot with
  | none => simp [Track.open_, hx]
  | some x =>
    obtain ⟨-, r', hr', hco⟩ := hc x hx
    cases hr.symm.trans hr'
    obtain ⟨m, phase⟩ := x
    cases phase with
    | fetched | claimed => simp [Track.open_, hx, Slot.openSend]
    | running stage =>
      cases stage with
      | spawned | returned | ended => simp [Track.open_, hx, Slot.openSend]
      | sending | marking => simp [Track.open_, hx, Slot.openSend, Row.openSend, (hco.inFlight rfl).1]

theorem Life.account (hc : t.Coherent C u) (ha : t.Account C u) (h : Life C d u t now t') : t'.Account C u := by
  have sends_cons : ∀ {e : Event τ}, e.isSendOf u = false →
      count (Event.isSendOf u) (⟨now, e⟩ :: t.log) = t.sends u := fun he => by simp [he, Track.sends]
  have requeues_cons : ∀ {e : Event τ}, e.isRequeueOf C u = false →
      count (Event.isRequeueOf C u) (⟨now, e⟩ :: t.log) = t.requeues C u := fun he => by simp [he, Track.requeues]
  cases h with
  | stay => exact ha
  | crashed | claimFailed | markFailed | panicked =>
    exact ha.keep rfl (sends_cons rfl) (requeues_cons rfl) fun r hr => hc.open_le hr
  | sendErrPanicked =>
    exact ha.keep rfl (by simp [Track.sends, Event.isSendOf]) (by simp [Track.requeues, Event.isRequeueOf])
      fun r hr => hc.open_le hr
  | finished | joined => exact ha.keep rfl rfl rfl fun r hr => hc.open_le hr
  | tickStarted => exact ha.keep rfl (sends_cons rfl) (requeues_cons rfl) fun r hr => le_rfl
  | enqueued hr _ =>
    refine ⟨by simp, fun r hr' => ?_⟩
    cases hr'
    have h0 : t.sends u = 0 := ha.absent hr
    rw [Track.sends, sends_cons rfl, h0]
    simp only [mailToRow]
    omega
  | requeued hr hst hs =>
    rename_i r
    refine ⟨by simp, fun r' hr' => ?_⟩
    cases hr'
    have hcov := ha.covered r hr
    have hopen : ∀ r : Row, t.open_ r = r.openSend.toNat := fun r => by simp [Track.open_, hs]
    have hq : count (Event.isRequeueOf C u) (⟨now, .requeued (C.uuidText u)⟩ :: t.log) = t.requeues C u + 1 := by
      simp [Event.isRequeueOf, Track.requeues]
    rw [hopen] at hcov
    rw [Track.sends, sends_cons rfl, Track.requeues, hq]
    have : r.openSend.toNat ≤ 1 := Bool.toNat_le _
    simp only [requeueRow]
    omega
  | fetched hr hs hdue =>
    refine ha.keep rfl (sends_cons rfl) (requeues_cons rfl) fun r hr' => ?_
    cases hr.symm.trans hr'
    simp only [isDue, decide_eq_true_eq] at hdue
    rcases hdue.1 with h | h <;> simp [Track.open_, hs, Row.openSend, h]
  | claimed hs hr =>
    refine ⟨by simp, fun r hr' => ?_⟩
    cases hr'
    have hcov := ha.covered _ hr
    rw [Track.sends, sends_cons rfl, Track.requeues, requeues_cons rfl]
    simpa [Track.open_, hs, Slot.openSend, setStatusRow] using hcov
  | spawned hs | noTransport hs _ =>
    exact ha.keep rfl rfl rfl fun r hr => by simp [Track.open_, hs, Slot.openSend]
  | sendOk hs | sendErr hs _ =>
    exact ha.keep rfl (sends_cons rfl) (requeues_cons rfl) fun r hr => by simp [Track.open_, hs, Slot.openSend]
  | sendStarted hs _ =>
    rename_i tr m _
    have hid : m.id = u := (hc _ hs).1
    have hsends : count (Event.isSendOf u) (⟨now, .sendStarted tr m⟩ :: t.log) = t.sends u + 1 := by
      simp [Event.isSendOf, Track.sends, hid]
    refine ⟨fun hr => ?_, fun r hr => ?_⟩
    · obtain ⟨-, r, hr', -⟩ := hc _ hs
      cases hr.symm.trans hr'
    · have hcov := ha.covered r hr
      simp only [Track.open_, hs, Slot.openSend] at hcov
      rw [Track.sends, hsends, Track.requeues, requeues_cons rfl]
      simp only [Track.open_, Slot.openSend, Option.bind_some, Option.getD_some, Bool.toNat_true,
        Bool.toNat_false] at hcov ⊢
      omega
  | marked hs hr =>
    rename_i r m mk
    refine ⟨by simp, fun r' hr' => ?_⟩
    cases hr'
    have hcov := ha.covered r hr
    rw [Track.sends, sends_cons rfl, Track.requeues, requeues_cons rfl]
    simp only [Track.open_, hs, Slot.openSend, Option.bind_some, Option.getD_some, Bool.toNat_true] at hcov
    cases mk <;> simp [Track.open_, Slot.openSend, Mark.row, setStatusRow, Row.openSend, statusToStr] <;> omega

theorem Track.Account.initial (row : Option Row) (h : ∀ r, row = some r → 0 ≤ r.attempts) :
    (Track.initial row : Track τ).Account C u where
  absent _ := rfl
  covered r hr := by
    have := h r hr
    simp only [Track.sends, Track.initial, count_nil]
    omega

/-- **The bound on a track.** -/
theorem Track.Account.sends_le (ha : t.Account C u) (hc : t.Coherent C u) (hl : t.Lifecycle d u) :
    t.sends u ≤ d.maxAttempts + t.requeues C u := by
  cases hr : t.row with
  | none => rw [ha.absent hr]; omega
  | some r =>
    have hcov := ha.covered r hr
    have hopen := hc.open_le hr
    have hrow := hl.row r hr
    rw [hrow.attempts] at hcov
    by_cases hd : r.status = "dead"
    · have h0 : r.openSend = false := by simp [Row.openSend, hd]
      have := (hrow.dead hd).1
      rw [h0, Bool.toNat_false] at hopen
      omega
    · have := hrow.below hd
      have : r.openSend.toNat ≤ 1 := Bool.toNat_le _
      omega

/-! ## Without faults -/

/-- A send of the mail returned Ok, which its row shows or will show. -/
def Track.delivered (t : Track τ) : Prop :=
  (∃ m, t.slot = some ⟨m, .running (.marking .sent)⟩) ∨ ∃ r, t.row = some r ∧ r.status = "sent"

/-- A track without faults. -/
structure Track.Steady (C : Codec) (u : MailId) (t : Track τ) : Prop where
  requeues : t.requeues C u = 0
  flight : ∀ r, t.row = some r → r.status = "sending" → ∃ x, t.slot = some x ∧ x.phase.inFlight = true
  undelivered : ¬ t.delivered → t.oks u = 0
  once : t.oks u ≤ 1

theorem Track.Steady.keep (hs : t.Steady C u) (hr : t'.row = t.row) (hq : t'.requeues C u = t.requeues C u)
    (ho : t'.oks u = t.oks u)
    (hf : ∀ x, t.slot = some x → x.phase.inFlight = true → ∃ y, t'.slot = some y ∧ y.phase.inFlight = true)
    (hd : ∀ m, t.slot = some ⟨m, .running (.marking .sent)⟩ → t'.delivered) : t'.Steady C u where
  requeues := hq.trans hs.requeues
  flight r hr' hst := by
    obtain ⟨x, hx, hi⟩ := hs.flight r (hr ▸ hr') hst
    exact hf x hx hi
  undelivered hnot := by
    rw [ho]
    refine hs.undelivered fun hdel => hnot ?_
    rcases hdel with ⟨m, hm⟩ | ⟨r, hr', hst⟩
    · exact hd m hm
    · exact .inr ⟨r, hr ▸ hr', hst⟩
  once := ho ▸ hs.once

/-- A mail in flight is not delivered unless its `mark_sent` is due. -/
theorem Track.Coherent.not_delivered (hc : t.Coherent C u) {x : Slot τ} (hx : t.slot = some x)
    (hp : (x.phase.isFetched || x.phase.inFlight) = true) (hne : ∀ m, x ≠ ⟨m, .running (.marking .sent)⟩) :
    ¬ t.delivered := by
  intro h
  rcases h with ⟨m, hm⟩ | ⟨r, hr, hst⟩
  · rw [hx] at hm; exact hne m (Option.some.inj hm)
  · exact hc.not_final hx hp hr (.inl hst)

theorem Life.steady (hc : t.Coherent C u) (hs : t.Steady C u) (h : Life C d u t now t') (hfresh : AllFresh t'.log)
    (hno : Faultless t'.log) : t'.Steady C u := by
  have requeues_cons : ∀ {e : Event τ}, e.isRequeueOf C u = false →
      count (Event.isRequeueOf C u) (⟨now, e⟩ :: t.log) = t.requeues C u := fun he => by simp [he, Track.requeues]
  have oks_cons : ∀ {e : Event τ}, e.isOkOf u = false →
      count (Event.isOkOf u) (⟨now, e⟩ :: t.log) = t.oks u := fun he => by simp [he, Track.oks]
  cases h with
  | stay => exact hs
  | crashed | claimFailed | markFailed | panicked | sendErrPanicked =>
    have := hno _ List.mem_cons_self
    cases this
  | tickStarted hn | fetched _ hn =>
    exact hs.keep rfl (requeues_cons rfl) (oks_cons rfl) (fun x hx _ => by simp [hn] at hx)
      fun m hm => by simp [hn] at hm
  | enqueued hr _ =>
    obtain ⟨new, at_, hm⟩ := hfresh _ List.mem_cons_self _ rfl
    have hslot : t.slot = none := by
      cases hx : t.slot with
      | none => rfl
      | some x =>
        obtain ⟨-, r, hr', -⟩ := hc x hx
        cases hr.symm.trans hr'
    have h0 : t.oks u = 0 := hs.undelivered (by simp [Track.delivered, hslot, hr])
    refine ⟨(requeues_cons rfl).trans hs.requeues, fun r hr' hst => ?_, fun _ => (oks_cons rfl).trans h0,
      (oks_cons rfl).trans_le hs.once⟩
    cases hr'
    rw [hm] at hst
    simp [mailToRow, Mail.fromNew, statusToStr] at hst
  | requeued hr hst hn =>
    obtain ⟨x, hx, -⟩ := hs.flight _ hr hst
    rw [hn] at hx; cases hx
  | claimed hx hr =>
    have h0 := hs.undelivered (hc.not_delivered hx rfl (by simp))
    exact ⟨(requeues_cons rfl).trans hs.requeues, fun _ _ _ => ⟨_, rfl, rfl⟩, fun _ => (oks_cons rfl).trans h0,
      (oks_cons rfl).trans_le hs.once⟩
  | spawned hx => exact hs.keep rfl rfl rfl (fun _ _ _ => ⟨_, rfl, rfl⟩) fun m hm => by simp [hx] at hm
  | noTransport hx => exact hs.keep rfl rfl rfl (fun _ _ _ => ⟨_, rfl, rfl⟩) fun m hm => by simp [hx] at hm
  | sendStarted hx =>
    exact hs.keep rfl (requeues_cons rfl) (oks_cons rfl) (fun _ _ _ => ⟨_, rfl, rfl⟩) fun m hm => by simp [hx] at hm
  | sendErr hx =>
    exact hs.keep rfl (requeues_cons rfl) (oks_cons rfl) (fun _ _ _ => ⟨_, rfl, rfl⟩) fun m hm => by simp [hx] at hm
  | sendOk hx =>
    have h0 : t.oks u = 0 := hs.undelivered (hc.not_delivered hx rfl (by simp))
    refine ⟨(requeues_cons rfl).trans hs.requeues, fun _ _ _ => ⟨_, rfl, rfl⟩,
      fun hnot => absurd (.inl ⟨_, rfl⟩) hnot, ?_⟩
    simp only [Track.oks] at h0
    simp [Track.oks, h0, Event.isOkOf]
  | marked hx hr =>
    rename_i r m mk
    refine ⟨(requeues_cons rfl).trans hs.requeues, fun r' hr' hst => ?_, fun hnot => (oks_cons rfl).trans ?_,
      (oks_cons rfl).trans_le hs.once⟩
    · cases hr'
      cases mk <;> simp [Mark.row, setStatusRow, statusToStr] at hst
    · refine hs.undelivered (hc.not_delivered hx rfl fun m' he => hnot (.inr ⟨_, rfl, ?_⟩))
      cases he
      rfl
  | finished hx | joined hx =>
    exact hs.keep rfl rfl rfl (fun x hx' hi => by rw [hx] at hx'; cases hx'; cases hi)
      fun m hm => by simp [hx] at hm

/-! ## Runs -/

theorem ReachableFromEmpty.account (h : ReachableFromEmpty C d s) (u : MailId) : (s.track C u).Account C u := by
  refine (h.invariant (I := fun t => t.Coherent C u ∧ t.Account C u) ?_ ?_).2
  · exact ⟨.initial none, .initial none (by simp)⟩
  · intro t now t' h hstep
    obtain ⟨hc, ha⟩ := h
    exact ⟨hstep.coherent hc, hstep.account hc ha⟩

theorem ReachableFromEmpty.steady (h : ReachableFromEmpty C d s) (hfresh : AllFresh s.log) (hno : Faultless s.log)
    (u : MailId) : (s.track C u).Steady C u := by
  have hsub : ∀ e ∈ (s.track C u).log, e ∈ s.log := fun e he => (List.mem_filter.1 he).1
  refine (h.invariant (I := fun t => t.Coherent C u ∧ (AllFresh t.log → Faultless t.log → t.Steady C u)) ?_ ?_).2
    (fun e he => hfresh e (hsub e he)) fun e he => hno e (hsub e he)
  · exact ⟨.initial none, fun _ _ => ⟨rfl, by simp [Track.initial], fun _ => rfl, Nat.zero_le _⟩⟩
  · intro t now t' h hstep
    obtain ⟨hc, hs⟩ := h
    exact ⟨hstep.coherent hc, fun hf hno =>
      hstep.steady hc (hs (hf.suffix hstep.log_suffix) (hno.suffix hstep.log_suffix)) hf hno⟩

/-- **The bound on delivery attempts.** In every run from an empty queue
that only fresh mails enter, a mail is sent at most `max_attempts` times
plus the number of times a requeue moved its row from sending back to
pending; without crashes, panics and failed status writes it is sent at
most `max_attempts` times, and at most one send returns Ok. -/
theorem sends_bounded (h : ReachableFromEmpty C d s) (hmax : 1 ≤ d.maxAttempts) (hfresh : AllFresh s.log)
    (u : MailId) :
    count (Event.isSendOf u) s.log ≤ d.maxAttempts + count (Event.isRequeueOf C u) s.log ∧
    (Faultless s.log →
      count (Event.isSendOf u) s.log ≤ d.maxAttempts ∧ count (Event.isOkOf u) s.log ≤ 1) := by
  have hle := (h.account u).sends_le (h.reachable.coherent u) (h.lifecycle hmax hfresh u)
  have hsends : (s.track C u).sends u = count (Event.isSendOf u) s.log :=
    count_track fun _ => Event.about_of_isSendOf
  have hrequeues : (s.track C u).requeues C u = count (Event.isRequeueOf C u) s.log :=
    count_track fun _ => Event.about_of_isRequeueOf
  have hoks : (s.track C u).oks u = count (Event.isOkOf u) s.log := count_track fun _ => Event.about_of_isOkOf
  rw [hsends] at hle
  refine ⟨hrequeues ▸ hle, fun hno => ?_⟩
  have hs := h.steady hfresh hno u
  rw [hs.requeues] at hle
  exact ⟨hle, hoks ▸ hs.once⟩

/-- The letter of the run was sent three times and requeued once; until the
crash no mail was sent successfully more than once. -/
theorem sends_bounded_example :
    count (Event.isSendOf ⟨3⟩) resentState.log ≤
      exampleDispatcher.maxAttempts + count (Event.isRequeueOf textCodec ⟨3⟩) resentState.log ∧
    count (Event.isSendOf ⟨3⟩) retryState.log ≤ exampleDispatcher.maxAttempts ∧
    count (Event.isOkOf ⟨2⟩) retryState.log ≤ 1 := by
  have hmax : 1 ≤ exampleDispatcher.maxAttempts := by decide
  have hresent := sends_bounded reachable_resentState hmax (by decide +kernel)
  have hretry := sends_bounded reachable_retryState hmax (by decide +kernel)
  have hfaultless : Faultless retryState.log := by decide +kernel
  exact ⟨(hresent ⟨3⟩).1, ((hretry ⟨3⟩).2 hfaultless).1, ((hretry ⟨2⟩).2 hfaultless).2⟩

example : count (Event.isSendOf ⟨3⟩) resentState.log = 3 := by decide +kernel

end OxidRelay
