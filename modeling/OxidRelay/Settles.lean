/-
Every mail is settled in the end. In a `Service` each mail enqueued whose
times the clock passes becomes `sent`, or `dead` after `max_attempts`
failures or for want of a transport (`eventually_settled`), whatever faults
and crashes there were before.

A tick that leaves a due mail out fetches one that has waited for longer,
and once the clock has passed, those only become fewer. A row left
`sending` is taken back by the reclaim of a tick that starts after that.
-/
import OxidRelay.Origins
import OxidRelay.Overtaking
import OxidRelay.Resends
import OxidRelay.Service

namespace OxidRelay

open DateTime SqliteQueue

variable {τ : Type} {C : Codec} {d : Dispatcher τ} {s s' : State τ} {now : DateTime} {u v : MailId}
  {t t' : Track τ} {r : Row} {f : Nat → State τ} {clock : Nat → DateTime} {n i j : Nat}

/-! ## The mails that waited for longer -/

/-- A row that is not settled, of a time no later than `K`. -/
def Row.early (K : String) (r : Row) : Bool := r.status ≠ "sent" ∧ r.status ≠ "dead" ∧ r.nextAttemptAt ≤ K

theorem Row.early_iff {K : String} : r.early K = true ↔ r.status ≠ "sent" ∧ r.status ≠ "dead" ∧ r.nextAttemptAt ≤ K :=
  decide_eq_true_iff

def State.early (s : State τ) (K : String) : Nat := s.table.affected (Row.early K)

/-- The time has passed `K` for good, for the failures about to be recorded as well. -/
structure Late (C : Codec) (d : Dispatcher τ) (f : Nat → State τ) (clock : Nat → DateTime) (K : DateTime) (i : Nat) :
    Prop where
  passed : ∀ k, i ≤ k → Passed d f clock K k
  marking : ∀ v m err retryAt, ((f i).track C v).slot = some ⟨m, .running (.marking (.failed err retryAt))⟩ →
    K < retryAt

/-- A retry is for later. -/
theorem onError_le {m : Mail} {err : CoreError} {message : String} {retryAt : DateTime}
    (h : d.onError m err now = some (.failed message retryAt)) : now ≤ retryAt := by
  refine le_checkedAdd ?_ (onError_failed h).2
  cases hc : (d.config.retry.backoff (m.attempts + 1)).toChrono with
  | none => simp [chronoSeconds]
  | some delay =>
    simp only [Duration.toChrono] at hc
    split at hc
    · cases hc
      simp
    · cases hc

theorem Row.early_of_mark {K : DateTime} {mk : Mark} {r : Row} (hK : K.YearInRange)
    (hmk : ∀ err retryAt, mk = .failed err retryAt → K < retryAt ∧ retryAt.YearInRange) :
    (mk.row now r).early K.toRfc3339 = false := by
  cases mk with
  | sent | dead => simp [Row.early, Mark.row, setStatusRow, statusToStr]
  | failed err retryAt =>
    obtain ⟨hlt, hrange⟩ := hmk err retryAt rfl
    have hnext : ¬ retryAt.toRfc3339 ≤ K.toRfc3339 := fun hle => not_le.2 hlt ((toRfc3339_le_iff hrange hK).1 hle)
    simp [Row.early, Mark.row, setStatusRow, hnext]

section Service

variable {K : DateTime} (h : Service C d f clock) (h₀ : ReachableFromEmpty C d (f 0))
include h h₀

theorem Service.late_succ (hl : Late C d f clock K i) : Late C d f clock K (i + 1) := by
  refine ⟨fun k hk => hl.passed k (Nat.le_of_succ_le hk), fun v m err retryAt hx => ?_⟩
  rcases ((h.untroubled h₀ i v).life).marking hx rfl with hx | ⟨e, he⟩
  · exact hl.marking v m err retryAt hx
  · obtain ⟨cutoff, hcutoff, hlt⟩ := (hl.passed i (Nat.le_refl i)).cutoff
    exact (hlt.trans_le (Dispatcher.cutoff_le hcutoff)).trans_le (onError_le he)

theorem Service.late_mono (hl : Late C d f clock K n) (hi : n ≤ i) : Late C d f clock K i := by
  induction hi with
  | refl => exact hl
  | step _ ih => exact h.late_succ h₀ ih

/-- Once a tick has ended after that, it is late. -/
theorem Service.late (n : Nat) (hK : ∃ i, ∀ k, i ≤ k → Passed d f clock K k) :
    ∃ i, n ≤ i ∧ (f i).control = .polling ∧ Late C d f clock K i := by
  obtain ⟨j, hpassed⟩ := hK
  obtain ⟨i, hi, hpoll⟩ := h.polls h₀ (max n j)
  refine ⟨i, (Nat.le_max_left _ _).trans hi, hpoll, fun k hk => hpassed k ?_, fun v m err retryAt hx => ?_⟩
  · exact (Nat.le_max_right n j).trans (hi.trans hk)
  · rw [State.track, (h.exclusive h₀ i).no_slots (by rw [hpoll]; rfl)] at hx
    cases hx

/-- A row that is early late was so before. -/
theorem Service.early_before (hK : K.YearInRange) (hl : Late C d f clock K i) {k : String} {r' : Row}
    (hr' : (f (i + 1)).table.find k = some r') (he : r'.early K.toRfc3339 = true) :
    ∃ r, (f i).table.find k = some r ∧ r.early K.toRfc3339 = true := by
  have hexcl := h.exclusive h₀ i
  have hkept (htable : (f (i + 1)).table = (f i).table) :
      ∃ r, (f i).table.find k = some r ∧ r.early K.toRfc3339 = true := ⟨r', htable ▸ hr', he⟩
  obtain ⟨v, rfl⟩ : ∃ v, k = C.uuidText v := by
    obtain ⟨hmem, rfl⟩ := Table.find_eq_some.1 hr'
    exact (h.exclusive h₀ (i + 1)).canonical r' hmem
  cases (h.serves i).step.effect with
  | quiet _ htable | skipped _ htable | fetched _ _ htable => exact hkept htable
  | @enqueued mail hi _ hlog =>
    rw [Table.find_insert hi] at hr'
    split at hr'
    · cases hr'
      have hlate := (hl.passed i (Nat.le_refl i)).enqueued mail hlog
      have hrange : mail.nextAttemptAt.YearInRange :=
        h.written (i + 1) _ ⟨_, hlog ▸ List.mem_cons_self, by simp [Entry.written]⟩
      exact absurd ((toRfc3339_le_iff hrange hK).1 (Row.early_iff.1 he).2.2) (not_le.2 hlate)
    · exact ⟨r', hr', he⟩
  | @requeued p hp htable =>
    rw [htable, Table.find_update] at hr'
    obtain ⟨r, hr, rfl⟩ := Option.map_eq_some_iff.1 hr'
    refine ⟨r, hr, ?_⟩
    split at he
    · next hpr =>
      have hst := hp r hpr
      exact Row.early_iff.2 ⟨by simp [hst], by simp [hst], (Row.early_iff.1 he).2.2⟩
    · exact he
  | @claimed m due hc hm =>
    by_cases hv : v = m.id
    · obtain ⟨r, hr, hrow⟩ := find_setStatus_self hm
      rw [hv, hrow] at hr'
      cases hr'
      obtain ⟨r₀, hr₀, hco⟩ := (h.reachable h₀ i).reachable.row_of_slot (x := ⟨m, .fetched⟩)
        (by simp [State.slots, hc, Control.slots, fetchedSlots])
      obtain rfl := Option.some.inj (hr.symm.trans hr₀)
      have hnext : r.nextAttemptAt ≤ K.toRfc3339 := (Row.early_iff.1 he).2.2
      refine ⟨r, hv ▸ hr, Row.early_iff.2 ⟨?_, ?_, hnext⟩⟩ <;>
        rcases (hco.fetched rfl).2 with hst | hst <;> simp [hst]
    · exact ⟨r', (find_setStatus_other hv hm) ▸ hr', he⟩
  | @marked i' t mk ht hst hm _ hlog =>
    obtain ⟨⟨r, hr, hrow⟩, hother⟩ := Mark.run_ok hm
    by_cases hv : v = t.mail.id
    · rw [hv, hrow] at hr'
      cases hr'
      have hslot : ((f i).track C t.mail.id).slot = some ⟨t.mail, .running (.marking mk)⟩ := by
        have hget := (hexcl.get_setStage ht t.stage).1
        rw [Task.slot, hst] at hget
        exact hget
      rw [Row.early_of_mark hK fun err retryAt hmk => ?_] at he
      · cases he
      · subst hmk
        exact ⟨hl.marking _ _ _ _ hslot,
          h.written (i + 1) _ ⟨_, hlog ▸ List.mem_cons_self, by simp [Entry.written]⟩⟩
    · exact ⟨r', (hother v hv) ▸ hr', he⟩

theorem Service.early_kept (hK : K.YearInRange) (hl : Late C d f clock K n) (hi : n ≤ i) :
    ∀ k r', (f i).table.find k = some r' → r'.early K.toRfc3339 = true →
      ∃ r, (f n).table.find k = some r ∧ r.early K.toRfc3339 = true := by
  induction hi with
  | refl => exact fun k r' hr' he => ⟨r', hr', he⟩
  | step hi ih =>
    intro k r' hr' he
    obtain ⟨r, hr, he'⟩ := h.early_before h₀ hK (h.late_mono h₀ hl hi) hr' he
    exact ih k r hr he'

theorem Service.early_le (hK : K.YearInRange) (hl : Late C d f clock K n) (hi : n ≤ i) :
    (f i).early K.toRfc3339 ≤ (f n).early K.toRfc3339 :=
  Table.affected_le_of_find (h.early_kept h₀ hK hl hi)

/-- **Once a mail that waited for longer is held, fewer are left** when the tick has ended. -/
theorem Service.early_lt (hK : K.YearInRange) (hl : Late C d f clock K n) {r : Row}
    (hr : (f n).table.find (C.uuidText v) = some r) (he : r.early K.toRfc3339 = true) {a : Int} (hi : n ≤ i)
    (hheld : ((f i).track C v).InHand a) :
    ∃ p, i ≤ p ∧ (f p).control = .polling ∧ (f p).early K.toRfc3339 < (f n).early K.toRfc3339 := by
  obtain ⟨l, hil, m, mk, r₂, hx, -, -, hmarked, hlog⟩ := h.marks h₀ i hheld
  have hlate := h.late_mono h₀ hl (hi.trans hil)
  have hgone : (mk.row (clock l) r₂).early K.toRfc3339 = false := by
    refine Row.early_of_mark hK fun err retryAt hmk => ?_
    subst hmk
    have hmem : ⟨clock l, .marked v (.failed err retryAt)⟩ ∈ ((f (l + 1)).track C v).log := hlog ▸ List.mem_cons_self
    exact ⟨hlate.marking _ _ _ _ hx, h.written (l + 1) _ ⟨_, (List.mem_filter.1 hmem).1, by simp [Entry.written]⟩⟩
  obtain ⟨p, hp, hpoll⟩ := h.polls h₀ (l + 1)
  have hlt : (f (l + 1)).early K.toRfc3339 < (f n).early K.toRfc3339 :=
    Table.affected_lt_of_find (h.early_kept h₀ hK hl (by omega)) hr he fun r' hr' => by
      obtain rfl := Option.some.inj (hmarked.symm.trans hr')
      exact hgone
  exact ⟨p, by omega, hpoll, (h.early_le h₀ hK (h.late_succ h₀ hlate) hp).trans_lt hlt⟩

end Service

/-! ## A waiting mail -/

section Service

variable (h : Service C d f clock) (h₀ : ReachableFromEmpty C d (f 0))
include h h₀

/-- A waiting row stays as it is until its mail is claimed. -/
theorem Service.waits (hw : r.isWaiting = true) :
    Unless (fun i => (f i).table.find (C.uuidText u) = some r) fun i => ((f i).track C u).InHand r.attempts := by
  intro i hr
  have hrow : ((f i).track C u).row = some r := hr
  cases (h.untroubled h₀ i u).life.rowStep hrow with
  | same hr' => exact .inl hr'
  | requeued hst =>
    rw [Row.not_waiting_of_sending hst] at hw
    cases hw
  | claimed _ hx hr' => exact .inr ⟨⟨_, hx, rfl⟩, _, hr', Int.add_zero _⟩
  | marked hx =>
    obtain ⟨-, r', hr', hco⟩ := h.coherent h₀ i u _ hx
    obtain rfl := Option.some.inj (hrow.symm.trans hr')
    rw [Row.not_waiting_of_sending (hco.inFlight rfl).1] at hw
    cases hw

/-- The mails of a fetch are held. -/
theorem Service.holds {due : List Mail} {m : Mail} (hc : (f i).control = .claiming due) (hm : m ∈ due) :
    ∃ a, ((f i).track C m.id).InHand a ∧ ∀ r, (f i).table.find (C.uuidText m.id) = some r → r.attempts = a := by
  have hx : ((f i).track C m.id).slot = some ⟨m, .fetched⟩ := by
    refine (Keyed.get_eq_some (h.exclusive h₀ i).nodup).2 ⟨?_, rfl⟩
    rw [State.slots, hc]
    exact List.mem_append_left _ (List.mem_map_of_mem hm)
  obtain ⟨-, r, hr, -⟩ := h.coherent h₀ i m.id _ hx
  refine ⟨r.attempts, ⟨⟨_, hx, rfl⟩, r, hr, rfl⟩, fun r' hr' => ?_⟩
  obtain rfl := Option.some.inj (hr'.symm.trans hr)
  rfl

/-- A tick serves a waiting mail, or one that waited for longer. -/
theorem Service.serves_or_closer (hbatch : d.config.batchSize ≠ 0) {K : DateTime} (hK : K.YearInRange)
    (hw : r.isWaiting = true) (hnext : r.nextAttemptAt = K.toRfc3339)
    (hr : (f n).table.find (C.uuidText u) = some r) (hpoll : (f n).control = .polling)
    (hl : Late C d f clock K n) :
    ∃ i, n ≤ i ∧ (((f i).track C u).InHand r.attempts ∨
      ((f i).table.find (C.uuidText u) = some r ∧ (f i).control = .polling) ∧
        (f i).early K.toRfc3339 < (f n).early K.toRfc3339) := by
  obtain ⟨k, a, b, cutoff, ht⟩ := h.ticks h₀ hpoll
  have hnb : n ≤ b := ht.start.trans (ht.after.trans ht.before)
  rcases (h.waits h₀ hw).until hr hnb with hrb | ⟨j, hj, -, hheld⟩
  · have hdue : isDue (clock k) r = true := by
      obtain ⟨cutoff', hcutoff, hlt⟩ := (hl.passed k ht.start).cutoff
      simp only [Row.isWaiting, decide_eq_true_eq] at hw
      refine decide_eq_true ⟨hw, ?_⟩
      rw [hnext]
      exact (toRfc3339_le_iff hK (h.clock k)).2 (hlt.le.trans (Dispatcher.cutoff_le hcutoff))
    cases ht.onward with
    | fetchedNone hc hpoll' =>
      have hnone := h.serves b |>.fetches _ hc hpoll' r (Table.find_eq_some.1 hrb).1
      obtain ⟨rfl⟩ := Control.fetching.inj (hc.symm.trans ht.fetching)
      rw [hdue] at hnone
      cases hnone
    | @fetched tick scan due hc hscan hf hc' =>
      obtain rfl := Control.fetching.inj (hc.symm.trans ht.fetching)
      have hcanonical := (h.exclusive h₀ b).canonical
      by_cases hin : ∃ m ∈ due, m.id = u
      · obtain ⟨m, hm, rfl⟩ := hin
        obtain ⟨a, hheld, ha⟩ := h.holds h₀ hc' hm
        rcases h.waits h₀ hw b hrb with hrb' | hheld'
        · exact ⟨b + 1, by omega, .inl (ha r hrb' ▸ hheld)⟩
        · exact ⟨b + 1, by omega, .inl hheld'⟩
      · -- the batch is full of mails that waited for longer
        have hout : ∀ m ∈ due, m.id ≠ u := fun m hm hid => hin ⟨m, hm, hid⟩
        have hlen := (fetch_passes hcanonical hscan hf hrb hdue hout).1
        obtain ⟨m, hm⟩ : ∃ m, m ∈ due := by
          refine List.exists_mem_of_length_pos ?_
          rw [hlen]
          exact Nat.pos_of_ne_zero fun h0 => hbatch (UInt32.toNat_inj.1 h0)
        have hfront : due.takeWhile (fun m => m.id ≠ u) = due := List.takeWhile_eq_self_iff.2 (by simpa using hout)
        obtain ⟨r₁, hr₁, hw₁, hle⟩ := front_of_fetch hcanonical hscan hf hrb hw (hfront.symm ▸ hm)
        have hearly : r₁.early K.toRfc3339 = true := by
          simp only [Row.isWaiting, decide_eq_true_eq] at hw₁
          refine Row.early_iff.2 ⟨?_, ?_, hnext ▸ hle⟩ <;> rcases hw₁ with hst | hst <;> simp [hst]
        obtain ⟨a, hheld, -⟩ := h.holds h₀ hc' hm
        obtain ⟨p, hp, hpoll', hlt⟩ := h.early_lt h₀ hK (h.late_mono h₀ hl hnb) hr₁ hearly (Nat.le_succ b) hheld
        rcases (h.waits h₀ hw).until hrb (i := p) (by omega) with hrp | ⟨j, hj, -, hheld'⟩
        · exact ⟨p, by omega, .inr ⟨⟨hrp, hpoll'⟩, hlt.trans_le (h.early_le h₀ hK hl hnb)⟩⟩
        · exact ⟨j, by omega, .inl hheld'⟩
    | started hc | recovered hc | ticks hc | reclaimed hc =>
      rw [ht.fetching] at hc
      cases hc
    | inBatch hb =>
      rw [ht.fetching] at hb
      cases hb
  · exact ⟨j, hj.le, .inl hheld⟩

/-- **A waiting mail is served.** -/
theorem Service.claims (hbatch : d.config.batchSize ≠ 0) (hp : PassesRow C d f clock u) (hw : r.isWaiting = true) :
    LeadsTo (fun i => (f i).table.find (C.uuidText u) = some r) fun i => ((f i).track C u).InHand r.attempts := by
  intro n hr
  obtain ⟨K, hwritten, hnext⟩ := ((h.reachable h₀ n).rowWritten hr).next
  have hK := h.written n K hwritten
  obtain ⟨l, hl, hpoll, hlate⟩ := h.late h₀ n (hp n r hr K hK (.inl hnext.symm))
  rcases (h.waits h₀ hw).until hr hl with hrl | ⟨j, hj, -, hheld⟩
  · have hrank : LeadsTo (fun i => ((f i).table.find (C.uuidText u) = some r ∧ (f i).control = .polling) ∧ l ≤ i)
        fun i => ((f i).track C u).InHand r.attempts := by
      refine .rank (fun i => (f i).early K.toRfc3339) fun i hi => ?_
      obtain ⟨⟨hri, hpi⟩, hli⟩ := hi
      obtain ⟨j, hij, hj⟩ := h.serves_or_closer h₀ hbatch hK hw hnext hri hpi (h.late_mono h₀ hlate hli)
      exact ⟨j, hij, hj.imp id fun ⟨hrow, hlt⟩ => ⟨⟨hrow, hli.trans hij⟩, hlt⟩⟩
    obtain ⟨i, hi, hheld⟩ := hrank l ⟨⟨hrl, hpoll⟩, Nat.le_refl l⟩
    exact ⟨i, hl.trans hi, hheld⟩
  · exact ⟨j, hj.le, hheld⟩

end Service

/-! ## A mail that is being sent, or was left so -/

/-- The row is settled, or has more attempts than `a`. -/
def Track.Further (a : Int) (t : Track τ) : Prop := ∃ r, t.row = some r ∧ (r.final ∨ a < r.attempts)

theorem Track.Further.mark {mk : Mark} (hr' : t'.row = some (mk.row now r)) : t'.Further r.attempts := by
  refine ⟨_, hr', ?_⟩
  cases mk with
  | sent => exact .inl (.inl rfl)
  | dead => exact .inl (.inr rfl)
  | failed => exact .inr (Int.lt_succ _)

section Service

variable (h : Service C d f clock) (h₀ : ReachableFromEmpty C d (f 0))
include h h₀

/-- A row that is `sending` stays so until it is requeued or marked. -/
theorem Service.stays (hst : r.status = "sending") :
    Unless (fun i => (f i).table.find (C.uuidText u) = some r) fun i =>
      (∃ r', (f i).table.find (C.uuidText u) = some r' ∧ r'.isWaiting = true ∧ r'.attempts = r.attempts) ∨
        ((f i).track C u).Further r.attempts := by
  intro i hr
  have hrow : ((f i).track C u).row = some r := hr
  cases (h.untroubled h₀ i u).life.rowStep hrow with
  | same hr' => exact .inl hr'
  | requeued _ hr' => exact .inr (.inl ⟨_, hr', by simp [Row.isWaiting, requeueRow], rfl⟩)
  | claimed hx =>
    obtain ⟨-, r', hr', hco⟩ := h.coherent h₀ i u _ hx
    obtain rfl := Option.some.inj (hrow.symm.trans hr')
    have := (hco.fetched rfl).2
    simp [hst] at this
  | marked _ hr' => exact .inr (.inr (.mark hr'))

/-- A row that is `sending` is marked, or the reclaim of a late tick takes it back. -/
theorem Service.released (hp : PassesRow C d f clock u) (hst : r.status = "sending") :
    LeadsTo (fun i => (f i).table.find (C.uuidText u) = some r) fun i =>
      (∃ r', (f i).table.find (C.uuidText u) = some r' ∧ r'.isWaiting = true ∧ r'.attempts = r.attempts) ∨
        ((f i).track C u).Further r.attempts := by
  intro n hr
  obtain ⟨U, hwritten, hup⟩ := ((h.reachable h₀ n).rowWritten hr).updated
  have hU := h.written n U hwritten
  obtain ⟨l, hl, hpoll, hlate⟩ := h.late h₀ n (hp n r hr U hU (.inr hup.symm))
  obtain ⟨k, a, b, cutoff, ht⟩ := h.ticks h₀ hpoll
  rcases (h.stays h₀ hst).until hr (hl.trans (ht.start.trans ht.after)) with hra | ⟨j, hj, -, hq⟩
  · obtain ⟨cutoff', hcutoff, hlt⟩ := (hlate.passed k ht.start).cutoff
    obtain rfl := Option.some.inj (hcutoff.symm.trans ht.cutoff_eq)
    have hrange : cutoff'.YearInRange := hU.between (h.clock k) hlt.le (Dispatcher.cutoff_le hcutoff)
    have hstale : isStale cutoff' r = true := by
      refine decide_eq_true ⟨hst, ?_⟩
      rw [hup]
      exact (toRfc3339_lt_iff hU hrange).2 hlt
    have hnot := ht.reclaimed r (Table.find_eq_some.1 hra).1
    rw [hstale] at hnot
    cases hnot
  · exact ⟨j, hj.le, hq⟩

/-! ## Settled -/

/-- Each delivery brings a mail further. -/
theorem Service.further (hbatch : d.config.batchSize ≠ 0) (hp : PassesRow C d f clock u) :
    LeadsTo (fun i => (f i).table.find (C.uuidText u) = some r) fun i => ((f i).track C u).Further r.attempts := by
  have waiting {r' : Row} (hw : r'.isWaiting = true) : LeadsTo (fun i => (f i).table.find (C.uuidText u) = some r')
      fun i => ((f i).track C u).Further r'.attempts := by
    refine (h.claims h₀ hbatch hp hw).trans fun i hheld => ?_
    obtain ⟨j, hj, m, mk, r, -, -, ha, hr', -⟩ := h.marks h₀ i hheld
    exact ⟨j + 1, by omega, ha ▸ .mark hr'⟩
  intro n hr
  by_cases hw : r.isWaiting = true
  · exact waiting hw n hr
  by_cases hst : r.status = "sending"
  · obtain ⟨i, hi, ⟨r', hr', hw', ha⟩ | hfurther⟩ := h.released h₀ hp hst n hr
    · obtain ⟨j, hj, hfurther⟩ := waiting hw' i hr'
      exact ⟨j, hi.trans hj, ha ▸ hfurther⟩
    · exact ⟨i, hi, hfurther⟩
  · refine ⟨n, Nat.le_refl n, r, hr, .inl ?_⟩
    obtain ⟨st, hstatus⟩ := ((h.reachable h₀ n).rowWritten hr).status
    simp only [Row.isWaiting, decide_eq_true_eq, hstatus] at hw hst
    rw [Row.final, hstatus]
    cases st <;> simp [statusToStr] at hw hst ⊢

end Service

/-- **Every mail is settled.** In every run from an empty queue that only
fresh mails enter, in which from some state on nothing fails and the
dispatcher goes on: each mail that was enqueued, and whose times the clock
passes, becomes `sent`, or `dead` after `max_attempts` failures or for want
of a transport, and stays so. -/
theorem eventually_settled (h : Service C d f clock) (h₀ : ReachableFromEmpty C d (f 0)) (hmax : 1 ≤ d.maxAttempts)
    (hbatch : d.config.batchSize ≠ 0) (hfresh : ∀ n, AllFresh (f n).log) {e : Mail} (he : Enqueued e (f n).log)
    (hp : PassesRow C d f clock e.id) :
    ∃ i r, (∀ j, i ≤ j → (f j).table.find (C.uuidText e.id) = some r) ∧
      (r.status = "sent" ∨ r.status = "dead" ∧
        (count (Event.isFailureOf e.id) (f i).log = d.maxAttempts ∨ d.transportFor r.transport = none)) := by
  have hlife (i : Nat) : ((f i).track C e.id).Lifecycle d e.id := (h.reachable h₀ i).lifecycle hmax (hfresh i) e.id
  have hfailures (i : Nat) : ((f i).track C e.id).failures e.id = count (Event.isFailureOf e.id) (f i).log :=
    count_track fun _ => Event.about_of_isFailureOf
  obtain ⟨r, hr, -⟩ := ReachableFromEmpty.row_of_enqueued (h.reachable h₀ n) he
  have hsettles : LeadsTo (fun i => ∃ r, (f i).table.find (C.uuidText e.id) = some r)
      fun i => ∃ r, (f i).table.find (C.uuidText e.id) = some r ∧ r.final := by
    refine .rank (fun i => d.maxAttempts - count (Event.isFailureOf e.id) (f i).log) fun n hn => ?_
    obtain ⟨r, hr⟩ := hn
    obtain ⟨i, hi, r', hr', hfinal | hlt⟩ := h.further h₀ hbatch hp n hr
    · exact ⟨i, hi, .inl ⟨r', hr', hfinal⟩⟩
    · have hrow := (hlife n).row r hr
      have hrow' := (hlife i).row r' hr'
      have hattempts := hrow.attempts
      have hattempts' := hrow'.attempts
      rw [hfailures] at hattempts hattempts'
      by_cases hdead : r'.status = "dead"
      · exact ⟨i, hi, .inl ⟨r', hr', .inr hdead⟩⟩
      · have hbelow := hrow'.below hdead
        rw [hfailures] at hbelow
        exact ⟨i, hi, .inr ⟨⟨r', hr'⟩, by omega⟩⟩
  obtain ⟨i, -, r', hr', hfinal⟩ := hsettles n ⟨r, hr⟩
  refine ⟨i, r', fun j hj => ?_, ?_⟩
  · exact ((Steps.lives (h.exclusive h₀ i) (h.steps hj) e.id).final (h.coherent h₀ i e.id) hr' hfinal).1
  · refine hfinal.imp id fun hdead => ⟨hdead, ?_⟩
    have hcause := (((hlife i).row r' hr').dead hdead).2.2
    rwa [hfailures] at hcause

/-! ## A run

The letter that was reclaimed after the crash is sent at last, and then the
dispatcher has nothing to do. -/

def idleTime : DateTime := firstDay 2000

def sentTable : Mails where
  rows := [strayDead, sentAt (firstDay 7) (firstDay 1) (exampleMails 2), sentAt (firstDay 1001) (firstDay 1000)
    letterReclaimed, sentAt (firstDay 41) (firstDay 40) lateMail]
  primaryKey := by decide +kernel

def markedLog : List (Entry Unit) :=
  ⟨firstDay 1001, .marked ⟨3⟩ .sent⟩ :: ⟨firstDay 1001, .sendEnded ⟨3⟩ true⟩ :: resentState.log

/-- What a dispatcher with nothing to do does next. -/
def nextIdle (s : State Unit) : State Unit :=
  match s.control with
  | .polling =>
    if s.pollElapsed then
      { s with control := .reclaiming idleTime (firstDay 1880), pollElapsed := false }.emit idleTime [.tickStarted]
    else { s with pollElapsed := true }
  | .reclaiming tick _ => { s with control := .fetching tick }
  | .fetching _ => { s with control := .polling }.emit idleTime [.tickEnded 0]
  | _ => s

def idleRun : Nat → State Unit
  | 0 => ⟨sentTable, .polling, [], 8, false, ⟨firstDay 1001, .tickEnded 1⟩ :: markedLog⟩
  | n + 1 => nextIdle (idleRun n)

/-- A send returns Ok, its mail is marked, and the dispatcher polls on. -/
def servedRun : Nat → State Unit
  | 0 => resentState
  | 1 => { resentState with
      tasks := [⟨letterReclaimed, .marking .sent⟩]
      log := ⟨firstDay 1001, .sendEnded ⟨3⟩ true⟩ :: resentState.log }
  | 2 => ⟨sentTable, .claiming [], [⟨letterReclaimed, .returned⟩], 7, false, markedLog⟩
  | 3 => ⟨sentTable, .claiming [], [⟨letterReclaimed, .ended⟩], 8, false, markedLog⟩
  | 4 => ⟨sentTable, .joining 1, [⟨letterReclaimed, .ended⟩], 8, false, markedLog⟩
  | 5 => ⟨sentTable, .joining 1, [], 8, false, markedLog⟩
  | n + 6 => idleRun n

def servedClock (n : Nat) : DateTime := if n < 6 then firstDay 1001 else idleTime

/-- The states of a dispatcher with nothing to do, and what they have logged since. -/
inductive IsIdle (T : Mails) (log : List (Entry Unit)) : State Unit → Prop
  | mk {c : Control} {p : Bool} {ticks : List (Entry Unit)} :
      c = .polling ∨ c = .reclaiming idleTime (firstDay 1880) ∨ c = .fetching idleTime →
      (∀ x ∈ ticks, x.event = .tickStarted ∨ ∃ n, x.event = .tickEnded n) →
      IsIdle T log ⟨T, c, [], 8, p, ticks ++ log⟩

/-- A step that is neither a reclaim nor a fetch. -/
theorem Serves.of_step (hs : Step C d s now s') (hup : s'.control.isLive = true) (events : List (Event τ))
    (hlog : s'.log = events.map (fun e => ⟨now, e⟩) ++ s.log) (hevents : ∀ e ∈ events, e.isFault = false)
    (hb : s.control.beforeFetch = false) : Serves C d s now s' where
  step := hs
  up := hup
  faultless := ⟨events, hlog, hevents⟩
  reclaims tick cutoff hc := by
    rw [hc] at hb
    cases hb
  fetches tick hc := by
    rw [hc] at hb
    cases hb

theorem Row.final.not_due (h : r.final) : isStale now r = false ∧ isDue now r = false := by
  rcases h with hst | hst <;> simp [isStale, isDue, hst]

theorem fetchDue_none {T : Mails} (hT : ∀ r ∈ T, r.final) (limit : UInt32) :
    fetchDue C T.rows limit now = .ok [] := by
  have hnone : T.rows.filter (isDue now) = [] :=
    List.filter_eq_nil_iff.2 fun r hr => by simp [(hT r hr).not_due]
  simp [fetchDue, Table.select, hnone, pure, Except.pure]

theorem IsIdle.serves {T : Mails} {log : List (Entry Unit)} {s : State Unit} (hT : ∀ r ∈ T, r.final)
    (h : IsIdle T log s) :
    Serves textCodec exampleDispatcher s idleTime (nextIdle s) ∧ IsIdle T log (nextIdle s) := by
  obtain ⟨hc, hticks⟩ := h
  rename_i c p ticks
  have ticked (e : Event Unit) (he : e = .tickStarted ∨ ∃ n, e = .tickEnded n) :
      ∀ x ∈ (⟨idleTime, e⟩ : Entry Unit) :: ticks, x.event = .tickStarted ∨ ∃ n, x.event = .tickEnded n := by
    intro x hx
    rcases List.mem_cons.1 hx with rfl | hx
    · exact he
    · exact hticks x hx
  rcases hc with rfl | rfl | rfl
  · cases p with
    | true =>
      have hcutoff : exampleDispatcher.cutoff idleTime = some (firstDay 1880) := by decide
      exact ⟨.of_step (.tick rfl rfl hcutoff) rfl [.tickStarted] rfl (by simp [Event.isFault]) rfl,
        .mk (.inr (.inl rfl)) (ticked _ (.inl rfl))⟩
    | false => exact ⟨.of_step .elapse rfl [] rfl (by simp) rfl, .mk (.inl rfl) hticks⟩
  · refine ⟨⟨.reclaimFails rfl, rfl, ⟨[], rfl, by simp⟩, fun _ _ _ _ r hr => ?_, fun _ hf => by cases hf⟩,
      .mk (.inr (.inr rfl)) hticks⟩
    exact (hT r hr).not_due.1
  · have hf : fetchDue textCodec T.rows exampleDispatcher.config.batchSize idleTime = .ok [] := fetchDue_none hT _
    have hs : Step textCodec exampleDispatcher ⟨T, .fetching idleTime, [], 8, p, ticks ++ log⟩ idleTime _ :=
      .fetchNone rfl (.refl _) hf
    refine ⟨⟨hs, rfl, ⟨[.tickEnded 0], rfl, by simp [Event.isFault]⟩, fun _ _ hc => (by cases hc),
      fun tick _ _ r hr => ?_⟩, .mk (.inl rfl) (ticked _ (.inr ⟨0, rfl⟩))⟩
    exact (hT r hr).not_due.2

theorem sentTable_final : ∀ r ∈ sentTable, r.final := by
  intro r hr
  have hall : ∀ r ∈ sentTable.rows, r.status = "sent" ∨ r.status = "dead" := by decide +kernel
  exact hall r hr

theorem idleRun_isIdle (n : Nat) : IsIdle sentTable markedLog (idleRun n) := by
  induction n with
  | zero =>
    have hticks : ∀ x ∈ [(⟨firstDay 1001, .tickEnded 1⟩ : Entry Unit)],
        x.event = .tickStarted ∨ ∃ n, x.event = .tickEnded n := by simp
    exact .mk (.inl rfl) hticks
  | succ n ih => exact (ih.serves sentTable_final).2

theorem servedRun_serves (n : Nat) :
    Serves textCodec exampleDispatcher (servedRun n) (servedClock n) (servedRun (n + 1)) := by
  match n with
  | 0 =>
    have hs : Step textCodec exampleDispatcher (servedRun 0) (firstDay 1001) (servedRun 1) :=
      State.exec_step (a := .sendOk 0) rfl
    exact .of_step hs rfl [.sendEnded ⟨3⟩ true] rfl (by simp [Event.isFault]) rfl
  | 1 =>
    have hs : Step textCodec exampleDispatcher (servedRun 1) (firstDay 1001) (servedRun 2) :=
      State.exec_step (a := .mark 0 true) (by decide +kernel)
    exact .of_step hs rfl [.marked ⟨3⟩ .sent] rfl (by simp [Event.isFault]) rfl
  | 2 =>
    have hs : Step textCodec exampleDispatcher (servedRun 2) (firstDay 1001) (servedRun 3) :=
      State.exec_step (a := .finish 0) rfl
    exact .of_step hs rfl [] rfl (by simp) rfl
  | 3 => exact .of_step (.endClaims rfl) rfl [] rfl (by simp) rfl
  | 4 => exact .of_step (.joinOne rfl rfl rfl) rfl [] rfl (by simp) rfl
  | 5 => exact .of_step (.tickEnds rfl rfl) rfl [.tickEnded 1] rfl (by simp [Event.isFault]) rfl
  | n + 6 =>
    rw [servedClock, if_neg (by omega)]
    exact ((idleRun_isIdle n).serves sentTable_final).1

theorem IsIdle.log_mem {T : Mails} {log : List (Entry Unit)} {s : State Unit} (h : IsIdle T log s) {x : Entry Unit}
    (hx : x ∈ s.log) : x ∈ log ∨ x.event = .tickStarted ∨ ∃ n, x.event = .tickEnded n := by
  obtain ⟨-, hticks⟩ := h
  exact (List.mem_append.1 hx).symm.imp id (hticks x)

theorem IsIdle.table_eq {T : Mails} {log : List (Entry Unit)} {s : State Unit} (h : IsIdle T log s) :
    s.table = T := by
  cases h
  rfl

/-- It elapses at most once before it ticks on. -/
theorem IsIdle.moves {T : Mails} {log : List (Entry Unit)} {s : State Unit} (h : IsIdle T log s) :
    s.Moves (nextIdle s) ∨ (nextIdle s).Moves (nextIdle (nextIdle s)) := by
  obtain ⟨hc, -⟩ := h
  rename_i c p ticks
  rcases hc with rfl | rfl | rfl
  · cases p with
    | true => exact .inl (.inl fun hsame => by cases hsame)
    | false => exact .inr (.inl fun hsame => by cases hsame)
  · exact .inl (.inl fun hsame => by cases hsame)
  · exact .inl (.inl fun hsame => by cases hsame)

theorem nextIdle_log (s : State Unit) (mail : Mail) : (nextIdle s).log ≠ ⟨now, .enqueued mail⟩ :: s.log := by
  rw [nextIdle]
  split
  · split <;> simp [State.emit]
  · simp
  · simp [State.emit]
  · simp

/-- What the run has logged: the delivery, and ticks. -/
theorem servedRun_log (n : Nat) {x : Entry Unit} (hx : x ∈ (servedRun n).log) :
    x ∈ markedLog ∨ x.event = .tickStarted ∨ ∃ n, x.event = .tickEnded n := by
  match n with
  | 0 => exact .inl (List.mem_cons_of_mem _ (List.mem_cons_of_mem _ hx))
  | 1 => exact .inl (List.mem_cons_of_mem _ hx)
  | 2 | 3 | 4 | 5 => exact .inl hx
  | n + 6 => exact (idleRun_isIdle n).log_mem hx

theorem servedRun_written {K : DateTime} (h : WrittenIn (servedRun n).log K) : K.YearInRange := by
  have hall : ∀ x ∈ markedLog, ∀ at_ ∈ x.written, at_.YearInRange := by decide +kernel
  obtain ⟨x, hx, hK⟩ := h
  rcases servedRun_log n hx with hx | hx | ⟨k, hx⟩
  · exact hall x hx K hK
  · simp [Entry.written, hx] at hK
  · simp [Entry.written, hx] at hK

theorem servedRun_service : Service textCodec exampleDispatcher servedRun servedClock where
  serves := servedRun_serves
  moves n := by
    rcases (idleRun_isIdle n).moves with h | h
    · exact ⟨n + 6, Nat.le_add_right n 6, h⟩
    · exact ⟨n + 7, Nat.le_add_right n 7, h⟩
  clock i := by
    rw [servedClock]
    split <;> decide
  written _ _ hK := servedRun_written hK

/-- The letter's row says that it is being sent, and then that it was. -/
theorem servedRun_row (n : Nat) {r : Row} (hr : (servedRun n).table.find (textCodec.uuidText ⟨3⟩) = some r) :
    r.nextAttemptAt = (firstDay 36).toRfc3339 ∧
      (r.updatedAt = (firstDay 1000).toRfc3339 ∨ r.updatedAt = (firstDay 1001).toRfc3339) := by
  match n with
  | 0 | 1 =>
    cases hr
    exact ⟨rfl, .inl rfl⟩
  | 2 | 3 | 4 | 5 =>
    cases hr
    exact ⟨rfl, .inr rfl⟩
  | n + 6 =>
    rw [servedRun, (idleRun_isIdle n).table_eq] at hr
    cases hr
    exact ⟨rfl, .inr rfl⟩

theorem servedRun_passes : PassesRow textCodec exampleDispatcher servedRun servedClock ⟨3⟩ := by
  intro n r hr K hrange htime
  obtain ⟨hnext, hupdated⟩ := servedRun_row n hr
  have hK : K ≤ firstDay 1001 := by
    rw [← toRfc3339_le_iff hrange (by decide)]
    rcases htime with h | h
    · rw [h, hnext]
      decide +kernel
    · rcases hupdated with hu | hu
      · rw [h, hu]
        decide +kernel
      · rw [h, hu]
  refine ⟨6, fun k hk => ⟨⟨firstDay 1880, ?_, lt_of_le_of_lt hK (by decide)⟩, fun mail hlog => ?_⟩⟩
  · rw [servedClock, if_neg (by omega)]
    decide
  · obtain ⟨i, rfl⟩ := Nat.exists_eq_add_of_le' hk
    exact absurd hlog (nextIdle_log _ mail)

theorem servedRun_fresh (n : Nat) : AllFresh (servedRun n).log := by
  have hall : AllFresh markedLog := by decide +kernel
  intro x hx m hm
  rcases servedRun_log n hx with hx | hx | ⟨k, hx⟩
  · exact hall x hx m hm
  · rw [hx] at hm
    cases hm
  · rw [hx] at hm
    cases hm

theorem eventually_settled_example : ∃ i r,
    (∀ j, i ≤ j → (servedRun j).table.find (textCodec.uuidText letter.id) = some r) ∧
      (r.status = "sent" ∨ r.status = "dead" ∧
        (count (Event.isFailureOf letter.id) (servedRun i).log = exampleDispatcher.maxAttempts ∨
          exampleDispatcher.transportFor r.transport = none)) :=
  eventually_settled (n := 0) (e := letter) servedRun_service reachable_resentState (by decide) (by decide)
    servedRun_fresh enqueued_resentState servedRun_passes

end OxidRelay
