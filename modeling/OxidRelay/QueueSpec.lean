/-
What a queue is to its callers (`core::queue`), and that the SQLite queue
is one. To its callers a queue is a map from ids to mails: a transition
changes one mail, a requeue the mails of a kind, and a fetch answers due
mails, oldest first (`QueueStep`). The SQLite queue keeps text in rows
(`SqliteStep`). Each of its replies, over any sequence of calls with
instants of years 0 to 9999, is one that the map could have given
(`sqlite_refines_queue`).
-/
import OxidRelay.BadRow
import OxidRelay.Exclusive
import OxidRelay.Lib.Lts

namespace OxidRelay

open DateTime SqliteQueue

/-! ## Calls and replies -/

/-- A call of the `Queue` trait. -/
inductive QueueCall
  | write (op : QueueOp)
  | fetchDue (limit : UInt32) (now : DateTime)
  | get (id : MailId)
  deriving DecidableEq

inductive QueueReply
  | mail (m : Mail)
  | mails (ms : List Mail)
  | done
  | count (n : Nat)
  | failed (err : CoreError)
  deriving DecidableEq

def QueueReply.of {α : Type} (f : α → QueueReply) : Except CoreError α → QueueReply
  | .ok a => f a
  | .error err => .failed err

/-- The instants of a call. -/
def QueueCall.times : QueueCall → List DateTime
  | .write (.requeueStaleSending now olderThan) => [now, olderThan]
  | .write op => op.times
  | .fetchDue _ now => [now]
  | .get _ => []

/-! ## The SQLite queue -/

/-- What a writing operation answers. -/
def QueueOp.reply (C : Codec) (T : Mails) : QueueOp → QueueReply
  | .enqueue mail => .of (fun r => .mail r.1) (SqliteQueue.enqueue C T mail)
  | .markSending now id => .of (fun _ => .done) (SqliteQueue.markSending C T now id)
  | .markSent now id => .of (fun _ => .done) (SqliteQueue.markSent C T now id)
  | .markFailed now id error retryAt => .of (fun _ => .done) (SqliteQueue.markFailed C T now id error retryAt)
  | .markDead now id error => .of (fun _ => .done) (SqliteQueue.markDead C T now id error)
  | .requeueSending now => .count (SqliteQueue.requeueSending T now).2
  | .requeueStaleSending now olderThan => .count (SqliteQueue.requeueStaleSending T now olderThan).2

inductive SqliteStep (C : Codec) : Mails → QueueCall × QueueReply → Mails → Prop
  | write (op : QueueOp) : SqliteStep C T (.write op, op.reply C T) (op.run C T)
  | fetchDue : scan.Perm T.rows →
      SqliteStep C T (.fetchDue limit now, .of .mails (SqliteQueue.fetchDue C scan limit now)) T
  | get (id : MailId) : SqliteStep C T (.get id, .of .mail (SqliteQueue.get C T id)) T

def sqliteQueue (C : Codec) : Lts Mails (QueueCall × QueueReply) where
  init T := T = Table.empty
  step := SqliteStep C

/-! ## The queue of its callers -/

/-- The mails by their ids. -/
abbrev MailMap := MailId → Option Mail

/-- The transition of one mail that an operation is. -/
def QueueOp.transition : QueueOp → Option (MailId × (Mail → Mail))
  | .markSending now id => some (id, Mail.transition now .sending none false none)
  | .markSent now id => some (id, Mail.transition now .sent none false none)
  | .markFailed now id error retryAt => some (id, Mail.transition now .failed (some error) true (some retryAt))
  | .markDead now id error => some (id, Mail.transition now .dead (some error) true none)
  | .enqueue _ | .requeueSending _ | .requeueStaleSending _ _ => none

/-- The mails that an operation resets, and to what. -/
def QueueOp.reset : QueueOp → Option ((Mail → Bool) × (Mail → Mail))
  | .requeueSending now => some (fun m => m.status = .sending, Mail.requeued now)
  | .requeueStaleSending now olderThan => some (Mail.isStale olderThan, Mail.requeued now)
  | _ => none

/-- The ids of the mails of a kind. -/
def MailMap.ids (q : MailMap) (p : Mail → Bool) : Set MailId := { u | ∃ m, q u = some m ∧ p m = true }

/-- As many due mails as the limit lets through, the oldest, in order. -/
structure MailMap.Due (q : MailMap) (limit : Nat) (now : DateTime) (due : List Mail) : Prop where
  length : due.length = min limit (q.ids (Mail.isDue now)).ncard
  distinct : (due.map Mail.id).Nodup
  isDue : ∀ m ∈ due, q m.id = some m ∧ m.isDue now = true
  sorted : due.Pairwise fun a b => a.nextAttemptAt ≤ b.nextAttemptAt
  oldest : ∀ u m, q u = some m → m.isDue now = true → m ∉ due → ∀ m' ∈ due, m'.nextAttemptAt ≤ m.nextAttemptAt

/-- The calls of a queue; `idText` is how an error names a mail, `taken` what
it says of an id that is taken. -/
inductive QueueStep (idText : MailId → String) (taken : String) : MailMap → QueueCall × QueueReply → MailMap → Prop
  | enqueue : q mail.id = none →
      QueueStep idText taken q (.write (.enqueue mail), .mail mail) (Function.update q mail.id (some mail))
  | duplicate : q mail.id = some m →
      QueueStep idText taken q (.write (.enqueue mail), .failed (.queue taken)) q
  | mark {id : MailId} {f : Mail → Mail} : op.transition = some (id, f) → q id = some m →
      QueueStep idText taken q (.write op, .done) (Function.update q id (some (f m)))
  | unknown {id : MailId} {f : Mail → Mail} : op.transition = some (id, f) → q id = none →
      QueueStep idText taken q (.write op, .failed (.notFound (idText id))) q
  | requeue {p : Mail → Bool} {f : Mail → Mail} : op.reset = some (p, f) →
      QueueStep idText taken q (.write op, .count (MailMap.ids q p).ncard) fun u =>
        (q u).map fun m => if p m then f m else m
  | fetchDue : MailMap.Due q limit.toNat now due → QueueStep idText taken q (.fetchDue limit now, .mails due) q
  | get {id : MailId} : q id = some m → QueueStep idText taken q (.get id, .mail m) q
  | missing {id : MailId} : q id = none → QueueStep idText taken q (.get id, .failed (.notFound (idText id))) q

def mailQueue (idText : MailId → String) (taken : String) : Lts MailMap (QueueCall × QueueReply) where
  init q := q = fun _ => none
  step := QueueStep idText taken

/-! ## Rows and mails -/

variable {C : Codec} {T U : Mails} {q : MailMap} {u : MailId} {r : Row} {m : Mail} {now : DateTime}

structure Mail.InRange (m : Mail) : Prop where
  created : m.createdAt.YearInRange
  updated : m.updatedAt.YearInRange
  next : m.nextAttemptAt.YearInRange

/-- The row of the mail of id `u`. -/
structure Stored (C : Codec) (u : MailId) (r : Row) (m : Mail) : Prop where
  encodes : Encodes C m r
  id : m.id = u
  range : m.InRange

structure Represents (C : Codec) (T : Mails) (q : MailMap) : Prop where
  canonical : Canonical C T
  rows : ∀ u r, T.find (C.uuidText u) = some r → ∃ m, q u = some m ∧ Stored C u r m
  mails : ∀ u m, q u = some m → ∃ r, T.find (C.uuidText u) = some r ∧ Stored C u r m

theorem Stored.decodes (h : Stored C u r m) : rowToMail C r = .ok m :=
  h.encodes.rowToMail_iff.2 ⟨rfl, h.range.created, h.range.updated, h.range.next⟩

theorem Stored.setStatusRow (h : Stored C u r m) (hnow : now.YearInRange) (status err bump) {next : Option DateTime}
    (hnext : ∀ t ∈ next, t.YearInRange) :
    Stored C u (setStatusRow now status err bump next r) (m.transition now status err bump next) := by
  refine ⟨h.encodes.setStatusRow now status err bump next, h.id, h.range.created, hnow, ?_⟩
  cases next with
  | none => exact h.range.next
  | some t => exact hnext t rfl

theorem Stored.requeueRow (h : Stored C u r m) (hnow : now.YearInRange) :
    Stored C u (requeueRow now r) (m.requeued now) :=
  ⟨h.encodes.requeueRow now, h.id, h.range.created, hnow, h.range.next⟩

namespace Represents

theorem empty : Represents C Table.empty fun _ => none where
  canonical r hr := absurd hr Table.not_mem_empty
  rows u r hr := by cases hr
  mails u m hm := by cases hm

theorem find_none (h : Represents C T q) (hq : q u = none) : T.find (C.uuidText u) = none := by
  cases hr : T.find (C.uuidText u) with
  | none => rfl
  | some r =>
    obtain ⟨m, hm, -⟩ := h.rows u r hr
    rw [hq] at hm
    cases hm

/-- Rewriting one row and its mail. -/
theorem update (h : Represents C T q) (hU : Canonical C U) {r' : Row} {m' : Mail}
    (hself : U.find (C.uuidText u) = some r')
    (hother : ∀ v, v ≠ u → U.find (C.uuidText v) = T.find (C.uuidText v)) (hs : Stored C u r' m') :
    Represents C U (Function.update q u (some m')) where
  canonical := hU
  rows v r hr := by
    by_cases hv : v = u
    · subst hv
      cases hself.symm.trans hr
      exact ⟨m', Function.update_self .., hs⟩
    · rw [hother v hv] at hr
      rw [Function.update_of_ne hv]
      exact h.rows v r hr
  mails v m hm := by
    by_cases hv : v = u
    · subst hv
      rw [Function.update_self] at hm
      cases hm
      exact ⟨r', hself, hs⟩
    · rw [Function.update_of_ne hv] at hm
      rw [hother v hv]
      exact h.mails v m hm

/-! ## Each call -/

theorem enqueue (h : Represents C T q) {mail : Mail} (hmail : mail.InRange) :
    ∃ q', QueueStep C.uuidText C.duplicateError q (.write (.enqueue mail), (QueueOp.enqueue mail).reply C T) q' ∧
      Represents C ((QueueOp.enqueue mail).run C T) q' := by
  cases hq : q mail.id with
  | some m =>
    obtain ⟨r, hr, -⟩ := h.mails _ m hq
    have henq : SqliteQueue.enqueue C T mail = .error (.queue C.duplicateError) := by
      unfold SqliteQueue.enqueue
      cases hi : T.insert (mailToRow C mail) with
      | none => rfl
      | some U =>
        have hnew : T.find (C.uuidText mail.id) = none := Table.insert_new hi
        rw [hr] at hnew
        cases hnew
    refine ⟨q, ?_, ?_⟩
    · simp only [QueueOp.reply, henq, QueueReply.of]
      exact .duplicate hq
    · simp only [QueueOp.run, henq]
      exact h
  | none =>
    obtain ⟨U, hU⟩ := Option.isSome_iff_exists.1 (Table.insert_isSome (r := mailToRow C mail) (h.find_none hq))
    have henq : SqliteQueue.enqueue C T mail = .ok (mail, U) := by simp only [SqliteQueue.enqueue, hU]
    have hfind (k : String) := Table.find_insert hU k
    refine ⟨Function.update q mail.id (some mail), ?_, ?_⟩
    · simp only [QueueOp.reply, henq, QueueReply.of]
      exact .enqueue hq
    · simp only [QueueOp.run, henq]
      refine h.update (h.canonical.enqueue henq) ((hfind _).trans (if_pos rfl)) (fun v hv => ?_)
        ⟨.mailToRow C mail, rfl, hmail⟩
      exact (hfind _).trans (if_neg fun he => hv (C.uuidText_inj.1 he.symm))

/-- A status transition. -/
theorem setStatus (h : Represents C T q) (hnow : now.YearInRange) {id : MailId} {status err bump}
    {next : Option DateTime} (hnext : ∀ t ∈ next, t.YearInRange) :
    (q id = none ∧ SqliteQueue.setStatus C T now id status err bump next = .error (.notFound (C.uuidText id))) ∨
    ∃ m U, q id = some m ∧ SqliteQueue.setStatus C T now id status err bump next = .ok U ∧
      Represents C U (Function.update q id (some (m.transition now status err bump next))) := by
  cases hq : q id with
  | none =>
    refine .inl ⟨rfl, if_pos (Table.affected_eq_zero.2 fun r hr => ?_)⟩
    simpa using Table.find_eq_none.1 (h.find_none hq) r hr
  | some m =>
    obtain ⟨r, hr, hs⟩ := h.mails _ m hq
    obtain ⟨U, hU⟩ : ∃ U, SqliteQueue.setStatus C T now id status err bump next = .ok U := setStatus_of_find hr
    obtain ⟨r', hr', hself⟩ := find_setStatus_self hU
    cases hr.symm.trans hr'
    exact .inr ⟨m, U, rfl, hU, h.update (h.canonical.setStatus hU) hself
      (fun v hv => find_setStatus_other hv hU) (hs.setStatusRow hnow status err bump hnext)⟩

/-- The rows of a kind are as many as the mails of it. -/
theorem affected (h : Represents C T q) {p : Row → Bool} {p' : Mail → Bool}
    (hp : ∀ u r m, Stored C u r m → p r = p' m) : T.affected p = (q.ids p').ncard := by
  have himage : { k | ∃ r, T.find k = some r ∧ p r = true } = C.uuidText '' q.ids p' := by
    ext k
    refine ⟨fun hk => ?_, fun hk => ?_⟩
    · obtain ⟨r, hr, hpr⟩ := hk
      obtain ⟨hmem, rfl⟩ := Table.find_eq_some.1 hr
      obtain ⟨u, hu⟩ := h.canonical r hmem
      rw [hu] at hr ⊢
      obtain ⟨m, hm, hs⟩ := h.rows u r hr
      exact ⟨u, ⟨m, hm, hp u r m hs ▸ hpr⟩, rfl⟩
    · obtain ⟨u, ⟨m, hm, hpm⟩, rfl⟩ := hk
      obtain ⟨r, hr, hs⟩ := h.mails u m hm
      exact ⟨r, hr, (hp u r m hs).trans hpm⟩
  have hinj : Function.Injective C.uuidText := fun u v huv => C.uuidText_inj.1 huv
  rw [Table.affected_eq_ncard, himage, Set.ncard_image_of_injective _ hinj]

/-- A requeue. -/
theorem requeue (h : Represents C T q) (hnow : now.YearInRange) {p : Row → Bool} {p' : Mail → Bool}
    (hp : ∀ u r m, Stored C u r m → p r = p' m) :
    Represents C (T.update p _ (requeueRow_id now)) fun u =>
      (q u).map fun m => if p' m then m.requeued now else m := by
  have hstored {u : MailId} {r : Row} {m : Mail} (hs : Stored C u r m) :
      Stored C u (if p r then SqliteQueue.requeueRow now r else r) (if p' m then m.requeued now else m) := by
    rw [hp u r m hs]
    split
    · exact hs.requeueRow hnow
    · exact hs
  refine ⟨h.canonical.update (requeueRow_id now), fun u r hr => ?_, fun u m hm => ?_⟩
  · rw [Table.find_update] at hr
    obtain ⟨r₀, hr₀, rfl⟩ := Option.map_eq_some_iff.1 hr
    obtain ⟨m, hm, hs⟩ := h.rows u r₀ hr₀
    exact ⟨_, by rw [hm]; rfl, hstored hs⟩
  · obtain ⟨m₀, hm₀, rfl⟩ := Option.map_eq_some_iff.1 hm
    obtain ⟨r, hr, hs⟩ := h.mails u m₀ hm₀
    exact ⟨_, by rw [Table.find_update, hr]; rfl, hstored hs⟩

/-- Each row has its mail. -/
theorem exists_mail (h : Represents C T q) : ∃ f : Row → Mail, ∀ r ∈ T,
    r.id = C.uuidText (f r).id ∧ q (f r).id = some (f r) ∧ Stored C (f r).id r (f r) := by
  have hex : ∀ r ∈ T, ∃ m : Mail, r.id = C.uuidText m.id ∧ q m.id = some m ∧ Stored C m.id r m := by
    intro r hr
    obtain ⟨u, hu⟩ := h.canonical r hr
    obtain ⟨m, hm, hs⟩ := h.rows u r (hu ▸ Table.find_self hr)
    obtain rfl := hs.id
    exact ⟨m, hu, hm, hs⟩
  choose! f hf using hex
  exact ⟨f, hf⟩

/-- A fetch. -/
theorem fetchDue (h : Represents C T q) (hnow : now.YearInRange) (limit : UInt32) {scan : List Row}
    (hscan : scan.Perm T.rows) :
    ∃ due, SqliteQueue.fetchDue C scan limit now = .ok due ∧ q.Due limit.toNat now due := by
  obtain ⟨f, hf⟩ := h.exists_mail
  have hdue : ∀ r ∈ T, SqliteQueue.isDue now r = (f r).isDue now := fun r hr =>
    (hf r hr).2.2.encodes.isDue_eq (fun _ => (hf r hr).2.2.range.next) hnow
  have hle : ∀ r ∈ T, ∀ r' ∈ T, SqliteQueue.isDue now r = true → SqliteQueue.isDue now r' = true →
      r.nextAttemptAt ≤ r'.nextAttemptAt → (f r).nextAttemptAt ≤ (f r').nextAttemptAt := by
    intro r hr r' hr' _ _ hle
    have hs := (hf r hr).2.2
    have hs' := (hf r' hr').2.2
    rwa [hs.encodes.next, hs'.encodes.next, toRfc3339_le_iff hs.range.next hs'.range.next] at hle
  have hdec : ∀ r ∈ Table.select scan (SqliteQueue.isDue now) Row.nextAttemptAt limit.toNat,
      rowToMail C r = .ok (f r) := fun r hr =>
    (hf r ((Table.select_spec hscan _ _ _).2.2.1 r hr).1).2.2.decodes
  obtain ⟨due, hok, hfetched⟩ := fetchDue_of_select hscan (fun r hr => (hf r hr).1) hdue hle hdec
  have hmem (m : Mail) : m ∈ T.rows.map f ↔ q m.id = some m := by
    refine ⟨fun hm => ?_, fun hm => ?_⟩
    · obtain ⟨r, hr, rfl⟩ := List.mem_map.1 hm
      exact (hf r hr).2.1
    · obtain ⟨r, hr, -⟩ := h.mails _ m hm
      obtain ⟨hrT, hid⟩ := Table.find_eq_some.1 hr
      have hsame : (f r).id = m.id := C.uuidText_inj.1 ((hf r hrT).1.symm.trans hid)
      have hq := (hf r hrT).2.1
      rw [hsame, hm] at hq
      exact List.mem_map.2 ⟨r, hrT, (Option.some.inj hq).symm⟩
  have hcount : ((T.rows.map f).filter (Mail.isDue now)).length = (q.ids (Mail.isDue now)).ncard := by
    rw [filter_decoded hdue, List.length_map]
    exact h.affected fun u r m hs => hs.encodes.isDue_eq (fun _ => hs.range.next) hnow
  refine ⟨due, hok, ⟨hcount ▸ hfetched.length, hfetched.distinct, fun m hm => ?_, hfetched.sorted,
    fun u m hm hd hnot => ?_⟩⟩
  · obtain ⟨hstored, hd⟩ := hfetched.isDue m hm
    exact ⟨(hmem m).1 hstored, hd⟩
  · obtain ⟨r, -, hs⟩ := h.mails u m hm
    exact hfetched.oldest m ((hmem m).2 (hs.id ▸ hm)) hd hnot

/-- A lookup. -/
theorem get (h : Represents C T q) (id : MailId) :
    QueueStep C.uuidText C.duplicateError q (.get id, .of .mail (SqliteQueue.get C T id)) q := by
  unfold SqliteQueue.get
  cases hq : q id with
  | none =>
    rw [h.find_none hq]
    exact .missing hq
  | some m =>
    obtain ⟨r, hr, hs⟩ := h.mails id m hq
    rw [hr]
    dsimp only
    rw [hs.decodes]
    exact .get hq

/-- A call that marks a mail. -/
theorem mark (h : Represents C T q) (hnow : now.YearInRange) {id : MailId} {status err bump}
    (next : Option DateTime) (hnext : ∀ t ∈ next, t.YearInRange) {op : QueueOp}
    (hop : op.transition = some (id, Mail.transition now status err bump next))
    (hrun : op.run C T = (SqliteQueue.setStatus C T now id status err bump next).toOption.getD T)
    (hreply : op.reply C T = .of (fun _ => .done) (SqliteQueue.setStatus C T now id status err bump next)) :
    ∃ q', QueueStep C.uuidText C.duplicateError q (.write op, op.reply C T) q' ∧ Represents C (op.run C T) q' := by
  rw [hrun, hreply]
  rcases h.setStatus hnow hnext with hnone | hsome
  · obtain ⟨hq, herr⟩ := hnone
    rw [herr]
    exact ⟨q, .unknown hop hq, h⟩
  · obtain ⟨m, U, hq, hok, hU⟩ := hsome
    rw [hok]
    exact ⟨_, .mark hop hq, hU⟩

end Represents

theorem Stored.isSending_eq (h : Stored C u r m) : isSending r = decide (m.status = .sending) := by
  have hs : r.status = "sending" ↔ m.status = .sending := h.encodes.status .sending
  rw [isSending, decide_eq_decide]
  exact hs

theorem Stored.isStale_eq (h : Stored C u r m) {olderThan : DateTime} (ho : olderThan.YearInRange) :
    SqliteQueue.isStale olderThan r = m.isStale olderThan := by
  have hs : r.status = "sending" ↔ m.status = .sending := h.encodes.status .sending
  simp only [SqliteQueue.isStale, Mail.isStale, hs, h.encodes.updated, toRfc3339_lt_iff h.range.updated ho]

/-- **Each writing operation is one of the map.** -/
theorem Represents.write (h : Represents C T q) (op : QueueOp)
    (ht : ∀ t ∈ (QueueCall.write op).times, t.YearInRange) :
    ∃ q', QueueStep C.uuidText C.duplicateError q (.write op, op.reply C T) q' ∧ Represents C (op.run C T) q' := by
  cases op with
  | enqueue mail =>
    simp only [QueueCall.times, QueueOp.times, List.forall_mem_cons] at ht
    exact h.enqueue ⟨ht.1, ht.2.1, ht.2.2.1⟩
  | markSending now id =>
    exact h.mark (ht now List.mem_cons_self) none (by simp) rfl rfl rfl
  | markSent now id =>
    exact h.mark (ht now List.mem_cons_self) none (by simp) rfl rfl rfl
  | markFailed now id error retryAt =>
    have hretry := ht retryAt (List.mem_cons_of_mem _ List.mem_cons_self)
    exact h.mark (ht now List.mem_cons_self) (some retryAt) (by simpa using hretry) rfl rfl rfl
  | markDead now id error =>
    exact h.mark (ht now List.mem_cons_self) none (by simp) rfl rfl rfl
  | requeueSending now =>
    have hkind : ∀ u r m, Stored C u r m → isSending r = decide (m.status = .sending) :=
      fun u r m hs => hs.isSending_eq
    refine ⟨_, ?_, h.requeue (ht now List.mem_cons_self) hkind⟩
    simp only [QueueOp.reply, SqliteQueue.requeueSending, h.affected hkind]
    exact .requeue rfl
  | requeueStaleSending now olderThan =>
    have holder := ht olderThan (List.mem_cons_of_mem _ List.mem_cons_self)
    have hkind : ∀ u r m, Stored C u r m → SqliteQueue.isStale olderThan r = m.isStale olderThan :=
      fun u r m hs => hs.isStale_eq holder
    refine ⟨_, ?_, h.requeue (ht now List.mem_cons_self) hkind⟩
    simp only [QueueOp.reply, SqliteQueue.requeueStaleSending, h.affected hkind]
    exact .requeue rfl

/-! ## Refinement -/

theorem sqlite_simulation (C : Codec) : (sqliteQueue C).Simulation (mailQueue C.uuidText C.duplicateError)
    (fun l => ∀ t ∈ l.1.times, t.YearInRange) (Represents C) where
  init T hT := by
    obtain rfl : T = Table.empty := hT
    exact ⟨_, rfl, .empty⟩
  step T l T' q hl h hstep := by
    cases hstep with
    | write op => exact h.write op hl
    | fetchDue hscan =>
      obtain ⟨due, hok, hdue⟩ := h.fetchDue (hl _ List.mem_cons_self) _ hscan
      rw [hok]
      exact ⟨q, .fetchDue hdue, h⟩
    | get id => exact ⟨q, h.get id, h⟩

/-- **The SQLite queue is a queue.** Whatever calls are made on it, in any
order, with instants of years 0 to 9999, and in whatever order SQLite meets
its rows: its replies are those of a map from ids to mails. -/
theorem sqlite_refines_queue (C : Codec) {trace : List (QueueCall × QueueReply)}
    (ht : trace ∈ (sqliteQueue C).traces) (htimes : ∀ l ∈ trace, ∀ t ∈ l.1.times, t.YearInRange) :
    trace ∈ (mailQueue C.uuidText C.duplicateError).traces :=
  (sqlite_simulation C).traces ⟨ht, htimes⟩

/-! ## Calls on an empty queue -/

/-- The reply to a call on rows scanned as they are stored, and the table after it. -/
def QueueCall.answer (C : Codec) (T : Mails) : QueueCall → QueueReply × Mails
  | .write op => (op.reply C T, op.run C T)
  | .fetchDue limit now => (.of .mails (SqliteQueue.fetchDue C T.rows limit now), T)
  | .get id => (.of .mail (SqliteQueue.get C T id), T)

theorem QueueCall.answer_step (C : Codec) (T : Mails) (call : QueueCall) :
    SqliteStep C T (call, (call.answer C T).1) (call.answer C T).2 := by
  cases call with
  | write op => exact .write op
  | fetchDue => exact .fetchDue (List.Perm.refl _)
  | get id => exact .get id

/-- The calls with their replies. -/
def answers (C : Codec) : Mails → List QueueCall → List (QueueCall × QueueReply)
  | _, [] => []
  | T, call :: calls => (call, (call.answer C T).1) :: answers C (call.answer C T).2 calls

theorem answers_trace {trace : List (QueueCall × QueueReply)} (h : (sqliteQueue C).Trace trace T)
    (calls : List QueueCall) : trace ++ answers C T calls ∈ (sqliteQueue C).traces := by
  induction calls generalizing trace T with
  | nil => exact ⟨T, by simpa [answers] using h⟩
  | cons call calls ih =>
    have := ih (h.snoc (call.answer_step C T))
    rwa [List.append_assoc] at this

/-- The mail of the fifth second of the example. -/
def fifthMail : Mail := { exampleMails 1 with nextAttemptAt := firstDay 5 }

/-- A day in the life of a queue. -/
def exampleCalls : List QueueCall :=
  [.write (.enqueue (exampleMails 0)), .write (.enqueue fifthMail),
    .write (.enqueue (exampleMails 0)), .write (.markSending (firstDay 6) ⟨2⟩),
    .write (.markSending (firstDay 6) ⟨0⟩), .fetchDue 64 (firstDay 6),
    .write (.requeueStaleSending (firstDay 200) (firstDay 80)), .fetchDue 1 (firstDay 200),
    .fetchDue 64 (firstDay 200), .write (.markFailed (firstDay 201) ⟨0⟩ "451" (firstDay 231)),
    .fetchDue 64 (firstDay 202), .write (.requeueSending (firstDay 202)), .get ⟨0⟩, .get ⟨2⟩]

/-- The first of its mails when it was requeued, and when it has failed. -/
def requeuedMail : Mail := { exampleMails 0 with updatedAt := firstDay 200 }

def failedMail : Mail :=
  { exampleMails 0 with
    status := .failed
    attempts := 1
    lastError := some "451"
    updatedAt := firstDay 201
    nextAttemptAt := firstDay 231 }

def exampleReplies : List QueueReply :=
  [.mail (exampleMails 0), .mail fifthMail, .failed (.queue textCodec.duplicateError),
    .failed (.notFound (textCodec.uuidText ⟨2⟩)), .done, .mails [fifthMail], .count 1, .mails [requeuedMail],
    .mails [requeuedMail, fifthMail], .done, .mails [fifthMail], .count 0, .mail failedMail,
    .failed (.notFound (textCodec.uuidText ⟨2⟩))]

/-- What the calls answer: an id that is taken and one that is unknown, a
reset of one mail, fetches in order and up to the limit, a failure. -/
theorem sqlite_refines_queue_example :
    exampleCalls.zip exampleReplies ∈ (mailQueue textCodec.uuidText textCodec.duplicateError).traces := by
  have hanswers : answers textCodec Table.empty exampleCalls = exampleCalls.zip exampleReplies := by decide +kernel
  have htrace := answers_trace (.nil rfl) exampleCalls (C := textCodec)
  rw [hanswers, List.nil_append] at htrace
  exact sqlite_refines_queue textCodec htrace (by decide +kernel)

end OxidRelay
