/-
Facts about the queue's rows and statements: what is encoded decodes to
the same mail (`rowToMail_mailToRow`), what a decoded mail says of its row
(`RowOf`), every statement key by key (`find_setStatus` and below), and
the rows that any sequence of queue operations can leave (`runOps_written`).
-/
import OxidRelay.Sqlite
import OxidRelay.TimeFacts

namespace OxidRelay

open DateTime

/-! ## Encoding and decoding -/

@[simp] theorem Address.ofJson_toJson (a : Address) : Address.ofJson a.toJson = some a := by
  obtain ⟨email, name⟩ := a
  cases name <;> simp [Address.toJson, Address.ofJson, List.lookup_cons]

theorem Address.mapM_ofJson_toJson (as : List Address) : (as.map toJson).mapM ofJson = some as := by
  induction as with
  | nil => rfl
  | cons a as ih =>
    simp only [List.map_cons, List.mapM_cons, ofJson_toJson, ih]
    rfl

@[simp] theorem statusFromStr_statusToStr (s : MailStatus) : statusFromStr (statusToStr s) = .ok s := by
  cases s <;> decide

theorem statusToStr_inj {s t : MailStatus} : statusToStr s = statusToStr t ↔ s = t := by
  cases s <;> cases t <;> decide

theorem statusFromStr_ok {raw : String} {s : MailStatus} (h : statusFromStr raw = .ok s) : raw = statusToStr s := by
  simp only [statusFromStr] at h
  repeat' split at h
  all_goals first
    | (cases h; assumption)
    | cases h

theorem asU32_toNat {n : Int} (h₀ : 0 ≤ n) (h : n < 4294967296) : ((asU32 n).toNat : Int) = n := by
  have hlt : (n % 4294967296).toNat < 2 ^ 32 := by omega
  rw [asU32, UInt32.toNat_ofNat_of_lt' hlt]
  omega

@[simp] theorem asU32_natCast (a : UInt32) : asU32 (a.toNat : Int) = a := by
  have := asU32_toNat (n := (a.toNat : Int)) (by omega) (by have := a.toNat_lt; omega)
  exact UInt32.toNat_inj.1 (by exact_mod_cast this)

theorem parseTime_toRfc3339 (C : Codec) {d : DateTime} (h : d.YearInRange) : parseTime C d.toRfc3339 = .ok d := by
  rw [parseTime, parseFromRfc3339_toRfc3339 h]

theorem Except.mapError_eq_ok {ε ε' α : Type} {f : ε → ε'} {x : Except ε α} {a : α} :
    x.mapError f = .ok a ↔ x = .ok a := by
  cases x <;> simp [Except.mapError]

theorem decodeError_eq_ok {α : Type} {column : String} {x : Except String α} {a : α} :
    decodeError column x = .ok a ↔ x = .ok a := Except.mapError_eq_ok

theorem Except.bind_eq_ok {ε α β : Type} {x : Except ε α} {f : α → Except ε β} {b : β} :
    (x >>= f) = .ok b ↔ ∃ a, x = .ok a ∧ f a = .ok b := by
  cases x <;> simp [bind, Except.bind]

/-- What a row says of the mail it was decoded to. The texts are those the
mail would be written with; only the attempts may have passed 32 bits. -/
structure RowOf (C : Codec) (m : Mail) (r : Row) : Prop where
  parseSender : C.parseAddress r.sender = .ok m.fromAddr
  parseRecipients : C.parseAddresses r.recipients = .ok m.toAddrs
  parseId : C.parseUuid r.id = .ok m.id
  subject : r.subject = m.subject
  body : r.body = m.body
  transport : r.transport = m.transport
  status : r.status = statusToStr m.status
  attempts : asU32 r.attempts = m.attempts
  lastError : r.lastError = m.lastError
  parseCreated : parseTime C r.createdAt = .ok m.createdAt
  parseUpdated : parseTime C r.updatedAt = .ok m.updatedAt
  parseNext : parseTime C r.nextAttemptAt = .ok m.nextAttemptAt

theorem rowOf_of_rowToMail {C : Codec} {r : Row} {m : Mail} (h : rowToMail C r = .ok m) : RowOf C m r := by
  simp only [rowToMail, Except.bind_eq_ok, decodeError_eq_ok] at h
  obtain ⟨_, h1, _, h2, _, h3, _, h4, _, h5, _, h6, _, h7, h⟩ := h
  cases h
  exact ⟨h1, h2, h3, rfl, rfl, rfl, statusFromStr_ok h4, rfl, rfl, h5, h6, h7⟩

theorem rowToMail_of_rowOf {C : Codec} {r : Row} {m : Mail} (h : RowOf C m r) : rowToMail C r = .ok m := by
  obtain ⟨h1, h2, h3, h4, h5, h6, h7, h8, h9, h10, h11, h12⟩ := h
  simp only [rowToMail, Except.bind_eq_ok, decodeError_eq_ok]
  refine ⟨_, h1, _, h2, _, h3, _, by rw [h7, statusFromStr_statusToStr], _, h10, _, h11, _, h12, ?_⟩
  rw [h4, h5, h6, h8, h9]
  rfl

theorem parseSender_toJson (C : Codec) (a : Address) :
    C.parseAddress (C.objectText a.toJson) = .ok a := by
  rw [Codec.parseAddress, C.parseObject_objectText, Except.bind_eq_ok]
  exact ⟨_, rfl, by rw [Address.ofJson_toJson]; rfl⟩

theorem parseRecipients_toJson (C : Codec) (as : List Address) :
    C.parseAddresses (C.arrayText (as.map Address.toJson)) = .ok as := by
  rw [Codec.parseAddresses, C.parseArray_arrayText, Except.bind_eq_ok]
  exact ⟨_, rfl, by rw [Address.mapM_ofJson_toJson]; rfl⟩

/-- **The encoder and the decoder agree** on every mail whose timestamps
have years from 0 to 9999. -/
theorem rowToMail_mailToRow (C : Codec) {m : Mail} (hc : m.createdAt.YearInRange) (hu : m.updatedAt.YearInRange)
    (hn : m.nextAttemptAt.YearInRange) : rowToMail C (mailToRow C m) = .ok m :=
  rowToMail_of_rowOf ⟨parseSender_toJson C _, parseRecipients_toJson C _, C.parseUuid_uuidText _, rfl, rfl, rfl,
    rfl, asU32_natCast _, rfl, parseTime_toRfc3339 C hc, parseTime_toRfc3339 C hu, parseTime_toRfc3339 C hn⟩

/-! ## Rows the queue writes -/

/-- A row that the queue's statements can leave when each timestamp they
write satisfies `P`. -/
structure Row.Written (C : Codec) (P : DateTime → Prop) (r : Row) : Prop where
  id : ∃ u, r.id = C.uuidText u
  sender : ∃ a : Address, r.sender = C.objectText a.toJson
  recipients : ∃ as : List Address, r.recipients = C.arrayText (as.map Address.toJson)
  status : ∃ s, r.status = statusToStr s
  created : ∃ d, P d ∧ r.createdAt = d.toRfc3339
  updated : ∃ d, P d ∧ r.updatedAt = d.toRfc3339
  next : ∃ d, P d ∧ r.nextAttemptAt = d.toRfc3339

section Written

variable {C : Codec} {P : DateTime → Prop} {r : Row}

theorem Row.Written.mailToRow {m : Mail} (hc : P m.createdAt) (hu : P m.updatedAt) (hn : P m.nextAttemptAt) :
    (mailToRow C m).Written C P :=
  ⟨⟨_, rfl⟩, ⟨_, rfl⟩, ⟨_, rfl⟩, ⟨_, rfl⟩, ⟨_, hc, rfl⟩, ⟨_, hu, rfl⟩, ⟨_, hn, rfl⟩⟩

theorem Row.Written.setStatusRow (h : r.Written C P) {now status err bump} {next : Option DateTime}
    (hnow : P now) (hnext : ∀ d ∈ next, P d) :
    (SqliteQueue.setStatusRow now status err bump next r).Written C P := by
  refine ⟨h.id, h.sender, h.recipients, ⟨_, rfl⟩, h.created, ⟨_, hnow, rfl⟩, ?_⟩
  cases next with
  | none => exact h.next
  | some d => exact ⟨d, hnext d rfl, rfl⟩

theorem Row.Written.requeueRow (h : r.Written C P) {now} (hnow : P now) :
    (SqliteQueue.requeueRow now r).Written C P :=
  ⟨h.id, h.sender, h.recipients, ⟨.pending, rfl⟩, h.created, ⟨_, hnow, rfl⟩, h.next⟩

/-- A row written with years from 0 to 9999 decodes, to the mail whose
timestamps are the ones written. -/
theorem Row.Written.decodes (h : r.Written C YearInRange) :
    ∃ m, rowToMail C r = .ok m ∧ r.id = C.uuidText m.id ∧ m.updatedAt.YearInRange ∧
      r.updatedAt = m.updatedAt.toRfc3339 ∧ m.nextAttemptAt.YearInRange ∧
      r.nextAttemptAt = m.nextAttemptAt.toRfc3339 := by
  obtain ⟨⟨u, hu⟩, ⟨a, ha⟩, ⟨as, has⟩, ⟨s, hs⟩, ⟨dc, hdc, hc⟩, ⟨du, hdu, hup⟩, ⟨dn, hdn, hn⟩⟩ := h
  refine ⟨⟨u, a, as, r.subject, r.body, r.transport, s, asU32 r.attempts, r.lastError, dc, du, dn⟩,
    rowToMail_of_rowOf ⟨?_, ?_, ?_, rfl, rfl, rfl, hs, rfl, rfl, ?_, ?_, ?_⟩, hu, hdu, hup, hdn, hn⟩
  · rw [ha]; exact parseSender_toJson C a
  · rw [has]; exact parseRecipients_toJson C as
  · rw [hu]; exact C.parseUuid_uuidText u
  · rw [hc]; exact parseTime_toRfc3339 C hdc
  · rw [hup]; exact parseTime_toRfc3339 C hdu
  · rw [hn]; exact parseTime_toRfc3339 C hdn

end Written

/-! ## Statements, key by key -/

namespace SqliteQueue

variable {C : Codec} {T U : Mails}

theorem enqueue_ok {mail m : Mail} (h : enqueue C T mail = .ok (m, U)) :
    m = mail ∧ T.insert (mailToRow C mail) = some U := by
  simp only [enqueue] at h
  split at h
  · next hi => cases h; exact ⟨rfl, hi⟩
  · cases h

theorem setStatus_ok {now id status err bump next} (h : setStatus C T now id status err bump next = .ok U) :
    (∃ r, T.find (C.uuidText id) = some r) ∧
      ∀ k, U.find k = (T.find k).map fun r =>
        if r.id = C.uuidText id then setStatusRow now status err bump next r else r := by
  simp only [setStatus] at h
  split at h
  · cases h
  · next hne =>
    cases h
    refine ⟨?_, fun k => ?_⟩
    · cases hf : T.find (C.uuidText id) with
      | some r => exact ⟨r, rfl⟩
      | none =>
        refine absurd (Table.affected_eq_zero.2 fun r hr => ?_) hne
        simpa using Table.find_eq_none.1 hf r hr
    · rw [Table.find_update T _ _ (setStatusRow_id now status err bump next)]; simp

theorem setStatus_of_find {now id status err bump next} {r : Row} (h : T.find (C.uuidText id) = some r) :
    ∃ U, setStatus C T now id status err bump next = .ok U := by
  obtain ⟨hr, hid⟩ := Table.find_eq_some.1 h
  refine ⟨_, if_neg fun h0 => ?_⟩
  simpa [hid] using Table.affected_eq_zero.1 h0 r hr

/-- The row of a status write. -/
theorem find_setStatus_self {now id status err bump next}
    (h : setStatus C T now id status err bump next = .ok U) :
    ∃ r, T.find (C.uuidText id) = some r ∧
      U.find (C.uuidText id) = some (setStatusRow now status err bump next r) := by
  obtain ⟨⟨r, hr⟩, hU⟩ := setStatus_ok h
  refine ⟨r, hr, ?_⟩
  rw [hU, hr, Option.map_some, if_pos (Table.find_eq_some.1 hr).2]

/-- No other row changes. -/
theorem find_setStatus_other {now id id' status err bump next} (hne : id' ≠ id)
    (h : setStatus C T now id status err bump next = .ok U) :
    U.find (C.uuidText id') = T.find (C.uuidText id') := by
  rw [(setStatus_ok h).2]
  cases hf : T.find (C.uuidText id') with
  | none => rfl
  | some r =>
    have hid := (Table.find_eq_some.1 hf).2
    rw [Option.map_some, if_neg fun he => hne (C.uuidText_inj.1 (hid.symm.trans he))]

theorem find_requeueSending (now : DateTime) (k : String) :
    (requeueSending T now).1.find k = (T.find k).map fun r => if isSending r then requeueRow now r else r :=
  Table.find_update T _ _ (requeueRow_id now) k

theorem find_requeueStaleSending (now cutoff : DateTime) (k : String) :
    (requeueStaleSending T now cutoff).1.find k =
      (T.find k).map fun r => if isStale cutoff r then requeueRow now r else r :=
  Table.find_update T _ _ (requeueRow_id now) k

end SqliteQueue

/-! ## Any sequence of queue operations -/

/-- The writing operations of the `Queue` trait; `now` is the clock value
that the operation reads. -/
inductive QueueOp
  | enqueue (mail : Mail)
  | markSending (now : DateTime) (id : MailId)
  | markSent (now : DateTime) (id : MailId)
  | markFailed (now : DateTime) (id : MailId) (error : String) (retryAt : DateTime)
  | markDead (now : DateTime) (id : MailId) (error : String)
  | requeueSending (now : DateTime)
  | requeueStaleSending (now olderThan : DateTime)
  deriving DecidableEq

/-- The table after an operation; one that answers an error changes nothing. -/
def QueueOp.run (C : Codec) (T : Mails) : QueueOp → Mails
  | .enqueue mail => ((SqliteQueue.enqueue C T mail).toOption.map Prod.snd).getD T
  | .markSending now id => (SqliteQueue.markSending C T now id).toOption.getD T
  | .markSent now id => (SqliteQueue.markSent C T now id).toOption.getD T
  | .markFailed now id error retryAt => (SqliteQueue.markFailed C T now id error retryAt).toOption.getD T
  | .markDead now id error => (SqliteQueue.markDead C T now id error).toOption.getD T
  | .requeueSending now => (SqliteQueue.requeueSending T now).1
  | .requeueStaleSending now olderThan => (SqliteQueue.requeueStaleSending T now olderThan).1

/-- The instants an operation writes. -/
def QueueOp.times : QueueOp → List DateTime
  | .enqueue mail => [mail.createdAt, mail.updatedAt, mail.nextAttemptAt]
  | .markSending now _ | .markSent now _ | .markDead now _ _ | .requeueSending now
  | .requeueStaleSending now _ => [now]
  | .markFailed now _ _ retryAt => [now, retryAt]

def runOps (C : Codec) (ops : List QueueOp) : Mails := ops.foldl (QueueOp.run C) Table.empty

section Ops

variable {C : Codec} {P : DateTime → Prop} {T : Mails}

/-- Every row of the table is written. -/
def AllWritten (C : Codec) (P : DateTime → Prop) (T : Mails) : Prop := ∀ r ∈ T, r.Written C P

theorem AllWritten.update (h : AllWritten C P T) {p : Row → Bool} {f : Row → Row} (hf : ∀ r, (f r).id = r.id)
    (hw : ∀ r, r.Written C P → (f r).Written C P) : AllWritten C P (T.update p f hf) := by
  intro r hr
  obtain ⟨r', hr', rfl⟩ := Table.mem_update.1 hr
  split
  · exact hw r' (h r' hr')
  · exact h r' hr'

theorem AllWritten.setStatus (h : AllWritten C P T) {now id status err bump} {next : Option DateTime}
    (hnow : P now) (hnext : ∀ d ∈ next, P d) :
    AllWritten C P ((SqliteQueue.setStatus C T now id status err bump next).toOption.getD T) := by
  simp only [SqliteQueue.setStatus]
  split
  · exact h
  · exact h.update (SqliteQueue.setStatusRow_id now status err bump next) fun r hr => hr.setStatusRow hnow hnext

theorem AllWritten.run (h : AllWritten C P T) {op : QueueOp} (hop : ∀ t ∈ op.times, P t) :
    AllWritten C P (op.run C T) := by
  cases op with
  | enqueue mail =>
    simp only [QueueOp.run]
    cases he : SqliteQueue.enqueue C T mail with
    | error _ => exact h
    | ok p =>
      obtain ⟨-, hi⟩ := SqliteQueue.enqueue_ok (m := p.1) (U := p.2) he
      intro r hr
      rcases (Table.mem_insert hi).1 hr with hr | rfl
      · exact h r hr
      · exact .mailToRow (hop _ (by simp [QueueOp.times])) (hop _ (by simp [QueueOp.times]))
          (hop _ (by simp [QueueOp.times]))
  | markSending now id => exact h.setStatus (hop now (by simp [QueueOp.times])) (by simp)
  | markSent now id => exact h.setStatus (hop now (by simp [QueueOp.times])) (by simp)
  | markFailed now id error retryAt =>
    exact h.setStatus (hop now (by simp [QueueOp.times])) (by simpa using hop retryAt (by simp [QueueOp.times]))
  | markDead now id error => exact h.setStatus (hop now (by simp [QueueOp.times])) (by simp)
  | requeueSending now | requeueStaleSending now _ =>
    exact h.update (SqliteQueue.requeueRow_id now) fun r hr => hr.requeueRow (hop now (by simp [QueueOp.times]))

/-- **Every table the queue's operations can build holds written rows.** -/
theorem runOps_written (C : Codec) {ops : List QueueOp} (h : ∀ op ∈ ops, ∀ t ∈ op.times, P t) :
    AllWritten C P (runOps C ops) := by
  suffices ∀ T, AllWritten C P T → AllWritten C P (ops.foldl (QueueOp.run C) T) from
    this _ fun r hr => absurd hr Table.not_mem_empty
  induction ops with
  | nil => exact fun T hT => hT
  | cons op ops ih =>
    exact fun T hT => ih (fun o ho => h o (by simp [ho])) _ (hT.run (h op (by simp)))

end Ops

end OxidRelay
