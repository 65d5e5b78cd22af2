/-
The SQLite queue (`oxid-relay-queue-sqlite`): the `mails` table as the
text, integers and nulls that SQLite stores, the encoder of `enqueue`, the
decoder `row_to_mail`, and one function for each statement the queue runs.

What serde_json, the UUID crate and the error texts of chrono and sqlx
contribute is the parameter `Codec`, whose fields carry what the queue
relies on: what was written is read back. Instants are written and read by `OxidRelay.Time`.

A statement that SQLite cannot execute changes nothing and answers an
error; the functions here are the statements that were executed.
-/
import OxidRelay.Lib.Table
import OxidRelay.Message

namespace OxidRelay

open DateTime

/-! ## Text formats -/

/-- A JSON object whose values are strings or null. -/
abbrev JsonObject := List (String × Option String)

/-- The text formats of the libraries the queue stores with. -/
structure Codec where
  /-- `Uuid::to_string`. -/
  uuidText : Uuid → String
  /-- `Uuid::parse_str`. -/
  parseUuid : String → Except String Uuid
  /-- `serde_json::to_string` of an object. -/
  objectText : JsonObject → String
  parseObject : String → Except String JsonObject
  /-- `serde_json::to_string` of a list of objects. -/
  arrayText : List JsonObject → String
  parseArray : String → Except String (List JsonObject)
  /-- What serde_json says of a text whose objects are no addresses. -/
  addressError : String → String
  /-- What `parse_from_rfc3339` says of a text it does not read. -/
  timeError : String → String
  /-- What sqlx says of an INSERT whose id the table has. -/
  duplicateError : String
  /-- `{:?}` of a string. -/
  debugText : String → String
  parseUuid_uuidText : ∀ u, parseUuid (uuidText u) = .ok u
  parseObject_objectText : ∀ o, parseObject (objectText o) = .ok o
  parseArray_arrayText : ∀ os, parseArray (arrayText os) = .ok os

theorem Codec.uuidText_inj (C : Codec) {u v : Uuid} : C.uuidText u = C.uuidText v ↔ u = v := by
  constructor
  · intro h
    have := C.parseUuid_uuidText u
    rw [h, C.parseUuid_uuidText] at this
    cases this; rfl
  · rintro rfl; rfl

/-- `Serialize` of an address: a name that is none is skipped. -/
def Address.toJson (a : Address) : JsonObject :=
  ("email", some a.email) :: match a.name with
    | none => []
    | some name => [("name", some name)]

/-- `Deserialize` of an address: a missing name is none. -/
def Address.ofJson (o : JsonObject) : Option Address :=
  match o.lookup "email" with
  | some (some email) => some ⟨email, (o.lookup "name").join⟩
  | _ => none

/-- `serde_json::from_str` of an address. -/
def Codec.parseAddress (C : Codec) (raw : String) : Except String Address := do
  let o ← C.parseObject raw
  match Address.ofJson o with
  | some a => return a
  | none => throw (C.addressError raw)

/-- `serde_json::from_str` of a list of addresses. -/
def Codec.parseAddresses (C : Codec) (raw : String) : Except String (List Address) := do
  let os ← C.parseArray raw
  match os.mapM Address.ofJson with
  | some as => return as
  | none => throw (C.addressError raw)

/-! ## Rows -/

/-- A row of `mails`, by column. -/
structure Row where
  id : String
  sender : String
  recipients : String
  subject : String
  body : String
  transport : Option String
  status : String
  attempts : Int
  lastError : Option String
  createdAt : String
  updatedAt : String
  nextAttemptAt : String
  deriving DecidableEq

/-- The table, `id` its primary key. -/
abbrev Mails := Table Row String Row.id

/-- Maps a status to its stored representation. -/
def statusToStr : MailStatus → String
  | .pending => "pending"
  | .sending => "sending"
  | .sent => "sent"
  | .failed => "failed"
  | .dead => "dead"

/-- Parses a stored status. -/
def statusFromStr (raw : String) : Except CoreError MailStatus :=
  if raw = "pending" then .ok .pending
  else if raw = "sending" then .ok .sending
  else if raw = "sent" then .ok .sent
  else if raw = "failed" then .ok .failed
  else if raw = "dead" then .ok .dead
  else .error (.queue ("unknown status: " ++ raw))

/-- `attempts as u32`, of an `i64`: the low 32 bits. -/
def asU32 (n : Int) : UInt32 := UInt32.ofNat (n % 4294967296).toNat

/-- Parses an RFC 3339 timestamp from storage. -/
def parseTime (C : Codec) (raw : String) : Except CoreError DateTime :=
  match parseFromRfc3339 raw with
  | some d => .ok d
  | none => .error (.queue ("decode timestamp: " ++ C.timeError raw))

/-- The decoding error of a column. -/
def decodeError {α : Type} (column : String) (x : Except String α) : Except CoreError α :=
  x.mapError fun err => .queue ("decode " ++ column ++ ": " ++ err)

/-- Reconstructs a mail from a row. -/
def rowToMail (C : Codec) (row : Row) : Except CoreError Mail := do
  let fromAddr ← decodeError "sender" (C.parseAddress row.sender)
  let toAddrs ← decodeError "recipients" (C.parseAddresses row.recipients)
  let id ← decodeError "id" (C.parseUuid row.id)
  let status ← statusFromStr row.status
  let createdAt ← parseTime C row.createdAt
  let updatedAt ← parseTime C row.updatedAt
  let nextAttemptAt ← parseTime C row.nextAttemptAt
  return {
    id, fromAddr, toAddrs, status, createdAt, updatedAt, nextAttemptAt
    subject := row.subject
    body := row.body
    transport := row.transport
    attempts := asU32 row.attempts
    lastError := row.lastError }

/-- The row `enqueue` binds for a mail. -/
def mailToRow (C : Codec) (mail : Mail) : Row where
  id := C.uuidText mail.id
  sender := C.objectText mail.fromAddr.toJson
  recipients := C.arrayText (mail.toAddrs.map Address.toJson)
  subject := mail.subject
  body := mail.body
  transport := mail.transport
  status := statusToStr mail.status
  attempts := mail.attempts.toNat
  lastError := mail.lastError
  createdAt := mail.createdAt.toRfc3339
  updatedAt := mail.updatedAt.toRfc3339
  nextAttemptAt := mail.nextAttemptAt.toRfc3339

/-! ## Statements -/

namespace SqliteQueue

/-- INSERT of a mail, which fails on an id the table has. -/
def enqueue (C : Codec) (T : Mails) (mail : Mail) : Except CoreError (Mail × Mails) :=
  match T.insert (mailToRow C mail) with
  | some T' => .ok (mail, T')
  | none => .error (.queue C.duplicateError)

/-- What `set_status` sets in its row; a null `next_attempt_at` keeps the
old value (COALESCE). -/
def setStatusRow (now : DateTime) (status : MailStatus) (lastError : Option String) (bumpAttempts : Bool)
    (nextAttemptAt : Option DateTime) (r : Row) : Row :=
  { r with
    status := statusToStr status
    lastError := lastError
    updatedAt := now.toRfc3339
    attempts := r.attempts + if bumpAttempts then 1 else 0
    nextAttemptAt := (nextAttemptAt.map toRfc3339).getD r.nextAttemptAt }

theorem setStatusRow_id (now : DateTime) (status lastError bumpAttempts nextAttemptAt) (r : Row) :
    (setStatusRow now status lastError bumpAttempts nextAttemptAt r).id = r.id := rfl

/-- Applies a status transition, at the clock value `now`. -/
def setStatus (C : Codec) (T : Mails) (now : DateTime) (id : MailId) (status : MailStatus)
    (lastError : Option String) (bumpAttempts : Bool) (nextAttemptAt : Option DateTime) :
    Except CoreError Mails :=
  let hasId := fun r : Row => decide (r.id = C.uuidText id)
  if T.affected hasId = 0 then .error (.notFound (C.uuidText id))
  else .ok (T.update hasId _ (setStatusRow_id now status lastError bumpAttempts nextAttemptAt))

def markSending (C : Codec) (T : Mails) (now : DateTime) (id : MailId) : Except CoreError Mails :=
  setStatus C T now id .sending none false none

def markSent (C : Codec) (T : Mails) (now : DateTime) (id : MailId) : Except CoreError Mails :=
  setStatus C T now id .sent none false none

def markFailed (C : Codec) (T : Mails) (now : DateTime) (id : MailId) (error : String) (retryAt : DateTime) :
    Except CoreError Mails :=
  setStatus C T now id .failed (some error) true (some retryAt)

def markDead (C : Codec) (T : Mails) (now : DateTime) (id : MailId) (error : String) : Except CoreError Mails :=
  setStatus C T now id .dead (some error) true none

/-- The condition of `fetch_due`. -/
def isDue (now : DateTime) (r : Row) : Bool :=
  (r.status = "pending" ∨ r.status = "failed") ∧ r.nextAttemptAt ≤ now.toRfc3339

/-- Up to `limit` due mails, oldest first, when every one of them decodes.
`scan` is the table in the order SQLite meets its rows, which decides
among equal keys. -/
def fetchDue (C : Codec) (scan : List Row) (limit : UInt32) (now : DateTime) : Except CoreError (List Mail) :=
  (Table.select scan (isDue now) Row.nextAttemptAt limit.toNat).mapM (rowToMail C)

/-- What both requeue statements set. -/
def requeueRow (now : DateTime) (r : Row) : Row := { r with status := "pending", updatedAt := now.toRfc3339 }

theorem requeueRow_id (now : DateTime) (r : Row) : (requeueRow now r).id = r.id := rfl

def isSending (r : Row) : Bool := r.status = "sending"

/-- Resets in-flight mails to pending; answers their number. -/
def requeueSending (T : Mails) (now : DateTime) : Mails × Nat :=
  (T.update isSending _ (requeueRow_id now), T.affected isSending)

def isStale (olderThan : DateTime) (r : Row) : Bool := r.status = "sending" ∧ r.updatedAt < olderThan.toRfc3339

/-- Resets the mails in flight since before `olderThan`; answers their number. -/
def requeueStaleSending (T : Mails) (now olderThan : DateTime) : Mails × Nat :=
  (T.update (isStale olderThan) _ (requeueRow_id now), T.affected (isStale olderThan))

def get (C : Codec) (T : Mails) (id : MailId) : Except CoreError Mail :=
  match T.find (C.uuidText id) with
  | some row => rowToMail C row
  | none => .error (.notFound (C.uuidText id))

end SqliteQueue

end OxidRelay
