/-
Mail messages and their delivery state (`core::message`), and the errors
of the core (`core::error`).
-/
import OxidRelay.Lib.Str
import OxidRelay.Time

namespace OxidRelay

/-! ## Errors -/

inductive CoreError
  | invalidMail (message : String)
  | notFound (message : String)
  | transport (message : String)
  | queue (message : String)
  deriving DecidableEq

/-- The `Display` text of an error. -/
def CoreError.toString : CoreError → String
  | .invalidMail m => "invalid mail: " ++ m
  | .notFound m => "mail not found: " ++ m
  | .transport m => "transport error: " ++ m
  | .queue m => "queue error: " ++ m

/-! ## Messages -/

structure Uuid where
  bits : BitVec 128
  deriving DecidableEq, Inhabited

/-- Unique identifier of a queued mail. -/
abbrev MailId := Uuid

/-- A mail address with an optional display name. -/
structure Address where
  email : String
  name : Option String
  deriving DecidableEq, Inhabited

def Address.new (email : String) : Address := ⟨email, none⟩

/-- Delivery state of a mail inside the queue. -/
inductive MailStatus
  | pending
  | sending
  | sent
  | failed
  | dead
  deriving DecidableEq, Inhabited

/-- Payload used to enqueue a new mail. -/
structure NewMail where
  /-- `from`, a keyword of Lean. -/
  fromAddr : Address
  /-- `to`. -/
  toAddrs : List Address
  subject : String
  body : String
  transport : Option String
  deriving DecidableEq

def NewMail.validate (new : NewMail) : Except CoreError Unit :=
  if Str.isEmpty (Str.trim new.fromAddr.email) then .error (.invalidMail "sender address is empty")
  else if new.toAddrs = [] then .error (.invalidMail "no recipients given")
  else if Str.isEmpty (Str.trim new.subject) then .error (.invalidMail "subject is empty")
  else .ok ()

/-- A mail as stored in the queue. -/
structure Mail where
  id : MailId
  fromAddr : Address
  toAddrs : List Address
  subject : String
  body : String
  transport : Option String
  status : MailStatus
  attempts : UInt32
  lastError : Option String
  createdAt : DateTime
  updatedAt : DateTime
  nextAttemptAt : DateTime
  deriving DecidableEq, Inhabited

/-- Builds a queued mail from a validated payload. -/
def Mail.fromNew (new : NewMail) (now : DateTime) (id : MailId) : Mail where
  id := id
  fromAddr := new.fromAddr
  toAddrs := new.toAddrs
  subject := new.subject
  body := new.body
  transport := new.transport
  status := .pending
  attempts := 0
  lastError := none
  createdAt := now
  updatedAt := now
  nextAttemptAt := now

end OxidRelay
