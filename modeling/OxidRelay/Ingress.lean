/-
The SMTP ingress (`oxid-relay-ingress-smtp`): the callbacks of
`RelayHandler`, by which mails get into the queue.

The server that calls them (mailin), the mail parser, the regular
expressions, the texts of addresses and networks, and the environment are
parameters (`Externals`). A callback answers a response and the handler as
it is afterwards; only `dataEnd` touches the queue.
-/
import OxidRelay.Config
import OxidRelay.Lib.Ip
import OxidRelay.Lib.Utf8
import OxidRelay.Sqlite

namespace OxidRelay

/-! ## What other crates provide -/

/-- A parsed message: its subject, and its first text part. -/
structure ParsedMessage where
  subject : Option String
  bodyText : Option String

structure Externals where
  /-- `MessageParser::default().parse`. -/
  parseMessage : List UInt8 → Option ParsedMessage
  /-- `Regex::new`, then the group `name` of the first match in a text. -/
  regex : String → Option (String → Option String)
  parseNet : String → Option IpNet
  parseIp : String → Option IpAddr
  env : Env

/-- The replies of `mailin_embedded::response` that the handler uses, and
its own. -/
inductive Response
  | ok
  | authOk
  | invalidCredentials
  | tempAuthFailure
  | authenticationRequired
  | internalError
  | custom (code : Nat) (message : String)
  deriving DecidableEq

def Response.code : Response → Nat
  | .ok => 250
  | .authOk => 235
  | .invalidCredentials => 535
  | .tempAuthFailure => 454
  | .authenticationRequired => 530
  | .internalError => 451
  | .custom code _ => code

/-! ## The whitelist -/

/-- Parses whitelist entries (bare addresses or networks); others are skipped. -/
def parseWhitelist (X : Externals) : List String → List IpNet
  | [] => []
  | entry :: entries =>
    match X.parseNet entry with
    | some net => net :: parseWhitelist X entries
    | none =>
      match X.parseIp entry with
      | some ip =>
        match IpNet.new ip (if ip.isIpv4 then 32 else 128) with
        | some net => net :: parseWhitelist X entries
        | none => parseWhitelist X entries
      | none => parseWhitelist X entries

def isAllowed (nets : List IpNet) (ip : IpAddr) : Bool := nets.any fun net => net.contains ip

/-! ## The handler -/

/-- Removes surrounding angle brackets and whitespace from an address. -/
def stripBrackets (raw : String) : String :=
  Str.trim (Str.trimEndMatches (· = '>') (Str.trimStartMatches (· = '<') (Str.trim raw)))

/-- The sender name in a subject, by the configured pattern. -/
def extractName (matcher : Option (String → Option String)) (subject : String) : Option String :=
  matcher.bind fun re => re subject

/-- Read-only context of all connections; the queue is passed on its own. -/
structure Context where
  whitelist : List IpNet
  auth : AuthConfig
  anonymousEnabled : Bool
  subject : SubjectConfig
  subjectMatcher : Option (String → Option String)
  routing : RoutingConfig

/-- Builds the context from the configuration. -/
def context (X : Externals) (config : Config) : Context where
  whitelist := parseWhitelist X config.security.ipWhitelist
  auth := config.auth
  anonymousEnabled := config.auth.anonymous.enabled
  subject := config.subject
  subjectMatcher := config.auth.anonymous.subjectMatch.bind X.regex
  routing := config.routing

/-- The handler of one connection. -/
structure RelayHandler where
  ctx : Context
  authenticatedAs : Option String
  envelopeFrom : String
  recipients : List String
  data : List UInt8

/-- One enqueue, as the outside decides it: what the clock and the random
ids give, and the error of a backend that fails. -/
structure Attempt where
  now : DateTime
  id : MailId
  failure : Option String

/-- `Queue::enqueue`. -/
def Attempt.enqueue (C : Codec) (a : Attempt) (T : Mails) (mail : Mail) : Except CoreError (Mail × Mails) :=
  match a.failure with
  | some message => .error (.queue message)
  | none => SqliteQueue.enqueue C T mail

namespace RelayHandler

def new (ctx : Context) : RelayHandler where
  ctx := ctx
  authenticatedAs := none
  envelopeFrom := ""
  recipients := []
  data := []

/-- Resolves credentials against the configured auth model. -/
def tryAuth (X : Externals) (h : RelayHandler) (user password : String) : Response × RelayHandler :=
  match h.ctx.auth.authenticate X.env user password with
  | .ok (some name) => (.authOk, { h with authenticatedAs := some name })
  | .ok none => (.invalidCredentials, h)
  | .error _ => (.tempAuthFailure, h)

/-- The mail as received, with the sender's label in its subject. -/
def buildNewMail (X : Externals) (h : RelayHandler) : Except CoreError NewMail :=
  match X.parseMessage h.data with
  | none => .error (.invalidMail "could not parse message")
  | some parsed =>
    let originalSubject := parsed.subject.getD ""
    let sender := h.authenticatedAs.or (extractName h.ctx.subjectMatcher originalSubject)
    .ok {
      fromAddr := Address.new (stripBrackets h.envelopeFrom)
      toAddrs := h.recipients.map fun addr => Address.new (stripBrackets addr)
      subject := match sender with
        | some name => h.ctx.subject.render name originalSubject
        | none => originalSubject
      body := parsed.bodyText.getD (Utf8.fromUtf8Lossy h.data)
      transport := none }

def helo (h : RelayHandler) (ip : IpAddr) : Response × RelayHandler :=
  (if isAllowed h.ctx.whitelist ip then .ok else .custom 421 "Service not available", h)

/-- MAIL starts a fresh transaction, unless the address is not allowed. -/
def mail (h : RelayHandler) (ip : IpAddr) (sender : String) : Response × RelayHandler :=
  if !isAllowed h.ctx.whitelist ip then (.custom 421 "Service not available", h)
  else
    let fresh := { h with envelopeFrom := sender, recipients := [], data := [] }
    (if !h.ctx.anonymousEnabled && h.authenticatedAs.isNone then .authenticationRequired else .ok, fresh)

def rcpt (h : RelayHandler) (recipient : String) : Response × RelayHandler :=
  (.ok, { h with recipients := h.recipients ++ [recipient] })

def dataStart (h : RelayHandler) : Response × RelayHandler := (.ok, { h with data := [] })

/-- A chunk of the message; it has no reply. -/
def dataChunk (h : RelayHandler) (buf : List UInt8) : RelayHandler := { h with data := h.data ++ buf }

end RelayHandler

/-! ## End of data -/

/-- The targets of a mail by its sender, or the reply that rejects it. -/
def Context.targets (ctx : Context) (sender : String) : Except Response (List RouteTarget) :=
  if ctx.routing.isActive then
    match ctx.routing.resolve sender with
    | .reject => .error (.custom 550 "sender not permitted")
    | .deliver targets => .ok targets
  else .ok [{ transport := "", recipients := none }]

/-- The mail as it is queued for one target. -/
def targetPayload (new : NewMail) (target : RouteTarget) : NewMail :=
  { new with
    transport := if Str.isEmpty target.transport then new.transport else some target.transport
    toAddrs := target.recipients.getD new.toAddrs }

/-- What the enqueue for one target does, and how many mails it accepts. -/
def enqueueTarget (C : Codec) (new : NewMail) (a : Attempt) (target : RouteTarget) (T : Mails) : Mails × Nat :=
  let payload := targetPayload new target
  match payload.validate with
  | .error _ => (T, 0)
  | .ok () =>
    match a.enqueue C T (Mail.fromNew payload a.now a.id) with
    | .ok (_, T') => (T', 1)
    | .error _ => (T, 0)

/-- One mail for each target; `attempts i` is that for the `i`-th. -/
def fanOut (C : Codec) (new : NewMail) (attempts : Nat → Attempt) :
    Nat → List RouteTarget → Mails → Nat → Mails × Nat
  | _, [], T, accepted => (T, accepted)
  | i, target :: targets, T, accepted =>
    let r := enqueueTarget C new (attempts i) target T
    fanOut C new attempts (i + 1) targets r.1 (accepted + r.2)

@[simp] theorem fanOut_nil (C : Codec) (new : NewMail) (attempts : Nat → Attempt) (i : Nat) (T : Mails)
    (accepted : Nat) : fanOut C new attempts i [] T accepted = (T, accepted) := rfl

theorem fanOut_cons (C : Codec) (new : NewMail) (attempts : Nat → Attempt) (i : Nat) (target : RouteTarget)
    (targets : List RouteTarget) (T : Mails) (accepted : Nat) :
    fanOut C new attempts i (target :: targets) T accepted =
      fanOut C new attempts (i + 1) targets (enqueueTarget C new (attempts i) target T).1
        (accepted + (enqueueTarget C new (attempts i) target T).2) := rfl

/-- `data_end`: the reply and the queue afterwards. -/
def RelayHandler.dataEnd (C : Codec) (X : Externals) (h : RelayHandler) (attempts : Nat → Attempt) (T : Mails) :
    Response × Mails :=
  match h.buildNewMail X with
  | .error err => (.custom 554 ("rejected: " ++ err.toString), T)
  | .ok new =>
    match h.ctx.targets new.fromAddr.email with
    | .error reply => (reply, T)
    | .ok targets =>
      let r := fanOut C new attempts 0 targets T 0
      (if r.2 = 0 then .internalError else .ok, r.1)

/-! ## Callbacks -/

/-- A callback, with the arguments that the handler reads. -/
inductive Callback
  | helo
  | mail (sender : String)
  | rcpt (recipient : String)
  | dataStart
  | data (buf : List UInt8)
  | dataEnd (attempts : Nat → Attempt)
  | authPlain (user password : String)
  | authLogin (user password : String)

/-- The reply of a callback, none for a chunk of data, the handler and the
queue afterwards. -/
def RelayHandler.call (C : Codec) (X : Externals) (ip : IpAddr) (h : RelayHandler) (T : Mails) :
    Callback → Option Response × RelayHandler × Mails
  | .helo => (some (h.helo ip).1, (h.helo ip).2, T)
  | .mail sender => (some (h.mail ip sender).1, (h.mail ip sender).2, T)
  | .rcpt recipient => (some (h.rcpt recipient).1, (h.rcpt recipient).2, T)
  | .dataStart => (some h.dataStart.1, h.dataStart.2, T)
  | .data buf => (none, h.dataChunk buf, T)
  | .dataEnd attempts => (some (h.dataEnd C X attempts T).1, h, (h.dataEnd C X attempts T).2)
  | .authPlain user password | .authLogin user password =>
    (some (h.tryAuth X user password).1, (h.tryAuth X user password).2, T)

end OxidRelay
