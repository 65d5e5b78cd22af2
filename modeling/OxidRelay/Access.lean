/-
Who gets mails into the queue. A connection is a handler and the calls made
on it, in any order that the session permits: RCPT, DATA, its chunks and
end-of-data only after a MAIL that was answered 250, and is the last MAIL
of the connection. (mailin also closes a transaction at its end and on
RSET and HELO, which permits less.) Between two calls anything may happen
to the queue.

`rcpt` and `data_end` have no guard of their own. `Guarded` is what the
last MAIL leaves for them.
-/
import OxidRelay.Lib.Run
import OxidRelay.Routing
import OxidRelay.TextCodec

namespace OxidRelay

/-! ## Connections -/

structure Connection where
  handler : RelayHandler
  queue : Mails
  /-- The last MAIL was answered 250. -/
  mailAccepted : Bool
  /-- The calls so far and their replies, newest first. -/
  calls : List (Callback × Option Response)

namespace Connection

/-- The handler is fresh on every connection. -/
def start (ctx : Context) (T : Mails) : Connection := ⟨.new ctx, T, false, []⟩

/-- Whether the session forwards a call. -/
def permits (conn : Connection) : Callback → Bool
  | .rcpt _ | .dataStart | .data _ | .dataEnd _ => conn.mailAccepted
  | _ => true

def call (C : Codec) (X : Externals) (ip : IpAddr) (conn : Connection) (cb : Callback) : Connection :=
  let r := conn.handler.call C X ip conn.queue cb
  { handler := r.2.1
    queue := r.2.2
    mailAccepted := match cb with
      | .mail _ => r.1.map Response.code = some 250
      | _ => conn.mailAccepted
    calls := (cb, r.1) :: conn.calls }

/-- A call that the session permits, or whatever others do to the queue. -/
inductive Step (C : Codec) (X : Externals) (ip : IpAddr) : Connection → Connection → Prop
  | call {conn : Connection} (cb : Callback) (h : conn.permits cb = true) : Step C X ip conn (conn.call C X ip cb)
  | others {conn : Connection} (T : Mails) : Step C X ip conn { conn with queue := T }

end Connection

/-! ## What is asked of a connection -/

/-- The entry parses as a network that contains the address, or else as
the address itself. -/
def Grants (X : Externals) (ip : IpAddr) (entry : String) : Prop :=
  match X.parseNet entry with
  | some net => net.contains ip = true
  | none => X.parseIp entry = some ip

/-- The user name and password of an AUTH. -/
def Callback.credentials : Callback → Option (String × String)
  | .authPlain user password | .authLogin user password => some (user, password)
  | _ => none

/-- Some AUTH so far had credentials that `authenticate` accepts. -/
def LoggedIn (X : Externals) (auth : AuthConfig) (calls : List (Callback × Option Response)) : Prop :=
  ∃ c ∈ calls, ∃ user password name, c.1.credentials = some (user, password) ∧
    auth.authenticate X.env user password = .ok (some name)

/-- What a client has transferred since its last MAIL. -/
structure Transaction where
  sender : String
  recipients : List String
  /-- The bytes since the last DATA. -/
  data : List UInt8

def Transaction.after (t : Transaction) : Callback → Transaction
  | .mail sender => ⟨sender, [], []⟩
  | .rcpt recipient => { t with recipients := t.recipients ++ [recipient] }
  | .dataStart => { t with data := [] }
  | .data buf => { t with data := t.data ++ buf }
  | _ => t

/-- The transaction of a history. -/
def transaction : List (Callback × Option Response) → Transaction
  | [] => ⟨"", [], []⟩
  | c :: calls => (transaction calls).after c.1

/-! ## The whitelist -/

variable {C : Codec} {X : Externals} {config : Config} {ip : IpAddr} {conn conn' : Connection} {cb : Callback}

/-- **An entry counts by itself.** An address is allowed exactly when some
entry grants it, whatever the others are. -/
theorem isAllowed_parseWhitelist (entries : List String) :
    isAllowed (parseWhitelist X entries) ip = true ↔ ∃ entry ∈ entries, Grants X ip entry := by
  unfold isAllowed
  induction entries with
  | nil => simp [parseWhitelist]
  | cons entry entries ih =>
    rw [List.exists_mem_cons_iff, ← ih, parseWhitelist]
    unfold Grants
    cases X.parseNet entry with
    | some net => simp
    | none =>
      cases hip : X.parseIp entry with
      | none => simp
      | some host =>
        have hnew : IpNet.new host (if host.isIpv4 then 32 else 128) = some (.host host) := by cases host <;> rfl
        simp only [hnew, List.any_cons, Bool.or_eq_true, IpNet.contains_host, Option.some.injEq]

/-! ## One call -/

/-- The call starts no transaction. -/
def Callback.isMail : Callback → Bool
  | .mail _ => true
  | _ => false

theorem RelayHandler.call_ctx (h : RelayHandler) (T : Mails) (cb : Callback) :
    (h.call C X ip T cb).2.1.ctx = h.ctx := by
  cases cb with
  | mail sender =>
    simp only [RelayHandler.call, RelayHandler.mail]
    split <;> rfl
  | authPlain user password | authLogin user password =>
    simp only [RelayHandler.call, RelayHandler.tryAuth]
    split <;> rfl
  | _ => rfl

/-- An identity is only ever set by credentials that are accepted. -/
theorem RelayHandler.call_authenticatedAs (h : RelayHandler) (T : Mails) (cb : Callback) :
    (h.call C X ip T cb).2.1.authenticatedAs = h.authenticatedAs ∨
      ∃ user password name, cb.credentials = some (user, password) ∧
        h.ctx.auth.authenticate X.env user password = .ok (some name) ∧
        (h.call C X ip T cb).2.1.authenticatedAs = some name := by
  cases cb with
  | mail sender =>
    left
    simp only [RelayHandler.call, RelayHandler.mail]
    split <;> rfl
  | authPlain user password | authLogin user password =>
    cases ha : h.ctx.auth.authenticate X.env user password with
    | error err => left; simp [RelayHandler.call, RelayHandler.tryAuth, ha]
    | ok answer =>
      cases answer with
      | none => left; simp [RelayHandler.call, RelayHandler.tryAuth, ha]
      | some name =>
        right
        exact ⟨user, password, name, rfl, ha, by simp [RelayHandler.call, RelayHandler.tryAuth, ha]⟩
  | _ => exact .inl rfl

/-- A MAIL that is answered 250 starts a transaction of an allowed address
that need not or did authenticate. -/
theorem RelayHandler.mail_ok {h : RelayHandler} {sender : String} (hok : (h.mail ip sender).1.code = 250) :
    isAllowed h.ctx.whitelist ip = true ∧ (h.ctx.anonymousEnabled = true ∨ h.authenticatedAs.isSome = true) ∧
      h.mail ip sender = (.ok, { h with envelopeFrom := sender, recipients := [], data := [] }) := by
  unfold RelayHandler.mail at hok ⊢
  by_cases hallowed : isAllowed h.ctx.whitelist ip = true
  · by_cases hauth : (!h.ctx.anonymousEnabled && h.authenticatedAs.isNone) = true
    · simp [hallowed, hauth, Response.code] at hok
    · refine ⟨hallowed, ?_, by simp [hallowed, hauth]⟩
      cases ha : h.ctx.anonymousEnabled with
      | true => exact .inl rfl
      | false =>
        cases hs : h.authenticatedAs with
        | some name => exact .inr rfl
        | none => simp [ha, hs] at hauth
  · simp [hallowed, Response.code] at hok

/-- The handler's copy of the transaction. -/
def RelayHandler.transaction (h : RelayHandler) : Transaction := ⟨h.envelopeFrom, h.recipients, h.data⟩

theorem RelayHandler.call_transaction (h : RelayHandler) (T : Mails) (hcb : cb.isMail = false) :
    (h.call C X ip T cb).2.1.transaction = h.transaction.after cb := by
  cases cb with
  | mail sender => cases hcb
  | authPlain user password | authLogin user password =>
    simp only [RelayHandler.call, RelayHandler.tryAuth]
    split <;> rfl
  | _ => rfl

/-- The subject as it is queued: labelled by the identity, or else by the
name that the pattern finds in it. -/
def Context.label (ctx : Context) (identity : Option String) (original : String) : String :=
  match identity.or (extractName ctx.subjectMatcher original) with
  | some name => ctx.subject.render name original
  | none => original

theorem RelayHandler.buildNewMail_eq (h : RelayHandler) : h.buildNewMail X =
    match X.parseMessage h.data with
    | none => .error (.invalidMail "could not parse message")
    | some parsed => .ok {
        fromAddr := Address.new (stripBrackets h.envelopeFrom)
        toAddrs := h.recipients.map fun recipient => Address.new (stripBrackets recipient)
        subject := h.ctx.label h.authenticatedAs (parsed.subject.getD "")
        body := parsed.bodyText.getD (Utf8.fromUtf8Lossy h.data)
        transport := none } := rfl

/-- End-of-data leaves the queue alone unless the sender has a target. -/
theorem RelayHandler.dataEnd_queue (C : Codec) (X : Externals) (h : RelayHandler) (attempts : Nat → Attempt)
    (T : Mails) :
    (h.dataEnd C X attempts T).2 = T ∨ ∃ targets, h.ctx.targets (stripBrackets h.envelopeFrom) = .ok targets := by
  unfold RelayHandler.dataEnd
  rw [RelayHandler.buildNewMail_eq]
  cases X.parseMessage h.data with
  | none => exact .inl rfl
  | some parsed =>
    cases ht : h.ctx.targets (stripBrackets h.envelopeFrom) with
    | error reply => left; simp [Address.new, ht]
    | ok targets => exact .inr ⟨targets, rfl⟩

/-! ## The invariant -/

/-- What holds on a connection between two calls. -/
structure Guarded (X : Externals) (config : Config) (ip : IpAddr) (conn : Connection) : Prop where
  ctx : conn.handler.ctx = context X config
  identified : conn.handler.authenticatedAs.isSome = true → LoggedIn X config.auth conn.calls
  allowed : conn.mailAccepted = true → isAllowed (context X config).whitelist ip = true
  admitted : conn.mailAccepted = true → config.auth.anonymous.enabled = true ∨ LoggedIn X config.auth conn.calls
  transaction : conn.mailAccepted = true → transaction conn.calls = conn.handler.transaction

theorem LoggedIn.cons {auth : AuthConfig} {calls : List (Callback × Option Response)} (h : LoggedIn X auth calls)
    (c : Callback × Option Response) : LoggedIn X auth (c :: calls) := by
  obtain ⟨c', hc', hl⟩ := h
  exact ⟨c', List.mem_cons_of_mem _ hc', hl⟩

theorem Guarded.start (X : Externals) (config : Config) (ip : IpAddr) (T : Mails) :
    Guarded X config ip (.start (context X config) T) where
  ctx := rfl
  identified h := by cases h
  allowed h := by cases h
  admitted h := by cases h
  transaction h := by cases h

/-- The identity a call leaves was given by an accepted AUTH. -/
theorem Guarded.identified_call (h : Guarded X config ip conn) (cb : Callback)
    (hs : (conn.call C X ip cb).handler.authenticatedAs.isSome = true) :
    LoggedIn X config.auth (conn.call C X ip cb).calls := by
  rcases conn.handler.call_authenticatedAs conn.queue cb with heq | ⟨user, password, name, hcred, hauth, -⟩
  · have hold : conn.handler.authenticatedAs.isSome = true := by
      rw [← heq]
      exact hs
    exact (h.identified hold).cons _
  · rw [h.ctx] at hauth
    exact ⟨_, List.mem_cons_self, user, password, name, hcred, hauth⟩

theorem Guarded.call (h : Guarded X config ip conn) (cb : Callback) :
    Guarded X config ip (conn.call C X ip cb) := by
  have hctx : (conn.call C X ip cb).handler.ctx = context X config :=
    (conn.handler.call_ctx conn.queue cb).trans h.ctx
  have hident := h.identified_call (C := C) cb
  by_cases hcb : cb.isMail = true
  · cases cb with
    | mail sender =>
      have hok (ha : (conn.call C X ip (.mail sender)).mailAccepted = true) :
          (conn.handler.mail ip sender).1.code = 250 := by
        simpa [Connection.call, RelayHandler.call] using ha
      refine ⟨hctx, hident, ?_, ?_, ?_⟩
      · intro ha
        have hallowed := (RelayHandler.mail_ok (hok ha)).1
        rwa [h.ctx] at hallowed
      · intro ha
        rcases (RelayHandler.mail_ok (hok ha)).2.1 with hanon | hauth
        · rw [h.ctx] at hanon
          exact .inl hanon
        · exact .inr ((h.identified hauth).cons _)
      · intro ha
        show (⟨sender, [], []⟩ : Transaction) = (conn.handler.mail ip sender).2.transaction
        rw [(RelayHandler.mail_ok (hok ha)).2.2]
        rfl
    | _ => cases hcb
  · have hcb : cb.isMail = false := by simpa using hcb
    have hacc : (conn.call C X ip cb).mailAccepted = conn.mailAccepted := by
      cases cb with
      | mail => cases hcb
      | _ => rfl
    refine ⟨hctx, hident, ?_, ?_, ?_⟩
    · intro ha
      exact h.allowed (hacc ▸ ha)
    · intro ha
      exact (h.admitted (hacc ▸ ha)).imp_right fun hl => hl.cons _
    · intro ha
      show (OxidRelay.transaction conn.calls).after cb = (conn.handler.call C X ip conn.queue cb).2.1.transaction
      rw [RelayHandler.call_transaction _ _ hcb, h.transaction (hacc ▸ ha)]

theorem Guarded.step (h : Guarded X config ip conn) (hs : Connection.Step C X ip conn conn') :
    Guarded X config ip conn' := by
  cases hs with
  | call cb _ => exact h.call cb
  | others T => exact ⟨h.ctx, h.identified, h.allowed, h.admitted, h.transaction⟩

theorem Guarded.run {T : Mails} (h : Run (Connection.Step C X ip) (.start (context X config) T) conn) :
    Guarded X config ip conn :=
  Run.invariant Guarded.step (.start X config ip T) h

/-! ## Access control -/

/-- **A mail gets into the queue only by the access rules.** Whatever calls
were made on a connection before, and whatever others do to the queue: a
call that adds a row comes from an address that a whitelist entry grants;
anonymous submission is enabled or an earlier AUTH on the connection was
accepted; and routing is inactive or the rule of the envelope sender has a
target that does not reject. The entries of a whitelist count each by
itself. -/
theorem ingress_access_control {T : Mails} (h : Run (Connection.Step C X ip) (.start (context X config) T) conn)
    (hp : conn.permits cb = true) {r : Row} (hr : r ∈ (conn.call C X ip cb).queue) (hnew : r ∉ conn.queue) :
    (∃ entry ∈ config.security.ipWhitelist, Grants X ip entry) ∧
    (config.auth.anonymous.enabled = true ∨ LoggedIn X config.auth conn.calls) ∧
    (config.routing.isActive = false ∨
      ∃ rule, EffectiveRule config.routing (stripBrackets (transaction conn.calls).sender) rule ∧
        rule.listed ≠ []) ∧
    ∀ entries, isAllowed (parseWhitelist X entries) ip = true ↔ ∃ entry ∈ entries, Grants X ip entry := by
  have hg : Guarded X config ip conn := .run h
  cases cb with
  | dataEnd attempts =>
    have ha : conn.mailAccepted = true := hp
    refine ⟨(isAllowed_parseWhitelist _).1 (hg.allowed ha), hg.admitted ha, ?_, isAllowed_parseWhitelist⟩
    rw [hg.transaction ha]
    rcases conn.handler.dataEnd_queue C X attempts conn.queue with heq | ⟨targets, ht⟩
    · have hr : r ∈ (conn.handler.dataEnd C X attempts conn.queue).2 := hr
      rw [heq] at hr
      exact absurd hr hnew
    · obtain ⟨W, hW⟩ := Targets.exists config.routing (stripBrackets conn.handler.envelopeFrom)
      rw [hg.ctx, (context X config).targets_eq hW] at ht
      have hne : W ≠ [] := by
        intro hW
        simp [hW] at ht
      cases hW with
      | inactive hdefault hsenders => exact .inl (RoutingConfig.isActive_eq_false.2 ⟨hdefault, hsenders⟩)
      | byRule hrule => exact .inr ⟨_, hrule, hne⟩
      | norule => exact absurd rfl hne
  | _ => exact absurd hr hnew

/-! ## A submission from the local host -/

/-- `Subject: Status`, a blank line and `Okay`. -/
def exampleMessage : List UInt8 :=
  [0x53, 0x75, 0x62, 0x6A, 0x65, 0x63, 0x74, 0x3A, 0x20, 0x53, 0x74, 0x61, 0x74, 0x75, 0x73, 0x0D, 0x0A, 0x0D, 0x0A,
    0x4F, 0x6B, 0x61, 0x79, 0x0D, 0x0A]

/-- The parsers on the texts of the example. -/
def exampleExternals : Externals where
  parseMessage data := if data = exampleMessage then some ⟨some "Status", some "Okay\r\n"⟩ else none
  regex _ := none
  parseNet _ := none
  parseIp entry := if entry = "127.0.0.1" then some (.v4 0x7F000001) else none
  env _ := none

/-- Anonymous submission from the local host. -/
def exampleConfig : Config :=
  { (default : Config) with
    security := ⟨["127.0.0.1"]⟩
    auth := ⟨⟨true, none⟩, .empty, ⟨false⟩⟩ }

/-- Enqueues that succeed in 1970, with ids counted from zero. -/
def exampleAttempts (i : Nat) : Attempt := ⟨default, ⟨i⟩, none⟩

def exampleConnection : Connection :=
  [Callback.mail "<relay@example.com>", .rcpt "<ziel@example.com>", .dataStart, .data exampleMessage].foldl
    (Connection.call textCodec exampleExternals (.v4 0x7F000001))
    (.start (context exampleExternals exampleConfig) Table.empty)

def exampleNewMail : NewMail :=
  ⟨Address.new "relay@example.com", [Address.new "ziel@example.com"], "Status", "Okay\r\n", none⟩

/-- It is queued. -/
theorem exampleConnection_dataEnd :
    (exampleConnection.handler.dataEnd textCodec exampleExternals exampleAttempts Table.empty).2.rows =
      [mailToRow textCodec (Mail.fromNew exampleNewMail default ⟨0⟩)] := by
  have hbuild : exampleConnection.handler.buildNewMail exampleExternals = .ok exampleNewMail := by decide
  have htargets : exampleConnection.handler.ctx.targets exampleNewMail.fromAddr.email = .ok [⟨"", none⟩] := by
    decide
  have hvalid : (targetPayload exampleNewMail ⟨"", none⟩).validate = .ok () := by decide
  unfold RelayHandler.dataEnd
  rw [hbuild]
  dsimp only
  rw [htargets]
  dsimp only
  rw [fanOut_cons, fanOut_nil, enqueueTarget, hvalid]
  rfl

theorem ingress_access_control_example :
    ∃ entry ∈ exampleConfig.security.ipWhitelist, Grants exampleExternals (.v4 0x7F000001) entry := by
  have hrun : Run (Connection.Step textCodec exampleExternals (.v4 0x7F000001))
      (.start (context exampleExternals exampleConfig) Table.empty) exampleConnection :=
    .tail (.tail (.tail (.single (.call _ rfl)) (.call _ rfl)) (.call _ rfl)) (.call _ rfl)
  have hp : exampleConnection.permits (.dataEnd exampleAttempts) = true := rfl
  have hr : mailToRow textCodec (Mail.fromNew exampleNewMail default ⟨0⟩) ∈
      (exampleConnection.handler.dataEnd textCodec exampleExternals exampleAttempts Table.empty).2.rows := by
    rw [exampleConnection_dataEnd]
    exact List.mem_singleton.2 rfl
  exact (ingress_access_control hrun hp hr Table.not_mem_empty).1

end OxidRelay
