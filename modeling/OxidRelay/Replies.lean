/-
What the reply to end-of-data tells a client: to give the message up (5xx)
or to try again (4xx). The loop counts the mails that were stored, and
`data_end` answers 451 when there is none. A target whose mail does not
validate is not counted either, so the client of a message that no target
can take is told to try again: `reply_classified_iff`.
-/
import OxidRelay.Isolation

namespace OxidRelay

variable {C : Codec} {X : Externals} {h : RelayHandler} {new : NewMail} {attempts : Nat → Attempt} {T : Mails}

/-! ## Permanent and transient -/

/-- The message is never accepted under this configuration: it does not
parse, routing rejects its sender, or its mail validates for no target. -/
inductive Hopeless (X : Externals) (h : RelayHandler) : Prop
  | unparsed (hp : X.parseMessage h.data = none)
  | rejected {reply : Response} (ht : h.ctx.targets (stripBrackets h.envelopeFrom) = .error reply)
  | invalid {new : NewMail} {targets : List RouteTarget} (hb : h.buildNewMail X = .ok new)
    (ht : h.ctx.targets new.fromAddr.email = .ok targets)
    (hv : ∀ target ∈ targets, (targetPayload new target).validate ≠ .ok ())

/-- The reply is permanent for a message that is never accepted, and
transient only after an enqueue that failed. -/
structure Classified (C : Codec) (X : Externals) (h : RelayHandler) (attempts : Nat → Attempt) (T : Mails) :
    Prop where
  permanent : Hopeless X h → 500 ≤ (h.dataEnd C X attempts T).1.code ∧ (h.dataEnd C X attempts T).1.code < 600
  transient : 400 ≤ (h.dataEnd C X attempts T).1.code → (h.dataEnd C X attempts T).1.code < 500 →
    false ∈ h.queueAnswers C X attempts T

/-- A message that parses, of a sender that has targets, has a sender and a
subject that are not blank, and a recipient for one of the targets. -/
def Complete (X : Externals) (h : RelayHandler) : Prop :=
  ∀ parsed W, X.parseMessage h.data = some parsed → Targets h.ctx.routing (stripBrackets h.envelopeFrom) W → W ≠ [] →
    ¬ Blank (stripBrackets h.envelopeFrom) ∧ ¬ Blank (h.ctx.label h.authenticatedAs (parsed.subject.getD "")) ∧
      (h.recipients ≠ [] ∨ ∃ target ∈ W, target.recipients ≠ [])

/-! ## The loop -/

/-- The loop counts the enqueues that the queue answers well. -/
theorem fanOut_count (targets : List RouteTarget) : ∀ (n : Nat) (T : Mails) (accepted : Nat),
    (fanOut C new attempts n targets T accepted).2 =
      accepted + (queueAnswers C new attempts n targets T).count true := by
  induction targets with
  | nil =>
    intro n T accepted
    rw [fanOut_nil]
    unfold queueAnswers
    rfl
  | cons target targets ih =>
    intro n T accepted
    rw [fanOut_cons]
    unfold enqueueTarget queueAnswers
    cases hv : (targetPayload new target).validate with
    | error err =>
      simp only [hv, Nat.add_zero]
      exact ih (n + 1) T accepted
    | ok u =>
      cases he : (attempts n).enqueue C T
          (Mail.fromNew (targetPayload new target) (attempts n).now (attempts n).id) with
      | error err =>
        simp only [hv, he, Nat.add_zero]
        rw [ih, List.count_cons_of_ne (by decide)]
      | ok stored =>
        simp only [hv, he]
        rw [ih, List.count_cons_self]
        omega

/-- Nothing is enqueued when no mail validates. -/
theorem queueAnswers_eq_nil (targets : List RouteTarget) : ∀ (n : Nat) (T : Mails),
    queueAnswers C new attempts n targets T = [] ↔
      ∀ target ∈ targets, (targetPayload new target).validate ≠ .ok () := by
  induction targets with
  | nil =>
    intro n T
    unfold queueAnswers
    exact iff_of_true rfl fun target hmem => by cases hmem
  | cons target targets ih =>
    intro n T
    rw [List.forall_mem_cons]
    unfold queueAnswers
    cases hv : (targetPayload new target).validate with
    | error err =>
      dsimp only
      rw [ih (n + 1) T]
      simp
    | ok u =>
      refine iff_of_false ?_ fun hall => hall.1 rfl
      dsimp only
      split <;> exact List.cons_ne_nil _ _

/-! ## The exits -/

section Built

variable {parsed : ParsedMessage} {W : List RouteTargetConfig}

/-- The mail that a message which parses is received as. -/
def RelayHandler.received (h : RelayHandler) (parsed : ParsedMessage) : NewMail :=
  h.transaction.received (h.ctx.label h.authenticatedAs (parsed.subject.getD ""))
    (parsed.bodyText.getD (Utf8.fromUtf8Lossy h.data))

theorem RelayHandler.buildNewMail_received (hp : X.parseMessage h.data = some parsed) :
    h.buildNewMail X = .ok (h.received parsed) := by
  rw [h.buildNewMail_eq, hp]
  rfl

theorem RelayHandler.code_unparsed (hp : X.parseMessage h.data = none) : (h.dataEnd C X attempts T).1.code = 554 := by
  rw [h.dataEnd_unparsed attempts hp]
  rfl

theorem RelayHandler.code_rejected (hb : h.buildNewMail X = .ok new)
    (hW : Targets h.ctx.routing new.fromAddr.email []) : (h.dataEnd C X attempts T).1.code = 550 := by
  rw [h.dataEnd_built attempts hb hW, if_pos rfl]
  rfl

theorem RelayHandler.queueAnswers_built (hb : h.buildNewMail X = .ok new)
    (hW : Targets h.ctx.routing new.fromAddr.email W) (hne : W ≠ []) : h.queueAnswers C X attempts T =
      OxidRelay.queueAnswers C new attempts 0 (W.map RouteTargetConfig.resolved) T := by
  unfold RelayHandler.queueAnswers
  rw [hb]
  dsimp only
  rw [Context.targets_eq _ hW, if_neg hne]

/-- With a target, the reply is 451 or 250 by the answers of the queue. -/
theorem RelayHandler.code_fanOut (hb : h.buildNewMail X = .ok new) (hW : Targets h.ctx.routing new.fromAddr.email W)
    (hne : W ≠ []) :
    (h.dataEnd C X attempts T).1.code = if (h.queueAnswers C X attempts T).count true = 0 then 451 else 250 := by
  rw [h.dataEnd_built attempts hb hW, if_neg hne, RelayHandler.queueAnswers_built hb hW hne]
  dsimp only
  rw [fanOut_count, Nat.zero_add]
  split <;> rfl

/-- Some target can take the mail. -/
theorem RelayHandler.exists_valid (h : RelayHandler) (parsed : ParsedMessage) (hne : W ≠ []) :
    (∃ target ∈ W, (targetPayload (h.received parsed) target.resolved).validate = .ok ()) ↔
      ¬ Blank (stripBrackets h.envelopeFrom) ∧ ¬ Blank (h.ctx.label h.authenticatedAs (parsed.subject.getD "")) ∧
        (h.recipients ≠ [] ∨ ∃ target ∈ W, target.recipients ≠ []) := by
  simp only [RelayHandler.received, validate_received]
  refine ⟨fun hex => ?_, fun hall => ?_⟩
  · obtain ⟨target, hmem, hfrom, hsubject, hto⟩ := hex
    exact ⟨hfrom, hsubject, hto.imp_right fun ht => ⟨target, hmem, ht⟩⟩
  · obtain ⟨hfrom, hsubject, hto⟩ := hall
    rcases hto with hto | hto
    · obtain ⟨target, W, rfl⟩ := List.exists_cons_of_ne_nil hne
      exact ⟨target, List.mem_cons_self, hfrom, hsubject, .inl hto⟩
    · obtain ⟨target, hmem, hto⟩ := hto
      exact ⟨target, hmem, hfrom, hsubject, .inr hto⟩

/-- A message that parses, of a sender with targets, is never accepted
exactly when no target can take it. -/
theorem hopeless_built_iff (hp : X.parseMessage h.data = some parsed)
    (hW : Targets h.ctx.routing (stripBrackets h.envelopeFrom) W) (hne : W ≠ []) :
    Hopeless X h ↔ ¬ ∃ target ∈ W, (targetPayload (h.received parsed) target.resolved).validate = .ok () := by
  have hb := RelayHandler.buildNewMail_received hp
  have htargets := (Context.targets_eq h.ctx hW).trans (if_neg hne)
  refine ⟨fun hopeless hex => ?_, fun hnone => ?_⟩
  · obtain ⟨target, hmem, hvalid⟩ := hex
    cases hopeless with
    | unparsed hnone => simp [hp] at hnone
    | rejected ht => simp [htargets] at ht
    | invalid hb' ht hv =>
      rw [hb] at hb'
      obtain rfl := Except.ok.inj hb'
      have ht : h.ctx.targets (stripBrackets h.envelopeFrom) = .ok _ := ht
      rw [htargets] at ht
      obtain rfl := Except.ok.inj ht
      exact hv _ (List.mem_map_of_mem hmem) hvalid
  · refine .invalid hb htargets fun target hmem hvalid => ?_
    obtain ⟨w, hw, rfl⟩ := List.mem_map.1 hmem
    exact hnone ⟨w, hw, hvalid⟩

/-- The queue answers something exactly when some target can take the mail. -/
theorem RelayHandler.queueAnswers_eq_nil (hp : X.parseMessage h.data = some parsed)
    (hW : Targets h.ctx.routing (stripBrackets h.envelopeFrom) W) (hne : W ≠ []) :
    h.queueAnswers C X attempts T = [] ↔
      ¬ ∃ target ∈ W, (targetPayload (h.received parsed) target.resolved).validate = .ok () := by
  rw [RelayHandler.queueAnswers_built (RelayHandler.buildNewMail_received hp) hW hne, OxidRelay.queueAnswers_eq_nil]
  simp

/-- A message that no target can take is answered with 451. -/
theorem RelayHandler.code_refused (hp : X.parseMessage h.data = some parsed)
    (hW : Targets h.ctx.routing (stripBrackets h.envelopeFrom) W) (hne : W ≠ [])
    (hnone : ¬ ∃ target ∈ W, (targetPayload (h.received parsed) target.resolved).validate = .ok ()) :
    (h.dataEnd C X attempts T).1.code = 451 := by
  have hb := RelayHandler.buildNewMail_received hp
  rw [RelayHandler.code_fanOut hb hW hne, (RelayHandler.queueAnswers_eq_nil hp hW hne).2 hnone]
  rfl

/-- A queue that is empty and does not fail takes a mail that some target can take. -/
theorem RelayHandler.code_accepted (C : Codec) (hp : X.parseMessage h.data = some parsed)
    (hW : Targets h.ctx.routing (stripBrackets h.envelopeFrom) W)
    (hvalid : ∃ target ∈ W, (targetPayload (h.received parsed) target.resolved).validate = .ok ()) :
    (h.dataEnd C X (fun _ => ⟨default, default, none⟩) Table.empty).1.code = 250 := by
  obtain ⟨target, hmem, hvalid⟩ := hvalid
  have hb := RelayHandler.buildNewMail_received hp
  have hne : W ≠ [] := List.ne_nil_of_mem hmem
  rw [RelayHandler.code_fanOut hb hW hne, RelayHandler.queueAnswers_built hb hW hne]
  refine if_neg fun hcount => ?_
  have hnone : (fanOut C (h.received parsed) (fun _ => ⟨default, default, none⟩) 0
      (W.map RouteTargetConfig.resolved) Table.empty 0).2 = 0 := by
    rw [fanOut_count, hcount]
  obtain ⟨i, hi⟩ := List.mem_iff_getElem?.1 (List.mem_map_of_mem (f := RouteTargetConfig.resolved) hmem)
  refine (fanOut_none _ 0 0).1 hnone i _ hi ?_ rfl
  simp [accepts, hvalid, Except.isOk, Except.toBool]

end Built

/-! ## The class of the reply -/

/-- **A message is hopeless** exactly when no queue ever has it accepted. -/
theorem hopeless_iff (C : Codec) (X : Externals) (h : RelayHandler) :
    Hopeless X h ↔ ∀ attempts T, (h.dataEnd C X attempts T).1.code ≠ 250 := by
  cases hp : X.parseMessage h.data with
  | none =>
    refine iff_of_true (.unparsed hp) fun attempts T => ?_
    rw [RelayHandler.code_unparsed hp]
    decide
  | some parsed =>
    have hb := RelayHandler.buildNewMail_received hp
    obtain ⟨W, hW⟩ := Targets.exists h.ctx.routing (stripBrackets h.envelopeFrom)
    by_cases hne : W = []
    · subst hne
      refine iff_of_true (.rejected ((Context.targets_eq h.ctx hW).trans (if_pos rfl))) fun attempts T => ?_
      rw [RelayHandler.code_rejected hb hW]
      decide
    rw [hopeless_built_iff hp hW hne]
    refine ⟨fun hnone attempts T => ?_, fun hall hvalid => ?_⟩
    · rw [RelayHandler.code_refused hp hW hne hnone]
      decide
    · exact hall _ _ (RelayHandler.code_accepted C hp hW hvalid)

theorem false_mem_of_count {answers : List Bool} (hne : answers ≠ []) (hcount : answers.count true = 0) :
    false ∈ answers := by
  obtain ⟨answer, answers, rfl⟩ := List.exists_cons_of_ne_nil hne
  cases answer with
  | false => exact List.mem_cons_self
  | true => simp at hcount

/-- The reply has the right class when the message is complete; else the
client of a message that is never accepted is told to try again. -/
theorem classified_iff (C : Codec) (X : Externals) (h : RelayHandler) (attempts : Nat → Attempt) (T : Mails) :
    Classified C X h attempts T ↔ Complete X h := by
  refine ⟨fun hc parsed W hp hW hne => ?_, fun hcomplete => ?_⟩
  · rw [← h.exists_valid parsed hne]
    by_contra hnone
    have hcode : (h.dataEnd C X attempts T).1.code = 451 := RelayHandler.code_refused hp hW hne hnone
    have := (hc.permanent ((hopeless_built_iff hp hW hne).2 hnone)).1
    omega
  · cases hp : X.parseMessage h.data with
    | none =>
      have hcode : (h.dataEnd C X attempts T).1.code = 554 := RelayHandler.code_unparsed hp
      exact ⟨fun _ => by omega, fun _ _ => by omega⟩
    | some parsed =>
      have hb := RelayHandler.buildNewMail_received hp
      obtain ⟨W, hW⟩ := Targets.exists h.ctx.routing (stripBrackets h.envelopeFrom)
      by_cases hne : W = []
      · subst hne
        have hcode : (h.dataEnd C X attempts T).1.code = 550 := RelayHandler.code_rejected hb hW
        exact ⟨fun _ => by omega, fun _ _ => by omega⟩
      have hvalid := (h.exists_valid parsed hne).2 (hcomplete parsed W hp hW hne)
      have hcode : (h.dataEnd C X attempts T).1.code = _ := RelayHandler.code_fanOut hb hW hne
      refine ⟨fun hopeless => absurd hvalid ((hopeless_built_iff hp hW hne).1 hopeless), fun hge hlt => ?_⟩
      refine false_mem_of_count (fun hnil => (RelayHandler.queueAnswers_eq_nil hp hW hne).1 hnil hvalid) ?_
      by_contra hcount
      rw [hcode, if_neg hcount] at hge
      omega

/-- **When the reply has the right class**, whatever the queue does: exactly
when the message is complete. The hopeless messages, of which this speaks,
are those that are never accepted, whatever the queue does. -/
theorem reply_classified_iff (C : Codec) (X : Externals) (h : RelayHandler) :
    (Hopeless X h ↔ ∀ attempts T, (h.dataEnd C X attempts T).1.code ≠ 250) ∧
      ∀ attempts T, Classified C X h attempts T ↔ Complete X h :=
  ⟨hopeless_iff C X h, classified_iff C X h⟩

/-! ## A message without a subject -/

/-- `Subject:`, a blank line and `Okay`. -/
def untitledMessage : List UInt8 :=
  [0x53, 0x75, 0x62, 0x6A, 0x65, 0x63, 0x74, 0x3A, 0x0D, 0x0A, 0x0D, 0x0A, 0x4F, 0x6B, 0x61, 0x79, 0x0D, 0x0A]

/-- It parses, and has no subject. -/
def untitledExternals : Externals :=
  { exampleExternals with
    parseMessage := fun data => if data = untitledMessage then some ⟨none, some "Okay\r\n"⟩ else none }

def untitledConnection : Connection :=
  [Callback.mail "<relay@example.com>", .rcpt "<ziel@example.com>", .dataStart, .data untitledMessage].foldl
    (Connection.call textCodec untitledExternals (.v4 0x7F000001))
    (.start (context untitledExternals exampleConfig) Table.empty)

/-- **The client of a message without a subject is told to try again**, with
nothing enqueued and whatever the queue would answer. -/
theorem untitled_told_to_retry : Hopeless untitledExternals untitledConnection.handler ∧ ∀ attempts T,
    (untitledConnection.handler.dataEnd textCodec untitledExternals attempts T).1.code = 451 ∧
    untitledConnection.handler.queueAnswers textCodec untitledExternals attempts T = [] ∧
    ¬ Classified textCodec untitledExternals untitledConnection.handler attempts T := by
  have hp : untitledExternals.parseMessage untitledConnection.handler.data = some ⟨none, some "Okay\r\n"⟩ := by
    have hdata : untitledConnection.handler.data = untitledMessage := by decide
    rw [hdata]
    rfl
  have hW : Targets untitledConnection.handler.ctx.routing (stripBrackets untitledConnection.handler.envelopeFrom)
      [⟨"", []⟩] := .inactive rfl rfl
  have hne : [(⟨"", []⟩ : RouteTargetConfig)] ≠ [] := List.cons_ne_nil _ _
  have hblank : Blank (untitledConnection.handler.ctx.label untitledConnection.handler.authenticatedAs "") := by
    unfold Blank
    decide
  have hnone := (not_congr
    (untitledConnection.handler.exists_valid ⟨none, some "Okay\r\n"⟩ hne)).2 fun hvalid => hvalid.2.1 hblank
  have hopeless := (hopeless_built_iff hp hW hne).2 hnone
  refine ⟨hopeless, fun attempts T => ?_⟩
  have hcode : (untitledConnection.handler.dataEnd textCodec untitledExternals attempts T).1.code = 451 :=
    RelayHandler.code_refused hp hW hne hnone
  refine ⟨hcode, (RelayHandler.queueAnswers_eq_nil hp hW hne).2 hnone, fun hc => ?_⟩
  have := (hc.permanent hopeless).1
  omega

end OxidRelay
