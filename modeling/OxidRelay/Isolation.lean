/-
One transaction after another on a connection. The handler keeps the
sender, the recipients and the data of a transaction until the next MAIL
overwrites them, and nothing else of it survives: between an accepted MAIL
and the end of data the handler is its context, its identity and the
transaction in progress (`RelayHandler.ext_transaction`), whatever was
rejected, aborted or reset before. So what end-of-data does is the same
after any two histories with the same identity (`transaction_isolated`).
-/
import OxidRelay.FanOut
import OxidRelay.SqliteFacts

namespace OxidRelay

variable {C : Codec} {X : Externals} {config : Config} {ip ip' : IpAddr} {conn conn' : Connection} {new : NewMail}
  {attempts attempts' : Nat → Attempt} {T T' : Mails}

/-! ## The transaction of a history -/

/-- **A MAIL wipes what was before it.** -/
theorem transaction_append (newer older : List (Callback × Option Response)) (sender : String)
    (reply : Option Response) :
    transaction (newer ++ (.mail sender, reply) :: older) =
      newer.foldr (fun c t => t.after c.1) ⟨sender, [], []⟩ := by
  induction newer with
  | nil => rfl
  | cons c newer ih => rw [List.cons_append, transaction, ih, List.foldr_cons]

/-- The handler is its context, its identity and its transaction. -/
theorem RelayHandler.ext_transaction {h h' : RelayHandler} (hctx : h.ctx = h'.ctx)
    (hidentity : h.authenticatedAs = h'.authenticatedAs) (htransaction : h.transaction = h'.transaction) :
    h = h' := by
  obtain ⟨ctx, identity, sender, recipients, data⟩ := h
  obtain ⟨ctx', identity', sender', recipients', data'⟩ := h'
  simp only [RelayHandler.transaction, Transaction.mk.injEq] at htransaction
  obtain ⟨rfl, rfl, rfl⟩ := htransaction
  cases hctx
  cases hidentity
  rfl

/-! ## What the queue answers -/

/-- Whether each mail that the loop enqueues is stored, in order. -/
def queueAnswers (C : Codec) (new : NewMail) (attempts : Nat → Attempt) :
    Nat → List RouteTarget → Mails → List Bool
  | _, [], _ => []
  | n, target :: targets, T =>
    match (targetPayload new target).validate with
    | .error _ => queueAnswers C new attempts (n + 1) targets T
    | .ok () =>
      match (attempts n).enqueue C T
          (Mail.fromNew (targetPayload new target) (attempts n).now (attempts n).id) with
      | .ok (_, T') => true :: queueAnswers C new attempts (n + 1) targets T'
      | .error _ => false :: queueAnswers C new attempts (n + 1) targets T

/-- The answers to the enqueues of an end-of-data. -/
def RelayHandler.queueAnswers (C : Codec) (X : Externals) (h : RelayHandler) (attempts : Nat → Attempt)
    (T : Mails) : List Bool :=
  match h.buildNewMail X with
  | .error _ => []
  | .ok new =>
    match h.ctx.targets new.fromAddr.email with
    | .error _ => []
    | .ok targets => OxidRelay.queueAnswers C new attempts 0 targets T

/-- A row without its id and its clock values. -/
def Row.content (r : Row) : Row := { r with id := "", createdAt := "", updatedAt := "", nextAttemptAt := "" }

/-- What two ends of data have in common: the reply, and the rows added up
to ids and clock values. -/
structure SameOutcome (T T' : Mails) (r r' : Response × Mails) : Prop where
  reply : r.1 = r'.1
  rows : ∃ added added', r.2.rows = T.rows ++ added ∧ r'.2.rows = T'.rows ++ added' ∧
    added.map Row.content = added'.map Row.content

theorem Attempt.enqueue_rows {a : Attempt} {m m' : Mail} {U : Mails} (h : a.enqueue C T m = .ok (m', U)) :
    U.rows = T.rows ++ [mailToRow C m] := by
  unfold Attempt.enqueue at h
  cases hf : a.failure with
  | some message => rw [hf] at h; cases h
  | none =>
    rw [hf] at h
    exact Table.insert_rows (SqliteQueue.enqueue_ok h).2

/-- **The loop does the same with the same answers.** -/
theorem fanOut_same (targets : List RouteTarget) : ∀ (n : Nat) (T T' : Mails) (accepted : Nat),
    queueAnswers C new attempts n targets T = queueAnswers C new attempts' n targets T' →
      (fanOut C new attempts n targets T accepted).2 = (fanOut C new attempts' n targets T' accepted).2 ∧
      ∃ added added', (fanOut C new attempts n targets T accepted).1.rows = T.rows ++ added ∧
        (fanOut C new attempts' n targets T' accepted).1.rows = T'.rows ++ added' ∧
        added.map Row.content = added'.map Row.content := by
  induction targets with
  | nil =>
    intro n T T' accepted _
    exact ⟨rfl, [], [], by simp, by simp, rfl⟩
  | cons target targets ih =>
    intro n T T' accepted hanswers
    unfold queueAnswers at hanswers
    rw [fanOut_cons, fanOut_cons]
    unfold enqueueTarget
    cases hv : (targetPayload new target).validate with
    | error err =>
      simp only [hv] at hanswers ⊢
      exact ih (n + 1) T T' accepted hanswers
    | ok u =>
      simp only [hv] at hanswers ⊢
      have hrows := @Attempt.enqueue_rows C T (attempts n)
        (Mail.fromNew (targetPayload new target) (attempts n).now (attempts n).id)
      have hrows' := @Attempt.enqueue_rows C T' (attempts' n)
        (Mail.fromNew (targetPayload new target) (attempts' n).now (attempts' n).id)
      cases he : (attempts n).enqueue C T
          (Mail.fromNew (targetPayload new target) (attempts n).now (attempts n).id) with
      | error err =>
        cases he' : (attempts' n).enqueue C T'
            (Mail.fromNew (targetPayload new target) (attempts' n).now (attempts' n).id) with
        | error err' =>
          simp only [he, he', List.cons.injEq, true_and] at hanswers ⊢
          exact ih (n + 1) T T' accepted hanswers
        | ok stored' => simp [he, he'] at hanswers
      | ok stored =>
        cases he' : (attempts' n).enqueue C T'
            (Mail.fromNew (targetPayload new target) (attempts' n).now (attempts' n).id) with
        | error err' => simp [he, he'] at hanswers
        | ok stored' =>
          -- both store the mail of the target, under an id and at a time of their own
          simp only [he, he', List.cons.injEq, true_and] at hanswers ⊢
          obtain ⟨hcount, added, added', hadd, hadd', hcontent⟩ :=
            ih (n + 1) stored.2 stored'.2 (accepted + 1) hanswers
          rw [hrows he, List.append_assoc] at hadd
          rw [hrows' he', List.append_assoc] at hadd'
          refine ⟨hcount, _, _, hadd, hadd', ?_⟩
          rw [List.map_append, List.map_append, hcontent]
          rfl

theorem RelayHandler.dataEnd_same (h : RelayHandler)
    (hanswers : h.queueAnswers C X attempts T = h.queueAnswers C X attempts' T') :
    SameOutcome T T' (h.dataEnd C X attempts T) (h.dataEnd C X attempts' T') := by
  unfold RelayHandler.queueAnswers at hanswers
  unfold RelayHandler.dataEnd
  cases hb : h.buildNewMail X with
  | error err => exact ⟨rfl, [], [], by simp, by simp, rfl⟩
  | ok new =>
    simp only [hb] at hanswers ⊢
    cases ht : h.ctx.targets new.fromAddr.email with
    | error reply => exact ⟨rfl, [], [], by simp, by simp, rfl⟩
    | ok targets =>
      simp only [ht] at hanswers ⊢
      obtain ⟨hcount, hrows⟩ := fanOut_same targets 0 T T' 0 hanswers
      exact ⟨by rw [hcount], hrows⟩

/-! ## Two connections -/

/-- **Transactions do not leak into each other.** Two connections, after
any calls that the session permits and whatever others do to the queue,
are told the end of the same transaction (its MAIL address, its recipients
in order, the bytes since its last DATA) under the same identity, and the
queue answers the same: the replies are the same, and the rows added up to
ids and clock values. -/
theorem transaction_isolated {T₀ T₀' : Mails}
    (h : Run (Connection.Step C X ip) (.start (context X config) T₀) conn)
    (h' : Run (Connection.Step C X ip') (.start (context X config) T₀') conn')
    (hp : conn.permits (.dataEnd attempts) = true) (hp' : conn'.permits (.dataEnd attempts') = true)
    (htransaction : transaction conn.calls = transaction conn'.calls)
    (hidentity : conn.handler.authenticatedAs = conn'.handler.authenticatedAs)
    (hanswers : conn.handler.queueAnswers C X attempts conn.queue =
      conn'.handler.queueAnswers C X attempts' conn'.queue) :
    SameOutcome conn.queue conn'.queue (conn.handler.dataEnd C X attempts conn.queue)
      (conn'.handler.dataEnd C X attempts' conn'.queue) := by
  have hg : Guarded X config ip conn := .run h
  have hg' : Guarded X config ip' conn' := .run h'
  have hhandler : conn.handler = conn'.handler := by
    refine RelayHandler.ext_transaction (hg.ctx.trans hg'.ctx.symm) hidentity ?_
    rw [← hg.transaction hp, ← hg'.transaction hp', htransaction]
  rw [← hhandler] at hanswers ⊢
  exact conn.handler.dataEnd_same hanswers

/-- The same transaction after one that was aborted with a recipient of its own. -/
def resetConnection : Connection :=
  [Callback.mail "<old@example.com>", .rcpt "<stale@example.com>", .dataStart, .data [0x78], .helo,
    .mail "<relay@example.com>", .rcpt "<ziel@example.com>", .dataStart, .data exampleMessage].foldl
    (Connection.call textCodec exampleExternals (.v4 0x7F000001))
    (.start (context exampleExternals exampleConfig) Table.empty)

theorem transaction_isolated_example :
    (exampleConnection.handler.dataEnd textCodec exampleExternals exampleAttempts Table.empty).1 =
      (resetConnection.handler.dataEnd textCodec exampleExternals (fun i => exampleAttempts (i + 7))
        Table.empty).1 := by
  have hrun : Run (Connection.Step textCodec exampleExternals (.v4 0x7F000001))
      (.start (context exampleExternals exampleConfig) Table.empty) exampleConnection :=
    .tail (.tail (.tail (.single (.call _ rfl)) (.call _ rfl)) (.call _ rfl)) (.call _ rfl)
  have hrun' : Run (Connection.Step textCodec exampleExternals (.v4 0x7F000001))
      (.start (context exampleExternals exampleConfig) Table.empty) resetConnection :=
    .tail (.tail (.tail (.tail (.tail (.tail (.tail (.tail (.single (.call _ rfl)) (.call _ rfl)) (.call _ rfl))
      (.call _ rfl)) (.call _ rfl)) (.call _ rfl)) (.call _ rfl)) (.call _ rfl)) (.call _ rfl)
  -- both histories end with the same calls from a MAIL on
  obtain ⟨newer, reply, older, older', hcalls, hcalls'⟩ : ∃ newer reply older older',
      exampleConnection.calls = newer ++ (.mail "<relay@example.com>", reply) :: older ∧
      resetConnection.calls = newer ++ (.mail "<relay@example.com>", reply) :: older' :=
    ⟨exampleConnection.calls.take 3, some .ok, [], resetConnection.calls.drop 4, rfl, rfl⟩
  have hsame : transaction exampleConnection.calls = transaction resetConnection.calls := by
    rw [hcalls, hcalls', transaction_append, transaction_append]
  exact (transaction_isolated hrun hrun' rfl rfl hsame rfl rfl).reply

end OxidRelay
