/-
The runs of the relay. Whatever the order of the steps of the dispatcher
and of the clients, the queue goes through a run of the dispatcher's model
that only fresh mails enter, each client makes calls that a connection of
its own could have made, and a `data_end` whose statements others came
between stored and answered what one uninterrupted call does
(`relay_atomic`).

That rests on the ids: a mail is stored under an id that the table does
not have, its row stays, and so none of the mails of one `data_end` gets
in the way of another.
-/
import OxidRelay.FanOut
import OxidRelay.Origins
import OxidRelay.Relay
import OxidRelay.Startup

namespace OxidRelay

open SqliteQueue

variable {τ : Type} {C : Codec} {X : Externals} {config : Config} {d : Dispatcher τ} {s s' : State τ} {now : DateTime}
  {h : RelayHandler} {c c' : Client} {e : EndOfData} {new : NewMail} {r r' : Relay τ} {T : Mails} {m mail : Mail}

/-! ## The loop of a data_end -/

/-- What the loop can make of a target. -/
def Fits (new : NewMail) (target : RouteTarget) (outcome : Option Mail) : Prop :=
  ∀ mail ∈ outcome, (targetPayload new target).validate = .ok () ∧
    mail = Mail.fromNew (targetPayload new target) mail.createdAt mail.id

theorem Fits.none (target : RouteTarget) : Fits new target none := fun mail hmail => by cases hmail

theorem Fits.accepts {target : RouteTarget} (hf : Fits new target (some mail)) :
    accepts new (attemptOf (some mail)) target = true := by
  simp [OxidRelay.accepts, (hf mail rfl).1, attemptOf, Except.isOk, Except.toBool]

theorem Fits.targetRow {target : RouteTarget} (hf : Fits new target (some mail)) :
    targetRow C new (attemptOf (some mail)) target = mailToRow C mail := by
  obtain ⟨-, hmail⟩ := hf mail rfl
  unfold OxidRelay.targetRow
  rw [hmail]
  rfl

theorem not_accepts_none (target : RouteTarget) : accepts new (attemptOf none) target ≠ true := by
  simp [accepts, attemptOf]

/-- **The loop in one go**, on a table without the ids. -/
theorem fanOut_of_fits {attempts : Nat → Attempt} {targets : List RouteTarget} {outcomes : List (Option Mail)}
    (hf : List.Forall₂ (Fits new) targets outcomes) : ∀ (n : Nat) (T : Mails) (accepted : Nat),
    (∀ i, attempts (n + i) = attemptOf outcomes[i]?.join) →
    (T.rows.map Row.id ++ outcomes.reduceOption.map fun mail => C.uuidText mail.id).Nodup →
    (fanOut C new attempts n targets T accepted).1.rows = T.rows ++ outcomes.reduceOption.map (mailToRow C) ∧
    (fanOut C new attempts n targets T accepted).2 = accepted + outcomes.reduceOption.length := by
  induction hf with
  | nil =>
    intro n T accepted _ _
    simp
  | @cons target outcome targets outcomes hfit _ ih =>
    intro n T accepted hattempts hnew
    have hfirst : attempts n = attemptOf outcome := hattempts 0
    have hrest : ∀ i, attempts (n + 1 + i) = attemptOf outcomes[i]?.join := fun i => by
      rw [show n + 1 + i = n + (i + 1) by omega, hattempts (i + 1), List.getElem?_cons_succ]
    rw [fanOut_cons, hfirst]
    cases outcome with
    | none =>
      rw [enqueueTarget_of_not fun ha => absurd ha (not_accepts_none target), List.reduceOption_cons_of_none] at *
      exact ih (n + 1) T accepted hrest hnew
    | some mail =>
      rw [List.reduceOption_cons_of_some, List.map_cons] at hnew
      have hid : T.find (C.uuidText mail.id) = none := by
        refine Table.find_eq_none.2 fun r hr hk => ?_
        exact (List.nodup_append.1 hnew).2.2 _ (List.mem_map_of_mem hr) _ List.mem_cons_self hk
      obtain ⟨U, hU, hrows⟩ := enqueueTarget_of_accepts (C := C) hfit.accepts hid
      have hnew' : (U.rows.map Row.id ++ outcomes.reduceOption.map fun mail => C.uuidText mail.id).Nodup := by
        rw [hrows, hfit.targetRow, List.map_append, List.append_assoc]
        exact hnew
      obtain ⟨hadd, hcount⟩ := ih (n + 1) U (accepted + 1) hrest hnew'
      rw [hU, List.reduceOption_cons_of_some]
      refine ⟨?_, ?_⟩
      · rw [hadd, hrows, hfit.targetRow, List.map_cons, List.append_assoc]
        rfl
      · rw [hcount, List.length_cons]
        omega

theorem RelayHandler.dataEndStart_ok (hs : h.dataEndStart X = .ok e) :
    h.buildNewMail X = .ok e.new ∧ h.ctx.targets e.new.fromAddr.email = .ok e.targets ∧ e.outcomes = [] := by
  unfold RelayHandler.dataEndStart at hs
  cases hb : h.buildNewMail X with
  | error err => simp [hb] at hs
  | ok new =>
    cases ht : h.ctx.targets new.fromAddr.email with
    | error reply => simp [hb, ht] at hs
    | ok targets =>
      simp only [hb, ht, Except.ok.injEq] at hs
      subst hs
      exact ⟨rfl, ht, rfl⟩

/-- A `data_end` that is refused is one call. -/
theorem RelayHandler.dataEnd_of_refused {reply : Response} (hs : h.dataEndStart X = .error reply)
    (attempts : Nat → Attempt) : h.dataEnd C X attempts T = (reply, T) ∧ reply.code ≠ 250 := by
  unfold RelayHandler.dataEndStart at hs
  unfold RelayHandler.dataEnd
  cases hb : h.buildNewMail X with
  | error err =>
    simp only [hb, Except.error.injEq] at hs
    subst hs
    exact ⟨rfl, by simp [Response.code]⟩
  | ok new =>
    obtain ⟨W, hW⟩ := Targets.exists h.ctx.routing new.fromAddr.email
    have htargets := h.ctx.targets_eq hW
    by_cases hw : W = []
    · rw [if_pos hw] at htargets
      simp only [hb, htargets, Except.error.injEq] at hs ⊢
      subst hs
      exact ⟨rfl, by simp [Response.code]⟩
    · rw [if_neg hw] at htargets
      simp [hb, htargets] at hs

/-- Each outcome is that of a target. -/
theorem exists_fits {targets : List RouteTarget} {outcomes : List (Option Mail)} {outcome : Option Mail}
    (hf : List.Forall₂ (Fits new) targets outcomes) (ho : outcome ∈ outcomes) :
    ∃ target ∈ targets, Fits new target outcome := by
  induction hf with
  | nil => cases ho
  | cons hfit _ ih =>
    rcases List.mem_cons.1 ho with rfl | ho
    · exact ⟨_, List.mem_cons_self, hfit⟩
    · obtain ⟨target, ht, hfit⟩ := ih ho
      exact ⟨target, List.mem_cons_of_mem _ ht, hfit⟩

/-- The loop of a `data_end` of the handler `h` has come this far. -/
structure EndOfData.Follows (X : Externals) (h : RelayHandler) (e : EndOfData) : Prop where
  done : ∃ targets, h.dataEndStart X = .ok ⟨e.new, targets ++ e.targets, []⟩ ∧
    List.Forall₂ (Fits e.new) targets e.outcomes
  ids : (e.stored.map Mail.id).Nodup

namespace EndOfData.Follows

theorem start (hs : h.dataEndStart X = .ok e) : e.Follows X h := by
  obtain ⟨-, -, he⟩ := RelayHandler.dataEndStart_ok hs
  obtain ⟨new, targets, outcomes⟩ := e
  cases he
  exact ⟨⟨[], hs, .nil⟩, List.nodup_nil⟩

/-- The loop takes the next target. -/
theorem next (hf : e.Follows X h) {target : RouteTarget} {targets : List RouteTarget}
    (ht : e.targets = target :: targets) {outcome : Option Mail} (hfit : Fits e.new target outcome)
    (hid : ∀ mail ∈ outcome, mail.id ∉ e.stored.map Mail.id) : (e.next targets outcome).Follows X h where
  done := by
    obtain ⟨done, hstart, hfits⟩ := hf.done
    refine ⟨done ++ [target], ?_, List.rel_append hfits (.cons hfit .nil)⟩
    rw [hstart, ht]
    simp [EndOfData.next]
  ids := by
    show ((e.outcomes ++ [outcome]).reduceOption.map Mail.id).Nodup
    rw [List.reduceOption_append, List.map_append]
    cases outcome with
    | none =>
      rw [List.reduceOption_singleton, Option.toList_none, List.map_nil, List.append_nil]
      exact hf.ids
    | some mail =>
      refine List.nodup_append.2 ⟨hf.ids, List.nodup_singleton _, fun a ha b hb hab => ?_⟩
      rw [List.reduceOption_singleton] at hb
      cases List.mem_singleton.1 hb
      exact hid mail rfl (hab ▸ ha)

/-- **A `data_end` that comes to its end is one call**, on every table without its ids. -/
theorem dataEnd (hf : e.Follows X h) (hend : e.targets = [])
    (hnew : ∀ mail ∈ e.stored, T.find (C.uuidText mail.id) = none) :
    (h.dataEnd C X e.attempts T).1 = e.reply ∧
      (h.dataEnd C X e.attempts T).2.rows = T.rows ++ e.stored.map (mailToRow C) := by
  obtain ⟨targets, hstart, hfits⟩ := hf.done
  rw [hend, List.append_nil] at hstart
  have hnodup : (T.rows.map Row.id ++ e.stored.map fun mail => C.uuidText mail.id).Nodup := by
    refine List.nodup_append.2 ⟨T.primaryKey, ?_, fun a ha b hb hab => ?_⟩
    · have hinj : Function.Injective C.uuidText := fun u v huv => C.uuidText_inj.1 huv
      simpa [List.map_map, Function.comp_def] using hf.ids.map hinj
    · obtain ⟨r, hr, rfl⟩ := List.mem_map.1 ha
      obtain ⟨mail, hmail, rfl⟩ := List.mem_map.1 hb
      exact Table.find_eq_none.1 (hnew mail hmail) r hr hab
  have hattempts : ∀ i, e.attempts (0 + i) = attemptOf e.outcomes[i]?.join := fun i => by
    rw [Nat.zero_add]
    rfl
  obtain ⟨hrows, hcount⟩ := fanOut_of_fits hfits 0 T 0 hattempts hnodup
  obtain ⟨hbuild, htargets, -⟩ := RelayHandler.dataEndStart_ok hstart
  rw [Nat.zero_add] at hcount
  unfold RelayHandler.dataEnd EndOfData.reply EndOfData.stored
  rw [hbuild]
  dsimp only
  rw [htargets]
  dsimp only
  exact ⟨by rw [hcount], hrows⟩

end EndOfData.Follows

/-! ## Clients -/

/-- A call that is no `data_end` leaves the queue alone and does not look at it. -/
theorem Client.connection_call {cb : Callback} (hcb : ∀ attempts, cb ≠ .dataEnd attempts) (T : Mails) :
    (c.connection T).call C X c.ip cb = (c.call C X cb).connection T := by
  cases cb with
  | dataEnd attempts => exact absurd rfl (hcb attempts)
  | _ => rfl

theorem Client.permits_connection (c : Client) (cb : Callback) (T U : Mails) :
    (c.connection T).permits cb = (c.connection U).permits cb := by
  cases cb <;> rfl

/-- What a client has done is a run of a connection of its own, and its
`data_end` follows the handler. -/
structure Client.Sound (C : Codec) (X : Externals) (config : Config) (log : List (Entry τ)) (c : Client) : Prop where
  run : ∀ T, Run (Connection.Step C X c.ip) (.start (context X config) Table.empty) (c.connection T)
  ending : ∀ e, c.ending = some e → c.mailAccepted = true ∧ e.Follows X c.handler ∧
    ∀ mail ∈ e.stored, Enqueued mail log

namespace Client.Sound

variable {log log' : List (Entry τ)}

theorem mono (hc : c.Sound C X config log) (hl : ∀ mail, Enqueued mail log → Enqueued mail log') :
    c.Sound C X config log' where
  run := hc.run
  ending e he := by
    obtain ⟨ha, hf, hstored⟩ := hc.ending e he
    exact ⟨ha, hf, fun mail hmail => hl mail (hstored mail hmail)⟩

theorem start (ip : IpAddr) : (Client.start (context X config) ip).Sound C X config log where
  run T := .single (.others T)
  ending e he := by cases he

theorem call (hc : c.Sound C X config log) (hidle : c.ending = none) {cb : Callback}
    (hp : (c.connection Table.empty).permits cb = true) (hcb : ∀ attempts, cb ≠ .dataEnd attempts) :
    (c.call C X cb).Sound C X config log where
  run T := by
    have hstep : Connection.Step C X c.ip (c.connection T) ((c.connection T).call C X c.ip cb) :=
      .call cb (c.permits_connection cb _ T ▸ hp)
    rw [connection_call hcb] at hstep
    exact (hc.run T).tail hstep
  ending e he := by
    have he : c.ending = some e := he
    rw [hidle] at he
    cases he

/-- The loop goes on. -/
theorem proceed (hc : c.Sound C X config log) (ha : c.mailAccepted = true) (hf : e.Follows X c.handler)
    (hstored : ∀ mail ∈ e.stored, Enqueued mail log) : { c with ending := some e }.Sound C X config log where
  run := hc.run
  ending e' he' := by
    cases he'
    exact ⟨ha, hf, hstored⟩

/-- The end of a `data_end` is one call on an empty queue. -/
theorem answered (hc : c.Sound C X config log) (ha : c.mailAccepted = true) {attempts : Nat → Attempt}
    {reply : Response} (hend : (c.handler.dataEnd C X attempts Table.empty).1 = reply) :
    (c.answered attempts reply).Sound C X config log where
  run T := by
    have hstep : Connection.Step C X c.ip (c.connection Table.empty)
        ((c.connection Table.empty).call C X c.ip (.dataEnd attempts)) := .call _ ha
    have hcall : { (c.connection Table.empty).call C X c.ip (.dataEnd attempts) with queue := T } =
        (c.answered attempts reply).connection T := by
      subst hend
      rfl
    exact hcall ▸ ((hc.run Table.empty).tail hstep).tail (.others T)
  ending e he := by cases he

end Client.Sound

/-! ## The invariant -/

/-- The mail is one for a target of the client's `data_end`. -/
def Client.Offers (X : Externals) (c : Client) (target : RouteTarget) (mail : Mail) : Prop :=
  ∃ new targets, c.handler.dataEndStart X = .ok ⟨new, targets, []⟩ ∧ target ∈ targets ∧ Fits new target (some mail)

theorem EndOfData.Follows.offers {target : RouteTarget} (hf : e.Follows X c.handler) (ht : target ∈ e.targets)
    (hfit : Fits e.new target (some mail)) : c.Offers X target mail := by
  obtain ⟨targets, hstart, -⟩ := hf.done
  exact ⟨_, _, hstart, List.mem_append_right _ ht, hfit⟩

theorem EndOfData.Follows.offers_stored (hf : e.Follows X c.handler) (hmail : mail ∈ e.stored) :
    ∃ target, c.Offers X target mail := by
  obtain ⟨targets, hstart, hfits⟩ := hf.done
  obtain ⟨target, ht, hfit⟩ := exists_fits hfits (List.reduceOption_mem_iff.1 hmail)
  exact ⟨target, _, _, hstart, List.mem_append_left _ ht, hfit⟩

structure Submission.Sound (C : Codec) (X : Externals) (config : Config) (log : List (Entry τ)) (sub : Submission) :
    Prop where
  client : sub.client.Sound C X config log
  accepted : sub.client.mailAccepted = true
  offers : sub.client.Offers X sub.target sub.mail

/-- The `data_end` answered and stored what one call does on a table without its ids. -/
structure Answer.Sound (C : Codec) (X : Externals) (config : Config) (log : List (Entry τ)) (a : Answer) :
    Prop where
  client : a.client.Sound C X config log
  accepted : a.client.mailAccepted = true
  atomic : ∃ attempts, ∀ T : Mails, (∀ mail ∈ a.stored, T.find (C.uuidText mail.id) = none) →
    (a.client.handler.dataEnd C X attempts T).1 = a.reply ∧
      (a.client.handler.dataEnd C X attempts T).2.rows = T.rows ++ a.stored.map (mailToRow C)
  stored : ∀ mail ∈ a.stored, Enqueued mail log ∧ ∃ target, a.client.Offers X target mail
  reply : a.reply.code = 250 ↔ a.stored ≠ []

theorem Submission.Sound.mono {sub : Submission} {log log' : List (Entry τ)} (hs : sub.Sound C X config log)
    (hl : ∀ mail, Enqueued mail log → Enqueued mail log') : sub.Sound C X config log' :=
  ⟨hs.client.mono hl, hs.accepted, hs.offers⟩

theorem Answer.Sound.mono {a : Answer} {log log' : List (Entry τ)} (ha : a.Sound C X config log)
    (hl : ∀ mail, Enqueued mail log → Enqueued mail log') : a.Sound C X config log' :=
  ⟨ha.client.mono hl, ha.accepted, ha.atomic, fun mail hmail => (ha.stored mail hmail).imp_left (hl mail), ha.reply⟩

structure Relay.Sound (C : Codec) (X : Externals) (config : Config) (d : Dispatcher τ) (r : Relay τ) : Prop where
  queue : ReachableFromEmpty C d r.state
  up : r.clients ≠ [] → r.state.control ≠ .down
  clients : ∀ c ∈ r.clients, c.Sound C X config r.state.log
  submissions : ∀ sub ∈ r.submissions, sub.Sound C X config r.state.log
  submitted : ∀ mail, Enqueued mail r.state.log ↔ ∃ sub ∈ r.submissions, sub.mail = mail
  answers : ∀ a ∈ r.answers, a.Sound C X config r.state.log

namespace Relay.Sound

theorem initial : (Relay.initial : Relay τ).Sound C X config d where
  queue := .refl
  up h := absurd rfl h
  clients c hc := by cases hc
  submissions sub hsub := by cases hsub
  submitted mail := by simp [Relay.initial, State.initial, Enqueued]
  answers a ha := by cases ha

/-- A client that moves on and leaves the queue alone. -/
theorem setClient (hr : r.Sound C X config d) (i : Nat) (hc : c.Sound C X config r.state.log)
    (hi : (r.clients[i]?).isSome = true) : (r.setClient i c).Sound C X config d where
  queue := hr.queue
  up _ := by
    refine hr.up fun hnil => ?_
    simp [hnil] at hi
  clients c' hc' := by
    rcases List.mem_or_eq_of_mem_set hc' with hmem | rfl
    · exact hr.clients c' hmem
    · exact hc
  submissions := hr.submissions
  submitted := hr.submitted
  answers := hr.answers

theorem answer (hr : r.Sound C X config d) {a : Answer} (ha : a.Sound C X config r.state.log) :
    { r with answers := a :: r.answers }.Sound C X config d where
  queue := hr.queue
  up := hr.up
  clients := hr.clients
  submissions := hr.submissions
  submitted := hr.submitted
  answers a' ha' := by
    rcases List.mem_cons.1 ha' with rfl | ha'
    · exact ha
    · exact hr.answers a' ha'

/-- A step that is no enqueue, with clients that are still connected. -/
theorem own (hr : r.Sound C X config d) (hs : Own C d r.state now s) {clients : List Client}
    (hsub : clients ⊆ r.clients) (hup : clients ≠ [] → s.control ≠ .down) :
    { r with state := s, clients := clients }.Sound C X config d := by
  have hlog (mail : Mail) : Enqueued mail s.log ↔ Enqueued mail r.state.log := by
    rcases hs.step.enqueued_cases with hcase | hcase
    · obtain ⟨mail', hmail'⟩ := hcase
      exact absurd hmail' (hs.own mail')
    · exact hcase mail
  exact {
    queue := hr.queue.tail ⟨now, hs.step⟩
    up := hup
    clients := fun c hc => (hr.clients c (hsub hc)).mono fun mail => (hlog mail).2
    submissions := fun sub hsub => (hr.submissions sub hsub).mono fun mail => (hlog mail).2
    submitted := fun mail => (hlog mail).trans (hr.submitted mail)
    answers := fun a ha => (hr.answers a ha).mono fun mail => (hlog mail).2 }

/-- A statement of a `data_end` that stores its mail. -/
theorem store (hr : r.Sound C X config d) {i : Nat} {target : RouteTarget} {targets : List RouteTarget}
    (hi : r.clients[i]? = some c) (hending : c.ending = some e) (ht : e.targets = target :: targets)
    (hvalid : (targetPayload e.new target).validate = .ok ()) {created : DateTime} {u : MailId}
    (hmail : mail = Mail.fromNew (targetPayload e.new target) created u)
    (henq : enqueue C r.state.table mail = .ok (mail, T)) :
    { r.setClient i { c with ending := some (e.next targets (some mail)) } with
      state := { r.state with table := T }.emit now [.enqueued mail]
      submissions := ⟨c, target, mail⟩ :: r.submissions }.Sound C X config d := by
  have hmem : c ∈ r.clients := List.mem_of_getElem? hi
  have hup : r.state.control ≠ .down := hr.up (List.ne_nil_of_mem hmem)
  have hc := hr.clients c hmem
  obtain ⟨ha, hf, hstored⟩ := hc.ending e hending
  obtain ⟨-, hinsert⟩ := enqueue_ok henq
  have hfit : Fits e.new target (some mail) := by
    intro m hm
    cases hm
    exact ⟨hvalid, hmail ▸ rfl⟩
  have hid : ∀ m ∈ some mail, m.id ∉ e.stored.map Mail.id := by
    intro m hm hmem
    cases hm
    obtain ⟨m, hm, hmid⟩ := List.mem_map.1 hmem
    obtain ⟨row, hrow, -⟩ := hr.queue.row_of_enqueued (hstored m hm)
    have hnew : r.state.table.find (C.uuidText mail.id) = none := Table.insert_new hinsert
    rw [hmid, hnew] at hrow
    cases hrow
  have hlog (m : Mail) : Enqueued m (⟨now, .enqueued mail⟩ :: r.state.log) ↔ mail = m ∨ Enqueued m r.state.log := by
    simp [Enqueued]
  have hmono (m : Mail) (hm : Enqueued m r.state.log) : Enqueued m (⟨now, .enqueued mail⟩ :: r.state.log) :=
    (hlog m).2 (.inr hm)
  refine ⟨hr.queue.tail ⟨now, .enqueue hup henq⟩, fun _ => hup, fun c' hc' => ?_, fun sub hsub => ?_, fun m => ?_,
    fun a ha => (hr.answers a ha).mono hmono⟩
  · rcases List.mem_or_eq_of_mem_set hc' with hc' | rfl
    · exact (hr.clients c' hc').mono hmono
    · refine (hc.mono hmono).proceed ha (hf.next ht hfit hid) fun m hm => ?_
      rw [EndOfData.stored, EndOfData.next, List.reduceOption_append, List.mem_append] at hm
      rcases hm with hm | hm
      · exact hmono m (hstored m hm)
      · rw [List.reduceOption_singleton] at hm
        cases List.mem_singleton.1 hm
        exact (hlog mail).2 (.inl rfl)
  · rcases List.mem_cons.1 hsub with rfl | hsub
    · exact ⟨hc.mono hmono, ha, hf.offers (ht ▸ List.mem_cons_self) hfit⟩
    · exact (hr.submissions sub hsub).mono hmono
  · refine (hlog m).trans ?_
    rw [hr.submitted m, List.exists_mem_cons_iff]

theorem step (hr : r.Sound C X config d) (hs : Step C X config d r r') : r'.Sound C X config d := by
  cases hs with
  | own hown hup => exact hr.own hown (List.Subset.refl _) fun _ => hup
  | down hown hdown => exact hr.own hown (List.nil_subset _) fun hne => absurd rfl hne
  | connect ip hup =>
    refine ⟨hr.queue, fun _ => hup, fun c hc => ?_, hr.submissions, hr.submitted, hr.answers⟩
    rcases List.mem_append.1 hc with hc | hc
    · exact hr.clients c hc
    · cases List.mem_singleton.1 hc
      exact .start ip
  | disconnect i hi _ =>
    refine ⟨hr.queue, fun _ => hr.up fun hnil => ?_, fun c hc => hr.clients c (List.mem_of_mem_eraseIdx hc),
      hr.submissions, hr.submitted, hr.answers⟩
    simp [hnil] at hi
  | call hi hidle hp hcb =>
    have hc := hr.clients _ (List.mem_of_getElem? hi)
    exact hr.setClient _ (hc.call hidle hp hcb) (by simp [hi])
  | rejects hi hidle ha hstart =>
    rename_i i c reply attempts
    have hc := hr.clients _ (List.mem_of_getElem? hi)
    have hend (T : Mails) := RelayHandler.dataEnd_of_refused (C := C) (T := T) hstart
    have hanswered := hr.setClient i (hc.answered ha (congrArg Prod.fst (hend _ attempts).1)) (by simp [hi])
    refine hanswered.answer ⟨hc, ha, ⟨exampleAttempts, fun T _ => ?_⟩, by simp, ?_⟩
    · rw [(hend T _).1]
      simp
    · simp [(hend Table.empty exampleAttempts).2]
  | enters hi hidle ha hstart =>
    have hc := hr.clients _ (List.mem_of_getElem? hi)
    refine hr.setClient _ (hc.proceed ha (.start hstart) ?_) (by simp [hi])
    rw [EndOfData.stored, (RelayHandler.dataEndStart_ok hstart).2.2]
    simp
  | skips hi hending ht _ | fails hi hending ht _ =>
    have hc := hr.clients _ (List.mem_of_getElem? hi)
    obtain ⟨ha, hf, hstored⟩ := hc.ending _ hending
    refine hr.setClient _ (hc.proceed ha (hf.next ht (.none _) (by simp)) ?_) (by simp [hi])
    simpa [EndOfData.stored, EndOfData.next, List.reduceOption_append] using hstored
  | stores hi hending ht hvalid hmail henq => exact hr.store hi hending ht hvalid hmail henq
  | answers hi hending ht =>
    rename_i i c e
    have hc := hr.clients _ (List.mem_of_getElem? hi)
    obtain ⟨ha, hf, hstored⟩ := hc.ending _ hending
    have hanswered := hr.setClient i (hc.answered ha (hf.dataEnd ht fun _ _ => rfl).1) (by simp [hi])
    refine hanswered.answer ⟨hc, ha, ⟨e.attempts, fun T hT => hf.dataEnd ht hT⟩, fun mail hmail => ?_, ?_⟩
    · exact ⟨hstored mail hmail, hf.offers_stored hmail⟩
    unfold EndOfData.reply
    by_cases hlen : e.stored.length = 0
    · rw [if_pos hlen]
      simpa [Response.code] using hlen
    · rw [if_neg hlen]
      simpa [Response.code] using hlen

end Relay.Sound

theorem Relay.Reachable.sound (hr : Reachable C X config d r) : r.Sound C X config d :=
  Run.invariant Sound.step .initial hr

/-- Only fresh mails enter the queue. -/
theorem Relay.Sound.fresh (hr : r.Sound C X config d) : AllFresh r.state.log := by
  intro x hx m hm
  obtain ⟨sub, hsub, rfl⟩ := (hr.submitted m).1 ⟨x, hx, hm⟩
  obtain ⟨new, targets, -, -, hfit⟩ := (hr.submissions sub hsub).offers
  exact ⟨_, _, (hfit sub.mail rfl).2⟩

/-! ## Scripts -/

/-- What may happen next; `i` is a client, and `enter` to `answer` are the
steps of a `data_end` whose mails validate. -/
inductive Relay.Action
  | own (action : OxidRelay.Action)
  | connect (ip : IpAddr)
  | disconnect (i : Nat)
  | call (i : Nat) (cb : Callback)
  | enter (i : Nat)
  | store (i : Nat) (id : MailId)
  | fail (i : Nat)
  | answer (i : Nat)

/-- One step of the `data_end` of the client at index `i`. -/
def Relay.execEnding (C : Codec) (r : Relay τ) (now : DateTime) (i : Nat) (c : Client) (e : EndOfData) :
    Relay.Action → Option (Relay τ)
  | .store _ id =>
    match e.targets with
    | target :: targets =>
      match (targetPayload e.new target).validate with
      | .ok () =>
        match enqueue C r.state.table (Mail.fromNew (targetPayload e.new target) now id) with
        | .ok (mail, T) =>
          some { r.setClient i { c with ending := some (e.next targets (some mail)) } with
            state := { r.state with table := T }.emit now [.enqueued mail]
            submissions := ⟨c, target, mail⟩ :: r.submissions }
        | .error _ => none
      | .error _ => none
    | [] => none
  | .fail _ =>
    match e.targets with
    | target :: targets =>
      match (targetPayload e.new target).validate with
      | .ok () => some (r.setClient i { c with ending := some (e.next targets none) })
      | .error _ => none
    | [] => none
  | .answer _ =>
    match e.targets with
    | [] => some { r.setClient i (c.answered e.attempts e.reply) with answers := ⟨c, e.reply, e.stored⟩ :: r.answers }
    | _ => none
  | _ => none

/-- One step of the client at index `i`. -/
def Relay.execClient (C : Codec) (X : Externals) (r : Relay τ) (now : DateTime) (i : Nat) (c : Client)
    (a : Relay.Action) : Option (Relay τ) :=
  match c.ending with
  | some e => r.execEnding C now i c e a
  | none =>
    match a with
    | .disconnect _ => some { r with clients := r.clients.eraseIdx i }
    | .call _ (.dataEnd _) => none
    | .call _ cb => if (c.connection Table.empty).permits cb then some (r.setClient i (c.call C X cb)) else none
    | .enter _ =>
      if c.mailAccepted then
        match c.handler.dataEndStart X with
        | .ok e => some (r.setClient i { c with ending := some e })
        | .error _ => none
      else none
    | _ => none

/-- The client that an action is about. -/
def Relay.Action.client? : Relay.Action → Option Nat
  | .disconnect i | .call i _ | .enter i | .store i _ | .fail i | .answer i => some i
  | _ => none

/-- The step that an action names, at the clock value `now`. -/
def Relay.exec (C : Codec) (X : Externals) (config : Config) (d : Dispatcher τ) (r : Relay τ) (now : DateTime)
    (a : Relay.Action) : Option (Relay τ) :=
  match a with
  | .own action =>
    (r.state.exec C d now action).bind fun s =>
      if (s.log.take (s.log.length - r.state.log.length)).any fun x => x.event.mail?.isSome then none
      else
        match s.control with
        | .down => some { r with state := s, clients := [] }
        | _ => some { r with state := s }
  | .connect ip =>
    match r.state.control with
    | .down => none
    | _ => some { r with clients := r.clients ++ [.start (context X config) ip] }
  | a => a.client?.bind fun i => (r.clients[i]?).bind fun c => r.execClient C X now i c a

theorem Relay.execEnding_step {i : Nat} {a : Relay.Action} (hi : r.clients[i]? = some c) (he : c.ending = some e)
    (h : r.execEnding C now i c e a = some r') : Relay.Step C X config d r r' := by
  unfold Relay.execEnding at h
  split at h
  · split at h
    · next ht =>
      split at h
      · next hv =>
        split at h
        · next henq =>
          cases h
          obtain ⟨rfl, -⟩ := enqueue_ok henq
          exact .stores hi he ht hv rfl henq
        · cases h
      · cases h
    · cases h
  · split at h
    · next ht =>
      split at h
      · next hv => cases h; exact .fails hi he ht hv
      · cases h
    · cases h
  · split at h
    · next ht => cases h; exact .answers hi he ht
    · cases h
  · cases h

theorem Relay.execClient_step {i : Nat} {a : Relay.Action} (hi : r.clients[i]? = some c)
    (h : r.execClient C X now i c a = some r') : Relay.Step C X config d r r' := by
  unfold Relay.execClient at h
  split at h
  · next he => exact Relay.execEnding_step hi he h
  · next hidle =>
    split at h
    · cases h; exact .disconnect i hi hidle
    · cases h
    · next hcb =>
      split at h
      · next hp => cases h; exact .call hi hidle hp fun attempts heq => hcb attempts (by rw [heq])
      · cases h
    · split at h
      · next hm =>
        split at h
        · next hstart => cases h; exact .enters hi hidle hm hstart
        · cases h
      · cases h
    · cases h

theorem Relay.exec_step {a : Relay.Action} (h : r.exec C X config d now a = some r') :
    Relay.Step C X config d r r' := by
  unfold Relay.exec at h
  split at h
  · obtain ⟨s, hs, h⟩ := Option.bind_eq_some_iff.1 h
    split at h
    · cases h
    · next hlog =>
      have hown : Relay.Own C d r.state now s :=
        ⟨State.exec_step hs, fun mail heq => hlog (by simp [heq, Event.mail?])⟩
      split at h
      · next hdown => cases h; exact .down hown hdown
      · next hup => cases h; exact .own hown hup
  · split at h
    · cases h
    · next hup => cases h; exact .connect _ hup
  · obtain ⟨i, -, h⟩ := Option.bind_eq_some_iff.1 h
    obtain ⟨c, hi, h⟩ := Option.bind_eq_some_iff.1 h
    exact Relay.execClient_step hi h

/-- Actions at clock values, one after the other. -/
def Relay.run (C : Codec) (X : Externals) (config : Config) (d : Dispatcher τ) (r : Relay τ) :
    List (DateTime × Relay.Action) → Option (Relay τ)
  | [] => some r
  | (now, a) :: script => (r.exec C X config d now a).bind fun r => r.run C X config d script

theorem Relay.Reachable.of_run {script : List (DateTime × Relay.Action)} (hr : Relay.Reachable C X config d r)
    (h : r.run C X config d script = some r') : Relay.Reachable C X config d r' := by
  induction script generalizing r with
  | nil =>
    cases h
    exact hr
  | cons x script ih =>
    obtain ⟨y, hy, h⟩ := Option.bind_eq_some_iff.1 h
    exact ih (hr.tail (Relay.exec_step hy)) h

/-! ## Atomicity -/

/-- **Clients and dispatcher do not get in each other's way.** In every
reachable state of the relay, whatever the order of the steps, crashes and
failed statements included: the queue has gone through a run of the
dispatcher that only fresh mails entered; each client has made calls that a
connection of its own could have made, `data_end` being one call; and each
`data_end` that came to its end replied and stored what one uninterrupted
call does on every table without the ids of its mails. -/
theorem relay_atomic (hr : Relay.Reachable C X config d r) :
    ReachableFromEmpty C d r.state ∧ AllFresh r.state.log ∧
    (∀ c ∈ r.clients, ∀ T, Run (Connection.Step C X c.ip) (.start (context X config) Table.empty) (c.connection T)) ∧
    ∀ a ∈ r.answers, ∃ attempts, ∀ T : Mails, (∀ mail ∈ a.stored, T.find (C.uuidText mail.id) = none) →
      (a.client.handler.dataEnd C X attempts T).1 = a.reply ∧
        (a.client.handler.dataEnd C X attempts T).2.rows = T.rows ++ a.stored.map (mailToRow C) :=
  have hs := hr.sound
  ⟨hs.queue, hs.fresh, fun c hc => (hs.clients c hc).run, fun a ha => (hs.answers a ha).atomic⟩

/-! ## A run

Two clients are in their `data_end` when a tick begins. The mail of the
second is stored before it, that of the first before its fetch, and the
first is answered only when both mails are being sent. One send succeeds;
the other fails, and no second attempt is allowed. -/

def onceConfig : Config := { exampleConfig with dispatcher := { exampleConfig.dispatcher with maxAttempts := 1 } }

def onceDispatcher : Dispatcher Unit := ⟨[("smtp", ())], some "smtp", dispatcherConfig onceConfig⟩

def firstMail : Mail := Mail.fromNew exampleNewMail (firstDay 2) ⟨1⟩

def secondMail : Mail :=
  Mail.fromNew { exampleNewMail with fromAddr := Address.new "alarm@example.com" } (firstDay 1) ⟨2⟩

/-- What a client does before end-of-data. -/
def submits (i : Nat) (sender : String) : List Relay.Action :=
  [.call i (.mail sender), .call i (.rcpt "<ziel@example.com>"), .call i .dataStart, .call i (.data exampleMessage)]

def Relay.scriptAt (now : DateTime) (actions : List Relay.Action) : List (DateTime × Relay.Action) :=
  actions.map fun a => (now, a)

def relayScript : List (DateTime × Relay.Action) :=
  Relay.scriptAt (firstDay 0) [.own .start, .own (.recover true)] ++
  Relay.scriptAt (firstDay 0) [.connect (.v4 0x7F000001), .connect (.v4 0x7F000001)] ++
  Relay.scriptAt (firstDay 0) (submits 0 "<relay@example.com>" ++ submits 1 "<alarm@example.com>") ++
  Relay.scriptAt (firstDay 1) [.enter 0, .enter 1, .store 1 ⟨2⟩] ++
  Relay.scriptAt (firstDay 2) [.own .tick, .own (.reclaim true), .store 0 ⟨1⟩, .answer 1, .own (.fetch id),
    .own (.claim true), .own .spawn, .own (.claim true), .own .spawn, .own (.deliver 0), .own (.deliver 1),
    .answer 0] ++
  Relay.scriptAt (firstDay 4) [.own (.sendOk 0), .own (.sendErr 1 (.transport "451")), .own (.mark 0 true)] ++
  Relay.scriptAt (firstDay 5) [.own (.mark 1 true)]

/-- The row of the first mail when its only send had failed. -/
def deadRow : Row :=
  setStatusRow (firstDay 5) .dead (some "transport error: 451") true none (claimedAt (firstDay 2) firstMail)

/-- The dispatcher where the script ends. -/
def relayState : State Unit where
  table := ⟨[sentAt (firstDay 4) (firstDay 2) secondMail, deadRow], by decide +kernel⟩
  control := .claiming []
  tasks := [⟨secondMail, .returned⟩, ⟨firstMail, .returned⟩]
  permits := 6
  pollElapsed := false
  log := [⟨firstDay 5, .marked ⟨1⟩ (.dead "transport error: 451")⟩, ⟨firstDay 4, .marked ⟨2⟩ .sent⟩,
    ⟨firstDay 4, .sendEnded ⟨1⟩ false⟩, ⟨firstDay 4, .sendEnded ⟨2⟩ true⟩, ⟨firstDay 2, .sendStarted () firstMail⟩,
    ⟨firstDay 2, .sendStarted () secondMail⟩, ⟨firstDay 2, .claimed ⟨1⟩⟩, ⟨firstDay 2, .claimed ⟨2⟩⟩,
    ⟨firstDay 2, .fetched secondMail⟩, ⟨firstDay 2, .fetched firstMail⟩, ⟨firstDay 2, .enqueued firstMail⟩,
    ⟨firstDay 2, .tickStarted⟩, ⟨firstDay 1, .enqueued secondMail⟩, ⟨firstDay 0, .started⟩]

theorem run_relayScript :
    ((Relay.initial : Relay Unit).run textCodec exampleExternals onceConfig onceDispatcher relayScript).map
        (fun r => (r.state, r.answers.map fun a => (a.reply, a.stored))) =
      some (relayState, [(.ok, [firstMail]), (.ok, [secondMail])]) := by
  decide +kernel

theorem exists_relayed : ∃ r : Relay Unit,
    Relay.Reachable textCodec exampleExternals onceConfig onceDispatcher r ∧ r.state = relayState ∧
      r.answers.map (fun a => (a.reply, a.stored)) = [(.ok, [firstMail]), (.ok, [secondMail])] := by
  obtain ⟨r, hr, heq⟩ := Option.map_eq_some_iff.1 run_relayScript
  obtain ⟨hstate, hanswers⟩ := Prod.mk.inj heq
  exact ⟨r, .of_run .refl hr, hstate, hanswers⟩

/-- Each `data_end` of the run is one call, on a queue of its own. -/
theorem relay_atomic_example : ∃ r : Relay Unit, r.state = relayState ∧
    r.answers.map (fun a => (a.reply, a.stored)) = [(.ok, [firstMail]), (.ok, [secondMail])] ∧
    ∀ a ∈ r.answers, ∃ attempts,
      (a.client.handler.dataEnd textCodec exampleExternals attempts Table.empty).1 = a.reply ∧
      (a.client.handler.dataEnd textCodec exampleExternals attempts Table.empty).2.rows =
        a.stored.map (mailToRow textCodec) := by
  obtain ⟨r, hr, hstate, hanswers⟩ := exists_relayed
  obtain ⟨-, -, -, hatomic⟩ := relay_atomic hr
  refine ⟨r, hstate, hanswers, fun a ha => ?_⟩
  obtain ⟨attempts, hcall⟩ := hatomic a ha
  exact ⟨attempts, hcall Table.empty fun _ _ => rfl⟩

end OxidRelay
