/-
What end-of-data adds to the queue. The loop over the targets skips those
whose mail does not validate or whose enqueue fails (`fanOut_sublist`), and
with new ids skips no others (`fanOut_kept`). So the rows it adds are, in
the order of the targets, the mails that the configuration and the
transaction call for, less the ones that failed (`fan_out_exact`).

The reply counts the mails that were stored and is 250 from the first one
on. `acknowledged_iff` is when that covers every target.
-/
import Mathlib.Data.List.ReduceOption
import OxidRelay.Access

namespace OxidRelay

variable {C : Codec} {X : Externals} {config : Config} {ip : IpAddr} {conn : Connection} {new : NewMail}
  {attempts : Nat → Attempt} {T : Mails} {W : List RouteTargetConfig}

/-! ## One target -/

/-- The row that the enqueue for a target adds, if it succeeds. -/
def targetRow (C : Codec) (new : NewMail) (a : Attempt) (target : RouteTarget) : Row :=
  mailToRow C (Mail.fromNew (targetPayload new target) a.now a.id)

/-- The mail for a target validates and the backend does not fail. -/
def accepts (new : NewMail) (a : Attempt) (target : RouteTarget) : Bool :=
  (targetPayload new target).validate.isOk && a.failure.isNone

@[simp] theorem targetRow_id (a : Attempt) (target : RouteTarget) :
    (targetRow C new a target).id = C.uuidText a.id := rfl

/-- An accepted mail is inserted, which fails on an id that the table has. -/
theorem enqueueTarget_eq (a : Attempt) (target : RouteTarget) (T : Mails) :
    enqueueTarget C new a target T =
      match accepts new a target, T.insert (targetRow C new a target) with
      | true, some U => (U, 1)
      | _, _ => (T, 0) := by
  unfold enqueueTarget accepts Attempt.enqueue SqliteQueue.enqueue targetRow
  dsimp only
  -- nothing below depends on what the mail is
  generalize (targetPayload new target).validate = valid
  generalize T.insert _ = inserted
  generalize a.failure = failure
  cases valid with
  | error err => rfl
  | ok u =>
    cases failure with
    | some message => rfl
    | none =>
      cases inserted with
      | none => rfl
      | some U => rfl

theorem enqueueTarget_of_accepts {a : Attempt} {target : RouteTarget} (h : accepts new a target = true)
    (hid : T.find (C.uuidText a.id) = none) :
    ∃ U, enqueueTarget C new a target T = (U, 1) ∧ U.rows = T.rows ++ [targetRow C new a target] := by
  obtain ⟨U, hU⟩ := Option.isSome_iff_exists.1 (Table.insert_isSome (T := T) (r := targetRow C new a target) hid)
  refine ⟨U, ?_, Table.insert_rows hU⟩
  rw [enqueueTarget_eq, h, hU]

theorem enqueueTarget_of_not {a : Attempt} {target : RouteTarget}
    (h : accepts new a target = true → T.find (C.uuidText a.id) ≠ none) :
    enqueueTarget C new a target T = (T, 0) := by
  rw [enqueueTarget_eq]
  cases ha : accepts new a target with
  | false => rfl
  | true =>
    cases hi : T.insert (targetRow C new a target) with
    | none => rfl
    | some U => exact absurd (Table.insert_new hi) (h ha)

/-! ## The loop -/

/-- The rows of all targets, the first of them with the `n`-th attempt. -/
def targetRows (C : Codec) (new : NewMail) (attempts : Nat → Attempt) : Nat → List RouteTarget → List Row
  | _, [] => []
  | n, target :: targets => targetRow C new (attempts n) target :: targetRows C new attempts (n + 1) targets

/-- The rows of the targets that are accepted. -/
def keptRows (C : Codec) (new : NewMail) (attempts : Nat → Attempt) : Nat → List RouteTarget → List Row
  | _, [] => []
  | n, target :: targets =>
    if accepts new (attempts n) target then
      targetRow C new (attempts n) target :: keptRows C new attempts (n + 1) targets
    else keptRows C new attempts (n + 1) targets

/-- **The rows added are rows of the targets, in order**, and the count is theirs. -/
theorem fanOut_sublist (C : Codec) (new : NewMail) (attempts : Nat → Attempt) (targets : List RouteTarget) :
    ∀ (n : Nat) (T : Mails) (accepted : Nat),
    ∃ added, (fanOut C new attempts n targets T accepted).1.rows = T.rows ++ added ∧
      added.Sublist (targetRows C new attempts n targets) ∧
      (fanOut C new attempts n targets T accepted).2 = accepted + added.length := by
  induction targets with
  | nil =>
    intro n T accepted
    exact ⟨[], by simp, List.nil_sublist _, rfl⟩
  | cons target targets ih =>
    intro n T accepted
    rw [fanOut_cons, targetRows]
    by_cases hs : accepts new (attempts n) target = true ∧ T.find (C.uuidText (attempts n).id) = none
    · obtain ⟨U, hU, hrows⟩ := enqueueTarget_of_accepts hs.1 hs.2
      rw [hU]
      obtain ⟨added, hadd, hsub, hcount⟩ := ih (n + 1) U (accepted + 1)
      refine ⟨targetRow C new (attempts n) target :: added, ?_, hsub.cons_cons _, ?_⟩
      · rw [hadd, hrows, List.append_assoc]
        rfl
      · rw [hcount, List.length_cons]
        omega
    · rw [enqueueTarget_of_not fun ha hid => hs ⟨ha, hid⟩]
      obtain ⟨added, hadd, hsub, hcount⟩ := ih (n + 1) T accepted
      exact ⟨added, hadd, hsub.cons _, hcount⟩

/-- The ids are new: not in the table, and no two the same. -/
def NewIds (C : Codec) (new : NewMail) (attempts : Nat → Attempt) (n : Nat) (targets : List RouteTarget)
    (T : Mails) : Prop :=
  ((T.rows ++ targetRows C new attempts n targets).map Row.id).Nodup

/-- **With new ids, every accepted mail is stored.** -/
theorem fanOut_kept (targets : List RouteTarget) : ∀ (n : Nat) (T : Mails) (accepted : Nat),
    NewIds C new attempts n targets T →
      (fanOut C new attempts n targets T accepted).1.rows = T.rows ++ keptRows C new attempts n targets := by
  induction targets with
  | nil =>
    intro n T accepted _
    simp [keptRows]
  | cons target targets ih =>
    intro n T accepted hnew
    unfold NewIds targetRows at hnew
    rw [fanOut_cons, keptRows]
    by_cases ha : accepts new (attempts n) target = true
    · have hid : T.find (C.uuidText (attempts n).id) = none := by
        refine Table.find_eq_none.2 fun r hr hk => ?_
        rw [List.map_append, List.nodup_append] at hnew
        exact hnew.2.2 _ (List.mem_map_of_mem hr) _ (List.mem_cons_self) hk
      obtain ⟨U, hU, hrows⟩ := enqueueTarget_of_accepts ha hid
      have hnew' : NewIds C new attempts (n + 1) targets U := by
        unfold NewIds
        rw [hrows, List.append_assoc]
        exact hnew
      rw [hU, if_pos ha, ih (n + 1) U _ hnew', hrows, List.append_assoc]
      rfl
    · have hnew' : NewIds C new attempts (n + 1) targets T := by
        refine hnew.sublist (List.Sublist.map _ ((List.sublist_cons_self _ _).append_left _))
      rw [enqueueTarget_of_not fun ha' => absurd ha' ha, if_neg ha]
      exact ih (n + 1) T _ hnew'

/-! ## All of them, or none -/

/-- Every target is accepted. -/
def AllAccepted (new : NewMail) (attempts : Nat → Attempt) (n : Nat) (targets : List RouteTarget) : Prop :=
  ∀ i target, targets[i]? = some target → accepts new (attempts (n + i)) target = true

/-- No target is accepted under a new id. -/
def NoneStored (C : Codec) (new : NewMail) (attempts : Nat → Attempt) (n : Nat) (targets : List RouteTarget)
    (T : Mails) : Prop :=
  ∀ i target, targets[i]? = some target → accepts new (attempts (n + i)) target = true →
    T.find (C.uuidText (attempts (n + i)).id) ≠ none

/-- What holds of every target under its own attempt. -/
theorem forall_targets_cons {P : Attempt → RouteTarget → Prop} {n : Nat} {target : RouteTarget}
    {targets : List RouteTarget} :
    (∀ i t, (target :: targets)[i]? = some t → P (attempts (n + i)) t) ↔
      P (attempts n) target ∧ ∀ i t, targets[i]? = some t → P (attempts (n + 1 + i)) t := by
  constructor
  · intro h
    refine ⟨h 0 target rfl, fun i t ht => ?_⟩
    have := h (i + 1) t ht
    rwa [show n + (i + 1) = n + 1 + i by omega] at this
  · intro h i t ht
    cases i with
    | zero =>
      cases ht
      exact h.1
    | succ i =>
      have := h.2 i t ht
      rwa [show n + 1 + i = n + (i + 1) by omega] at this

theorem allAccepted_cons {n : Nat} {target : RouteTarget} {targets : List RouteTarget} :
    AllAccepted new attempts n (target :: targets) ↔
      accepts new (attempts n) target = true ∧ AllAccepted new attempts (n + 1) targets := by
  exact forall_targets_cons (P := fun a t => accepts new a t = true)

theorem noneStored_cons {n : Nat} {target : RouteTarget} {targets : List RouteTarget} :
    NoneStored C new attempts n (target :: targets) T ↔
      (accepts new (attempts n) target = true → T.find (C.uuidText (attempts n).id) ≠ none) ∧
        NoneStored C new attempts (n + 1) targets T := by
  exact forall_targets_cons (P := fun a t => accepts new a t = true → T.find (C.uuidText a.id) ≠ none)

theorem keptRows_eq_targetRows (targets : List RouteTarget) : ∀ n : Nat,
    keptRows C new attempts n targets = targetRows C new attempts n targets ↔
      AllAccepted new attempts n targets := by
  have hle (targets : List RouteTarget) : ∀ n : Nat,
      (keptRows C new attempts n targets).length ≤ (targetRows C new attempts n targets).length := by
    induction targets with
    | nil =>
      intro n
      exact le_rfl
    | cons target targets ih =>
      intro n
      have := ih (n + 1)
      rw [keptRows, targetRows]
      split <;> simp only [List.length_cons] <;> omega
  induction targets with
  | nil =>
    intro n
    simp [keptRows, targetRows, AllAccepted]
  | cons target targets ih =>
    intro n
    rw [allAccepted_cons, ← ih (n + 1), keptRows, targetRows]
    by_cases ha : accepts new (attempts n) target = true
    · rw [if_pos ha, List.cons.injEq]
      simp [ha]
    · rw [if_neg ha]
      refine iff_of_false (fun h => ?_) fun h => ha h.1
      have := hle targets (n + 1)
      rw [h, List.length_cons] at this
      omega

/-- The rows added are those of every target exactly when all are accepted, under new ids. -/
theorem fanOut_all (n : Nat) (targets : List RouteTarget) (accepted : Nat) :
    (fanOut C new attempts n targets T accepted).1.rows = T.rows ++ targetRows C new attempts n targets ↔
      AllAccepted new attempts n targets ∧ NewIds C new attempts n targets T := by
  constructor
  · intro h
    have hnew : NewIds C new attempts n targets T := by
      unfold NewIds
      rw [← h]
      exact (fanOut C new attempts n targets T accepted).1.primaryKey
    rw [fanOut_kept targets n T accepted hnew, List.append_cancel_left_eq] at h
    exact ⟨(keptRows_eq_targetRows targets n).1 h, hnew⟩
  · intro h
    obtain ⟨hall, hnew⟩ := h
    rw [fanOut_kept targets n T accepted hnew, (keptRows_eq_targetRows targets n).2 hall]

/-- The count stays at zero exactly when none is stored. -/
theorem fanOut_none (targets : List RouteTarget) : ∀ (n accepted : Nat),
    (fanOut C new attempts n targets T accepted).2 = accepted ↔ NoneStored C new attempts n targets T := by
  induction targets with
  | nil =>
    intro n accepted
    simp [NoneStored]
  | cons target targets ih =>
    intro n accepted
    rw [noneStored_cons]
    rw [fanOut_cons]
    by_cases hs : accepts new (attempts n) target = true ∧ T.find (C.uuidText (attempts n).id) = none
    · obtain ⟨U, hU, -⟩ := enqueueTarget_of_accepts hs.1 hs.2
      rw [hU]
      obtain ⟨added, -, -, hcount⟩ := fanOut_sublist C new attempts targets (n + 1) U (accepted + 1)
      rw [hcount]
      exact iff_of_false (by omega) fun h => h.1 hs.1 hs.2
    · have hnot : accepts new (attempts n) target = true → T.find (C.uuidText (attempts n).id) ≠ none :=
        fun ha hid => hs ⟨ha, hid⟩
      rw [enqueueTarget_of_not hnot]
      exact (ih (n + 1) accepted).trans (iff_and_self.2 fun _ => hnot)

/-! ## What the configuration and the transaction call for -/

/-- The mail for one target of a transaction. -/
def Transaction.mailFor (t : Transaction) (subject body : String) (a : Attempt) (target : RouteTargetConfig) :
    Mail where
  id := a.id
  fromAddr := Address.new (stripBrackets t.sender)
  toAddrs :=
    if target.recipients = [] then t.recipients.map fun recipient => Address.new (stripBrackets recipient)
    else target.recipients.map Address.new
  subject := subject
  body := body
  transport := if target.transport = "" then none else some target.transport
  status := .pending
  attempts := 0
  lastError := none
  createdAt := a.now
  updatedAt := a.now
  nextAttemptAt := a.now

/-- The mail a transaction is received as. -/
def Transaction.received (t : Transaction) (subject body : String) : NewMail where
  fromAddr := Address.new (stripBrackets t.sender)
  toAddrs := t.recipients.map fun recipient => Address.new (stripBrackets recipient)
  subject := subject
  body := body
  transport := none

def Blank (s : String) : Prop := Str.isEmpty (Str.trim s) = true

variable {t : Transaction} {subject body : String}

theorem isEmpty_iff {s : String} : Str.isEmpty s = true ↔ s = "" := by
  simp [Str.isEmpty, List.isEmpty_iff]

theorem fromNew_received (a : Attempt) (target : RouteTargetConfig) :
    Mail.fromNew (targetPayload (t.received subject body) target.resolved) a.now a.id =
      t.mailFor subject body a target := by
  have htransport : (if Str.isEmpty target.transport = true then none else some target.transport) =
      if target.transport = "" then none else some target.transport := by
    by_cases hs : target.transport = ""
    · rw [if_pos hs, if_pos (isEmpty_iff.2 hs)]
    · rw [if_neg hs, if_neg fun he => hs (isEmpty_iff.1 he)]
  have hto (original : List Address) : (recipientOverride target.recipients).getD original =
      if target.recipients = [] then original else target.recipients.map Address.new := by
    cases target.recipients with
    | nil => rfl
    | cons r rs => rfl
  unfold targetPayload Mail.fromNew Transaction.mailFor
  simp only [RouteTargetConfig.resolved, Transaction.received, Mail.mk.injEq, true_and, and_true]
  exact ⟨hto _, htransport⟩

theorem targetRow_received (a : Attempt) (target : RouteTargetConfig) :
    targetRow C (t.received subject body) a target.resolved = mailToRow C (t.mailFor subject body a target) := by
  rw [targetRow, fromNew_received]

theorem NewMail.validate_iff (new : NewMail) :
    new.validate = .ok () ↔ ¬ Blank new.fromAddr.email ∧ new.toAddrs ≠ [] ∧ ¬ Blank new.subject := by
  unfold NewMail.validate Blank
  split
  · next h => simp [h]
  split
  · next h => simp [h]
  split
  · next h => simp [h]
  · next hf ht hs => simp [hf, ht, hs]

/-- When the mail for a target validates. -/
theorem validate_received (target : RouteTargetConfig) :
    (targetPayload (t.received subject body) target.resolved).validate = .ok () ↔
      ¬ Blank (stripBrackets t.sender) ∧ ¬ Blank subject ∧ (t.recipients ≠ [] ∨ target.recipients ≠ []) := by
  have hto : (targetPayload (t.received subject body) target.resolved).toAddrs ≠ [] ↔
      t.recipients ≠ [] ∨ target.recipients ≠ [] := by
    unfold targetPayload RouteTargetConfig.resolved recipientOverride Transaction.received
    cases target.recipients with
    | nil => simp
    | cons r rs => simp
  rw [NewMail.validate_iff, hto]
  constructor
  · intro h
    exact ⟨h.1, h.2.2, h.2.1⟩
  · intro h
    exact ⟨h.1, h.2.2, h.2.1⟩

/-- The mail for a target validates unless the sender or the subject is blank. -/
theorem accepts_received (hrcpt : t.recipients ≠ []) (a : Attempt) (target : RouteTargetConfig) :
    accepts (t.received subject body) a target.resolved = true ↔
      ¬ Blank (stripBrackets t.sender) ∧ ¬ Blank subject ∧ a.failure = none := by
  have hvalid : (targetPayload (t.received subject body) target.resolved).validate = .ok () ↔ _ :=
    validate_received target
  unfold accepts
  cases hv : (targetPayload (t.received subject body) target.resolved).validate with
  | error err =>
    rw [hv] at hvalid
    have hnot : ¬ (¬ Blank (stripBrackets t.sender) ∧ ¬ Blank subject) := fun h =>
      absurd (hvalid.2 ⟨h.1, h.2, .inl hrcpt⟩) (by simp)
    simp only [Except.isOk, Except.toBool, Bool.false_and, Bool.false_eq_true, false_iff]
    exact fun h => hnot ⟨h.1, h.2.1⟩
  | ok u =>
    obtain ⟨hf, hs, -⟩ := hvalid.1 hv
    simp [Except.isOk, Except.toBool, hf, hs]

theorem targetRows_received (subject body : String) (attempts : Nat → Attempt) (W : List RouteTargetConfig) :
    ∀ n : Nat, targetRows C (t.received subject body) attempts n (W.map RouteTargetConfig.resolved) =
      W.mapIdx fun i target => mailToRow C (t.mailFor subject body (attempts (n + i)) target) := by
  induction W with
  | nil =>
    intro n
    rfl
  | cons target W ih =>
    intro n
    rw [List.map_cons, targetRows, ih (n + 1), targetRow_received, List.mapIdx_cons]
    simp only [Nat.add_zero, Nat.add_assoc, Nat.add_comm 1]

theorem keptRows_received (body : String) (attempts : Nat → Attempt) (hrcpt : t.recipients ≠ [])
    (hfrom : ¬ Blank (stripBrackets t.sender)) (hsubject : ¬ Blank subject)
    (W : List RouteTargetConfig) : ∀ n : Nat,
    keptRows C (t.received subject body) attempts n (W.map RouteTargetConfig.resolved) =
      (W.mapIdx fun i target => if (attempts (n + i)).failure = none then
        some (mailToRow C (t.mailFor subject body (attempts (n + i)) target)) else none).reduceOption := by
  induction W with
  | nil =>
    intro n
    rfl
  | cons target W ih =>
    intro n
    rw [List.map_cons, keptRows, ih (n + 1), targetRow_received, List.mapIdx_cons]
    simp only [Nat.add_zero, Nat.add_assoc, Nat.add_comm 1]
    by_cases hf : (attempts n).failure = none
    · rw [if_pos ((accepts_received hrcpt _ _).2 ⟨hfrom, hsubject, hf⟩), if_pos hf, List.reduceOption_cons_of_some]
    · rw [if_neg fun ha => hf ((accepts_received hrcpt _ _).1 ha).2.2, if_neg hf, List.reduceOption_cons_of_none]

/-! ## End of data -/

theorem RelayHandler.dataEnd_unparsed (attempts : Nat → Attempt) {h : RelayHandler}
    (hp : X.parseMessage h.data = none) :
    h.dataEnd C X attempts T =
      (.custom 554 ("rejected: " ++ (CoreError.invalidMail "could not parse message").toString), T) := by
  unfold RelayHandler.dataEnd
  rw [h.buildNewMail_eq, hp]

/-- What end-of-data does with a message that parses. -/
theorem RelayHandler.dataEnd_built (attempts : Nat → Attempt) {h : RelayHandler} (hb : h.buildNewMail X = .ok new)
    (hW : Targets h.ctx.routing new.fromAddr.email W) :
    h.dataEnd C X attempts T =
      if W = [] then (.custom 550 "sender not permitted", T)
      else
        let r := fanOut C new attempts 0 (W.map RouteTargetConfig.resolved) T 0
        (if r.2 = 0 then .internalError else .ok, r.1) := by
  unfold RelayHandler.dataEnd
  rw [hb]
  dsimp only
  rw [Context.targets_eq _ hW]
  by_cases hw : W = []
  · rw [if_pos hw, if_pos hw]
  · rw [if_neg hw, if_neg hw]

/-- The queue afterwards is `queue` with the rows `added`, of the targets
`W` in their order; the reply is 250 exactly when there is one. -/
structure FannedOut (C : Codec) (t : Transaction) (subject body : String) (attempts : Nat → Attempt)
    (W : List RouteTargetConfig) (T : Mails) (result : Response × Mails) (added : List Row) : Prop where
  rows : result.2.rows = T.rows ++ added
  sublist : added.Sublist (W.mapIdx fun i target => mailToRow C (t.mailFor subject body (attempts i) target))
  reply : result.1.code = 250 ↔ added ≠ []

/-- The rows of the targets whose enqueue does not fail. -/
def storableRows (C : Codec) (t : Transaction) (subject body : String) (attempts : Nat → Attempt)
    (W : List RouteTargetConfig) : List Row :=
  (W.mapIdx fun i target => if (attempts i).failure = none then
    some (mailToRow C (t.mailFor subject body (attempts i) target)) else none).reduceOption

theorem RelayHandler.fannedOut (attempts : Nat → Attempt) {h : RelayHandler} (hrcpt : h.recipients ≠ [])
    (hW : Targets h.ctx.routing (stripBrackets h.envelopeFrom) W) {parsed : ParsedMessage}
    (hp : X.parseMessage h.data = some parsed)
    (hs : h.ctx.label h.authenticatedAs (parsed.subject.getD "") = subject)
    (hb : parsed.bodyText.getD (Utf8.fromUtf8Lossy h.data) = body) :
    ∃ added, FannedOut C h.transaction subject body attempts W T (h.dataEnd C X attempts T) added ∧
      (Blank (stripBrackets h.envelopeFrom) ∨ Blank subject → added = []) ∧
      (¬ Blank (stripBrackets h.envelopeFrom) → ¬ Blank subject →
        (T.rows.map Row.id ++ W.mapIdx fun i _ => C.uuidText (attempts i).id).Nodup →
        added = storableRows C h.transaction subject body attempts W) := by
  have hbuild : h.buildNewMail X = .ok (h.transaction.received subject body) := by
    rw [h.buildNewMail_eq, hp, ← hs, ← hb]
    rfl
  rw [RelayHandler.dataEnd_built attempts hbuild hW]
  by_cases hw : W = []
  · subst hw
    exact ⟨[], ⟨by simp, List.nil_sublist _, by simp [Response.code]⟩, fun _ => rfl, fun _ _ _ => rfl⟩
  rw [if_neg hw]
  have hrows := targetRows_received (C := C) (t := h.transaction) subject body attempts W 0
  simp only [Nat.zero_add] at hrows
  obtain ⟨added, hadd, hsub, hcount⟩ := fanOut_sublist C (h.transaction.received subject body) attempts
    (W.map RouteTargetConfig.resolved) 0 T 0
  refine ⟨added, ⟨hadd, hrows ▸ hsub, ?_⟩, ?_, ?_⟩
  · dsimp only
    rw [hcount, Nat.zero_add]
    by_cases hnil : added = []
    · simp [hnil, Response.code]
    · simp [hnil, Response.code]
  · intro hblank
    have hnone : NoneStored C (h.transaction.received subject body) attempts 0
        (W.map RouteTargetConfig.resolved) T := by
      intro i target ht ha
      obtain ⟨w, -, rfl⟩ := List.mem_map.1 (List.mem_of_getElem? ht)
      obtain ⟨hf, hs, -⟩ := (accepts_received (t := h.transaction) hrcpt _ _).1 ha
      exact absurd hblank (not_or.2 ⟨hf, hs⟩)
    rw [(fanOut_none _ 0 0).2 hnone] at hcount
    exact List.length_eq_zero_iff.1 (by omega)
  · intro hf hs hnew
    have hnew' : NewIds C (h.transaction.received subject body) attempts 0
        (W.map RouteTargetConfig.resolved) T := by
      unfold NewIds
      rw [List.mapIdx_eq_zipIdx_map] at hrows hnew
      rw [hrows, List.map_append, List.map_map]
      exact hnew
    rw [fanOut_kept _ 0 T 0 hnew', List.append_cancel_left_eq] at hadd
    have hkept := keptRows_received (C := C) (t := h.transaction) body attempts hrcpt hf hs W 0
    simp only [Nat.zero_add] at hkept
    rw [← hadd]
    exact hkept

/-- **Fan-out is exact.** In every reachable state of a connection with a
transaction that has a recipient, for every pattern of enqueue failures:
the rows that end-of-data adds are, in their order, rows of the targets
that the configuration lists for the envelope sender, each with its own
transport and recipients and all with the sender, subject and body of the
transaction, pending, without attempts and due from their creation. A
message that does not parse, or whose sender or subject is blank, adds
none; else, the ids being new, only targets whose enqueue failed are
missing. The reply is 250 exactly when a row was added. -/
theorem fan_out_exact {T₀ : Mails} (h : Run (Connection.Step C X ip) (.start (context X config) T₀) conn)
    (hp : conn.permits (.dataEnd attempts) = true) (hrcpt : (transaction conn.calls).recipients ≠ [])
    (hW : Targets config.routing (stripBrackets (transaction conn.calls).sender) W) :
    ∃ subject body added,
      FannedOut C (transaction conn.calls) subject body attempts W conn.queue
        (conn.handler.dataEnd C X attempts conn.queue) added ∧
      (conn.call C X ip (.dataEnd attempts)).queue.rows = conn.queue.rows ++ added ∧
      match X.parseMessage (transaction conn.calls).data with
      | none => added = []
      | some parsed =>
        subject = (context X config).label conn.handler.authenticatedAs (parsed.subject.getD "") ∧
        body = parsed.bodyText.getD (Utf8.fromUtf8Lossy (transaction conn.calls).data) ∧
        (Blank (stripBrackets (transaction conn.calls).sender) ∨ Blank subject → added = []) ∧
        (¬ Blank (stripBrackets (transaction conn.calls).sender) → ¬ Blank subject →
          (conn.queue.rows.map Row.id ++ W.mapIdx fun i _ => C.uuidText (attempts i).id).Nodup →
          added = storableRows C (transaction conn.calls) subject body attempts W) := by
  have hg : Guarded X config ip conn := .run h
  rw [hg.transaction hp] at hrcpt hW ⊢
  have hW : Targets conn.handler.ctx.routing (stripBrackets conn.handler.envelopeFrom) W := by rwa [hg.ctx]
  show ∃ subject body added, _ ∧ (conn.handler.dataEnd C X attempts conn.queue).2.rows = _ ∧ _
  cases hparse : X.parseMessage conn.handler.transaction.data with
  | none =>
    have hend := RelayHandler.dataEnd_unparsed (C := C) (T := conn.queue) attempts hparse
    refine ⟨"", "", [], ⟨?_, List.nil_sublist _, ?_⟩, ?_, rfl⟩ <;> rw [hend] <;> simp [Response.code]
  | some parsed =>
    obtain ⟨added, hfan, hblank, hall⟩ := RelayHandler.fannedOut (C := C) (T := conn.queue) attempts
      hrcpt hW hparse rfl rfl
    rw [hg.ctx] at hfan hblank hall
    exact ⟨_, _, added, hfan, hfan.rows, rfl, rfl, hblank, hall⟩

/-! ## A sender with two channels -/

def alarmTargets : List RouteTargetConfig := [⟨"teams", ["ops@teams.local"]⟩, ⟨"ntfy", []⟩]

/-- Anonymous submission from the local host, with a sender that goes to
two channels. -/
def alarmConfig : Config :=
  { exampleConfig with routing := ⟨none, .single "alarm@example.com" ⟨none, [], alarmTargets⟩⟩ }

def alarmConnection : Connection :=
  [Callback.mail "<alarm@example.com>", .rcpt "<ziel@example.com>", .dataStart, .data exampleMessage].foldl
    (Connection.call textCodec exampleExternals (.v4 0x7F000001))
    (.start (context exampleExternals alarmConfig) Table.empty)

/-- The second enqueue fails. -/
def alarmAttempts (i : Nat) : Attempt := ⟨default, ⟨i⟩, if i = 1 then some "database is locked" else none⟩

def alarmNewMail : NewMail :=
  ⟨Address.new "alarm@example.com", [Address.new "ziel@example.com"], "Status", "Okay\r\n", none⟩

theorem fan_out_exact_example : ∃ subject body added,
    FannedOut textCodec (transaction alarmConnection.calls) subject body alarmAttempts alarmTargets
      alarmConnection.queue
      (alarmConnection.handler.dataEnd textCodec exampleExternals alarmAttempts alarmConnection.queue) added := by
  have hrun : Run (Connection.Step textCodec exampleExternals (.v4 0x7F000001))
      (.start (context exampleExternals alarmConfig) Table.empty) alarmConnection :=
    .tail (.tail (.tail (.single (.call _ rfl)) (.call _ rfl)) (.call _ rfl)) (.call _ rfl)
  have hp : alarmConnection.permits (.dataEnd alarmAttempts) = true := rfl
  have hrcpt : (transaction alarmConnection.calls).recipients ≠ [] := List.cons_ne_nil _ _
  have hsender : stripBrackets (transaction alarmConnection.calls).sender = "alarm@example.com" := by decide
  have hrule : EffectiveRule alarmConfig.routing "alarm@example.com" ⟨none, [], alarmTargets⟩ :=
    .own (List.mem_singleton.2 rfl)
  have hW : Targets alarmConfig.routing (stripBrackets (transaction alarmConnection.calls).sender)
      alarmTargets := by
    rw [hsender]
    exact .byRule hrule
  obtain ⟨subject, body, added, hfan, -⟩ := fan_out_exact hrun hp hrcpt hW
  exact ⟨subject, body, added, hfan⟩

/-! ## What the reply covers -/

/-- If the reply is 250, every target that the configuration lists has its row. -/
def Covers (C : Codec) (X : Externals) (h : RelayHandler) (attempts : Nat → Attempt) (T : Mails) : Prop :=
  (h.dataEnd C X attempts T).1.code = 250 → ∀ new W, h.buildNewMail X = .ok new →
    Targets h.ctx.routing new.fromAddr.email W →
    (h.dataEnd C X attempts T).2.rows = T.rows ++ targetRows C new attempts 0 (W.map RouteTargetConfig.resolved)

/-- **When a positive reply covers every target.** That is when the message
does not parse, when the mails for all its targets are accepted, under new
ids, and when none is stored. -/
theorem acknowledged_iff (C : Codec) (X : Externals) (h : RelayHandler) (attempts : Nat → Attempt) (T : Mails) :
    Covers C X h attempts T ↔ ∀ new W, h.buildNewMail X = .ok new → Targets h.ctx.routing new.fromAddr.email W →
      (AllAccepted new attempts 0 (W.map RouteTargetConfig.resolved) ∧
        NewIds C new attempts 0 (W.map RouteTargetConfig.resolved) T) ∨
      NoneStored C new attempts 0 (W.map RouteTargetConfig.resolved) T := by
  unfold Covers
  constructor
  · intro hcov new W hb hW
    have hend := RelayHandler.dataEnd_built (C := C) (T := T) attempts hb hW
    by_cases hw : W = []
    · subst hw
      exact .inr fun i target ht => by simp at ht
    rw [if_neg hw] at hend
    by_cases hzero : (fanOut C new attempts 0 (W.map RouteTargetConfig.resolved) T 0).2 = 0
    · exact .inr ((fanOut_none _ 0 0).1 hzero)
    · have hrows := hcov (by simp [hend, hzero, Response.code]) new W hb hW
      rw [hend] at hrows
      exact .inl ((fanOut_all 0 _ 0).1 hrows)
  · intro hcond hcode new W hb hW
    have hend := RelayHandler.dataEnd_built (C := C) (T := T) attempts hb hW
    by_cases hw : W = []
    · rw [hend, if_pos hw] at hcode
      simp [Response.code] at hcode
    rw [if_neg hw] at hend
    dsimp only at hend
    rw [hend] at hcode ⊢
    rcases hcond new W hb hW with hall | hnone
    · exact (fanOut_all 0 _ 0).2 hall
    · rw [(fanOut_none _ 0 0).2 hnone] at hcode
      simp [Response.code] at hcode

/-- **A channel is lost without notice.** The mail for `teams` is stored,
the one for `ntfy` is not, and the reply is 250. -/
theorem alarm_not_covered :
    (alarmConnection.handler.dataEnd textCodec exampleExternals alarmAttempts Table.empty).1 = .ok ∧
    (alarmConnection.handler.dataEnd textCodec exampleExternals alarmAttempts Table.empty).2.rows =
      [targetRow textCodec alarmNewMail (alarmAttempts 0) ⟨"teams", some [Address.new "ops@teams.local"]⟩] ∧
    ¬ Covers textCodec exampleExternals alarmConnection.handler alarmAttempts Table.empty := by
  have hbuild : alarmConnection.handler.buildNewMail exampleExternals = .ok alarmNewMail := by decide
  have hrule : EffectiveRule alarmConnection.handler.ctx.routing alarmNewMail.fromAddr.email
      ⟨none, [], alarmTargets⟩ :=
    .own (List.mem_singleton.2 rfl)
  have hW : Targets alarmConnection.handler.ctx.routing alarmNewMail.fromAddr.email alarmTargets := .byRule hrule
  have hend := RelayHandler.dataEnd_built (C := textCodec) (T := Table.empty) alarmAttempts hbuild hW
  have hnew : NewIds textCodec alarmNewMail alarmAttempts 0 (alarmTargets.map RouteTargetConfig.resolved)
      Table.empty := by
    simp [NewIds, alarmTargets, targetRows, Table.empty, alarmAttempts, textCodec.uuidText_inj]
  have hfirst : accepts alarmNewMail (alarmAttempts 0) ⟨"teams", some [Address.new "ops@teams.local"]⟩ = true := by
    decide
  have hsecond : accepts alarmNewMail (alarmAttempts 1) ⟨"ntfy", none⟩ = false := by decide
  have hrows := fanOut_kept _ 0 Table.empty 0 hnew
  have hkept : keptRows textCodec alarmNewMail alarmAttempts 0 (alarmTargets.map RouteTargetConfig.resolved) =
      [targetRow textCodec alarmNewMail (alarmAttempts 0) ⟨"teams", some [Address.new "ops@teams.local"]⟩] := by
    simp [alarmTargets, RouteTargetConfig.resolved, recipientOverride, keptRows, hfirst, hsecond]
  have hcount : (fanOut textCodec alarmNewMail alarmAttempts 0
      (alarmTargets.map RouteTargetConfig.resolved) Table.empty 0).2 ≠ 0 := by
    intro hzero
    exact (fanOut_none _ 0 0).1 hzero 0 _ rfl hfirst rfl
  have hne : alarmTargets ≠ [] := List.cons_ne_nil _ _
  rw [if_neg hne] at hend
  rw [hkept] at hrows
  refine ⟨by rw [hend]; simp [hcount], by rw [hend]; exact hrows, fun hcov => ?_⟩
  have hall := hcov (by simp [hend, hcount, Response.code]) _ _ hbuild hW
  rw [hend] at hall
  have hsecond' := ((fanOut_all 0 _ 0).1 hall).1 1 ⟨"ntfy", none⟩ rfl
  rw [hsecond] at hsecond'
  cases hsecond'

end OxidRelay
