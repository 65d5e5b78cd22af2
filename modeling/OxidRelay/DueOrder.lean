/-
`fetch_due` and `requeue_stale_sending` compare stored text; here is what
they do in terms of instants. Both are read through the content of the
table, the list of mails its rows decode to: a row is selected by its text
exactly when its mail is selected by its instant (`isDue_iff`,
`isStale_iff`), and then the general facts about SELECT carry over.
-/
import OxidRelay.SqliteFacts
import OxidRelay.TextCodec

namespace OxidRelay

open DateTime SqliteQueue

/-- The mails a table holds, when every row decodes. -/
def storedMails (C : Codec) (T : Mails) : Except CoreError (List Mail) := T.rows.mapM (rowToMail C)

/-- Waiting for delivery at `now`, as instants compare. -/
def Mail.isDue (now : DateTime) (m : Mail) : Bool :=
  (m.status = .pending ∨ m.status = .failed) ∧ m.nextAttemptAt ≤ now

/-- In flight since strictly before `olderThan`, as instants compare. -/
def Mail.isStale (olderThan : DateTime) (m : Mail) : Bool := m.status = .sending ∧ m.updatedAt < olderThan

/-- A mail set back to pending at `now`. -/
def Mail.requeued (now : DateTime) (m : Mail) : Mail := { m with status := .pending, updatedAt := now }

theorem mapM_ok {α β ε : Type} {g : α → Except ε β} {f : α → β} :
    ∀ {l : List α}, (∀ a ∈ l, g a = .ok (f a)) → l.mapM g = .ok (l.map f)
  | [], _ => rfl
  | a :: l, h => by
    rw [List.mapM_cons, h a (by simp), mapM_ok fun b hb => h b (by simp [hb])]
    rfl

theorem RowOf.requeueRow {C : Codec} {m : Mail} {r : Row} (h : RowOf C m r) {now : DateTime}
    (hnow : now.YearInRange) : RowOf C (m.requeued now) (requeueRow now r) :=
  { h with status := rfl, parseUpdated := parseTime_toRfc3339 C hnow }

/-! ## Text conditions as conditions on instants -/

/-- The mail each row of a table decodes to. -/
structure Decoding (C : Codec) (T : Mails) (f : Row → Mail) : Prop where
  decodes : ∀ r ∈ T, rowToMail C r = .ok (f r)
  id : ∀ r ∈ T, r.id = C.uuidText (f r).id
  updatedRange : ∀ r ∈ T, (f r).updatedAt.YearInRange
  updated : ∀ r ∈ T, r.updatedAt = (f r).updatedAt.toRfc3339
  nextRange : ∀ r ∈ T, (f r).nextAttemptAt.YearInRange
  next : ∀ r ∈ T, r.nextAttemptAt = (f r).nextAttemptAt.toRfc3339

theorem AllWritten.decoding {C : Codec} {T : Mails} (h : AllWritten C YearInRange T) : ∃ f, Decoding C T f := by
  choose! f hf using fun r (hr : r ∈ T) => (h r hr).decodes
  exact ⟨f, fun r hr => (hf r hr).1, fun r hr => (hf r hr).2.1, fun r hr => (hf r hr).2.2.1,
    fun r hr => (hf r hr).2.2.2.1, fun r hr => (hf r hr).2.2.2.2.1, fun r hr => (hf r hr).2.2.2.2.2⟩

theorem filter_decoded {f : Row → Mail} {l : List Row} {p : Row → Bool} {q : Mail → Bool}
    (hpq : ∀ r ∈ l, p r = q (f r)) : (l.map f).filter q = (l.filter p).map f := by
  rw [List.filter_map]
  congr 1
  exact List.filter_congr fun r hr => (hpq r hr).symm

section Decoding

variable {C : Codec} {T : Mails} {f : Row → Mail} {r : Row}

theorem Decoding.storedMails (h : Decoding C T f) : storedMails C T = .ok (T.rows.map f) := mapM_ok h.decodes

theorem Decoding.status_eq (h : Decoding C T f) (hr : r ∈ T) (s : MailStatus) :
    r.status = statusToStr s ↔ (f r).status = s := by
  rw [(rowOf_of_rowToMail (h.decodes r hr)).status, statusToStr_inj]

theorem Decoding.isDue_eq (h : Decoding C T f) (hr : r ∈ T) {now : DateTime} (hnow : now.YearInRange) :
    SqliteQueue.isDue now r = (f r).isDue now := by
  have hp : r.status = "pending" ↔ (f r).status = .pending := h.status_eq hr .pending
  have hf : r.status = "failed" ↔ (f r).status = .failed := h.status_eq hr .failed
  simp only [SqliteQueue.isDue, Mail.isDue, hp, hf, h.next r hr, toRfc3339_le_iff (h.nextRange r hr) hnow]

theorem Decoding.isStale_eq (h : Decoding C T f) (hr : r ∈ T) {cutoff : DateTime} (hc : cutoff.YearInRange) :
    SqliteQueue.isStale cutoff r = (f r).isStale cutoff := by
  have hs : r.status = "sending" ↔ (f r).status = .sending := h.status_eq hr .sending
  simp only [SqliteQueue.isStale, Mail.isStale, hs, h.updated r hr, toRfc3339_lt_iff (h.updatedRange r hr) hc]

/-! ## The two statements -/

/-- What a chronologically exact `fetch_due` answers from the mails stored. -/
structure FetchedDue (mails due : List Mail) (limit : Nat) (now : DateTime) : Prop where
  length : due.length = min limit (mails.filter (Mail.isDue now)).length
  distinct : (due.map Mail.id).Nodup
  isDue : ∀ m ∈ due, m ∈ mails ∧ m.isDue now = true
  sorted : due.Pairwise fun a b => a.nextAttemptAt ≤ b.nextAttemptAt
  oldest : ∀ m ∈ mails, m.isDue now = true → m ∉ due → ∀ m' ∈ due, m'.nextAttemptAt ≤ m.nextAttemptAt

/-- `fetch_due` is exact where the text of the due rows is, and decodes what it selects. -/
theorem fetchDue_of_select {scan : List Row} (hscan : scan.Perm T.rows) {now : DateTime} {limit : UInt32}
    (hid : ∀ r ∈ T, r.id = C.uuidText (f r).id)
    (hdue : ∀ r ∈ T, SqliteQueue.isDue now r = (f r).isDue now)
    (hle : ∀ r ∈ T, ∀ r' ∈ T, SqliteQueue.isDue now r = true → SqliteQueue.isDue now r' = true →
      r.nextAttemptAt ≤ r'.nextAttemptAt → (f r).nextAttemptAt ≤ (f r').nextAttemptAt)
    (hdec : ∀ r ∈ Table.select scan (SqliteQueue.isDue now) Row.nextAttemptAt limit.toNat,
      rowToMail C r = .ok (f r)) :
    ∃ due, fetchDue C scan limit now = .ok due ∧ FetchedDue (T.rows.map f) due limit.toNat now := by
  obtain ⟨hlen, hnodup, hmem, hsort, hout⟩ :=
    Table.select_spec hscan (SqliteQueue.isDue now) Row.nextAttemptAt limit.toNat
  refine ⟨_, mapM_ok hdec, ⟨?_, ?_, ?_, ?_, ?_⟩⟩
  · rw [filter_decoded hdue, List.length_map, List.length_map, hlen]
  · rw [List.map_map]
    refine List.Nodup.of_map C.uuidText ?_
    have hids := List.map_congr_left (g := C.uuidText ∘ Mail.id ∘ f) fun r hr => hid r (hmem r hr).1
    rw [List.map_map, ← hids]
    exact hnodup
  · intro m hm
    obtain ⟨r, hr, rfl⟩ := List.mem_map.1 hm
    obtain ⟨hrT, hd⟩ := hmem r hr
    exact ⟨List.mem_map_of_mem hrT, by rwa [hdue r hrT] at hd⟩
  · rw [List.pairwise_map]
    exact hsort.imp_of_mem fun ha hb hab => hle _ (hmem _ ha).1 _ (hmem _ hb).1 (hmem _ ha).2 (hmem _ hb).2 hab
  · intro m hm hd hnot m' hm'
    obtain ⟨r, hr, rfl⟩ := List.mem_map.1 hm
    obtain ⟨r', hr', rfl⟩ := List.mem_map.1 hm'
    rw [← hdue r hr] at hd
    exact hle _ (hmem r' hr').1 _ hr (hmem r' hr').2 hd
      (hout r hr hd (fun hin => hnot (List.mem_map_of_mem hin)) r' hr')

theorem Decoding.fetchDue (h : Decoding C T f) {now : DateTime} (hnow : now.YearInRange) (limit : UInt32)
    {scan : List Row} (hscan : scan.Perm T.rows) :
    ∃ due, fetchDue C scan limit now = .ok due ∧ FetchedDue (T.rows.map f) due limit.toNat now := by
  refine fetchDue_of_select hscan h.id (fun r hr => h.isDue_eq hr hnow) (fun r hr r' hr' _ _ hle => ?_)
    fun r hr => h.decodes r ((Table.select_spec hscan _ _ _).2.2.1 r hr).1
  rwa [h.next r hr, h.next r' hr', toRfc3339_le_iff (h.nextRange r hr) (h.nextRange r' hr')] at hle

theorem Decoding.requeueStaleSending (h : Decoding C T f) {now cutoff : DateTime} (hnow : now.YearInRange)
    (hc : cutoff.YearInRange) :
    OxidRelay.storedMails C (requeueStaleSending T now cutoff).1 =
        .ok ((T.rows.map f).map fun m => if m.isStale cutoff then m.requeued now else m) ∧
      (SqliteQueue.requeueStaleSending T now cutoff).2 = ((T.rows.map f).filter (Mail.isStale cutoff)).length := by
  constructor
  · rw [OxidRelay.storedMails]
    simp only [SqliteQueue.requeueStaleSending, Table.update]
    rw [List.map_map, List.mapM_map]
    refine mapM_ok fun r hr => ?_
    simp only [Function.comp_apply, ← h.isStale_eq hr hc]
    split
    · exact rowToMail_of_rowOf ((rowOf_of_rowToMail (h.decodes r hr)).requeueRow hnow)
    · exact h.decodes r hr
  · rw [filter_decoded fun r hr => h.isStale_eq hr hc, List.length_map]
    rfl

end Decoding

/-- **`fetch_due` is chronologically exact.** In every table that queue
operations built from instants with years 0 to 9999, every row decodes,
and for every `now` in that range, limit and order of scanning,
`fetch_due` answers the mails due at `now` as instants compare, as many as
the limit lets through, oldest first; `requeue_stale_sending` resets
exactly the mails in flight since strictly before the cutoff, at the clock
value `t`, and answers their number. -/
theorem fetchDue_chronological (C : Codec) {ops : List QueueOp} (hops : ∀ op ∈ ops, ∀ t ∈ op.times, t.YearInRange)
    {now : DateTime} (hnow : now.YearInRange) (limit : UInt32) {scan : List Row}
    (hscan : scan.Perm (runOps C ops).rows) {t cutoff : DateTime} (ht : t.YearInRange)
    (hcutoff : cutoff.YearInRange) :
    ∃ mails due, storedMails C (runOps C ops) = .ok mails ∧
      fetchDue C scan limit now = .ok due ∧ FetchedDue mails due limit.toNat now ∧
      storedMails C (requeueStaleSending (runOps C ops) t cutoff).1 =
        .ok (mails.map fun m => if m.isStale cutoff then m.requeued t else m) ∧
      (requeueStaleSending (runOps C ops) t cutoff).2 = (mails.filter (Mail.isStale cutoff)).length := by
  obtain ⟨f, hf⟩ := (runOps_written C hops).decoding
  obtain ⟨due, hdue, hexact⟩ := hf.fetchDue hnow limit hscan
  obtain ⟨hstore, hcount⟩ := hf.requeueStaleSending ht hcutoff
  exact ⟨_, due, hf.storedMails, hdue, hexact, hstore, hcount⟩

/-- 1970-01-01T00:00:01Z and so many nanoseconds. -/
def pastFirstSecond (n : Fin 1000000000) : DateTime :=
  { firstDay 1 with frac := n.val, frac_lt := by omega, leap := by omega }

/-- Due in the first second, with no, three, six and nine decimal places,
and in the fifth; and two mails in flight. -/
def mixedMails : List Mail :=
  [{ exampleMails 1 with nextAttemptAt := pastFirstSecond 500000000 },
    { exampleMails 2 with nextAttemptAt := pastFirstSecond 100000 },
    { exampleMails 3 with nextAttemptAt := pastFirstSecond 0 },
    { exampleMails 4 with nextAttemptAt := pastFirstSecond 1 },
    { exampleMails 5 with nextAttemptAt := firstDay 5 },
    { exampleMails 6 with status := .sending, updatedAt := firstDay 1 },
    { exampleMails 7 with status := .sending, updatedAt := firstDay 4 }]

def mixedOps : List QueueOp :=
  mixedMails.map (fun m => .enqueue { m with status := .pending, updatedAt := firstDay 0 }) ++
    [.markSending (firstDay 1) ⟨6⟩, .markSending (firstDay 4) ⟨7⟩]

theorem runOps_mixedOps : (runOps textCodec mixedOps).rows = mixedMails.map (mailToRow textCodec) := by
  decide +kernel

/-- In the second second, up to a limit of three and read backwards: the
whole second, its first nanosecond, its first tenth of a millisecond; and
of the two in flight the first is stale in the fourth second. -/
theorem fetchDue_chronological_example :
    ∃ due, fetchDue textCodec (runOps textCodec mixedOps).rows.reverse 3 (firstDay 2) = .ok due ∧
      due.map Mail.id = [⟨3⟩, ⟨4⟩, ⟨2⟩] ∧ FetchedDue mixedMails due 3 (firstDay 2) ∧
      storedMails textCodec (requeueStaleSending (runOps textCodec mixedOps) (firstDay 9) (firstDay 4)).1 =
        .ok (mixedMails.map fun m => if m.id = ⟨6⟩ then m.requeued (firstDay 9) else m) ∧
      (requeueStaleSending (runOps textCodec mixedOps) (firstDay 9) (firstDay 4)).2 = 1 := by
  have hops : ∀ op ∈ mixedOps, ∀ t ∈ op.times, t.YearInRange := by decide +kernel
  have hdecodes : ∀ m ∈ mixedMails, rowToMail textCodec (mailToRow textCodec m) = .ok m := fun m hm => by
    have hrange : ∀ m ∈ mixedMails,
        m.createdAt.YearInRange ∧ m.updatedAt.YearInRange ∧ m.nextAttemptAt.YearInRange := by decide
    obtain ⟨hc, hu, hn⟩ := hrange m hm
    exact rowToMail_mailToRow textCodec hc hu hn
  have hstored : storedMails textCodec (runOps textCodec mixedOps) = .ok mixedMails := by
    rw [storedMails, runOps_mixedOps, List.mapM_map]
    exact mapM_ok (f := id) hdecodes |>.trans (by rw [List.map_id])
  obtain ⟨mails, due, hmails, hdue, hexact, hrequeued, hcount⟩ :=
    fetchDue_chronological textCodec hops (by decide : (firstDay 2).YearInRange) 3
      (List.reverse_perm _) (by decide : (firstDay 9).YearInRange) (by decide : (firstDay 4).YearInRange)
  obtain rfl : mixedMails = mails := Except.ok.inj (hstored.symm.trans hmails)
  have hids : (fetchDue textCodec (mixedMails.map (mailToRow textCodec)).reverse 3 (firstDay 2)).toOption.map
      (List.map Mail.id) = some [⟨3⟩, ⟨4⟩, ⟨2⟩] := by decide +kernel
  rw [← runOps_mixedOps, hdue] at hids
  refine ⟨due, hdue, Option.some.inj hids, hexact, ?_, ?_⟩
  · exact hrequeued.trans (by decide +kernel)
  · exact hcount.trans (by decide +kernel)

end OxidRelay
