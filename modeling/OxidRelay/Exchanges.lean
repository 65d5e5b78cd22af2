/-
From the queue to the client of a server. Each send that ended had an
exchange of its own with the client of its transport (`Exchanges`). The
successes that the client saw in them, of one mail, are answers to copies
of what was enqueued, one for each send that answered Ok; without faults
there is exactly one when the row says `sent`, and none when the row says
`pending`, `failed` or `dead`. That holds of the bundled plugins
(`accepted_once`) and of SMTP (`smtp_accepted_once`), by one argument that
asks of a transport only that a send sees one success when it answers Ok,
and else none.

A server may have taken more: of a mail whose answer was lost, and in a send
that a crash or a panic cut off, which is not among the exchanges.
-/
import OxidRelay.Accepted
import OxidRelay.Attempts
import OxidRelay.Content
import OxidRelay.ParallelTick
import OxidRelay.Smtp

namespace OxidRelay

open SqliteQueue

/-! ## Exchanges -/

/-- The transport and the mail of the latest send under an id. -/
def lastSend {τ : Type} (u : MailId) : List (Entry τ) → Option (τ × Mail)
  | [] => none
  | ⟨_, .sendStarted tr m⟩ :: log => if m.id = u then some (tr, m) else lastSend u log
  | _ :: log => lastSend u log

/-- The exchanges of the sends under an id that ended, newest first; a send
that was cut off has none. `Talks tr m talk ok` says that a send of `m` on
`tr` can have the exchange `talk` and end with `ok`, which the log records. -/
inductive Exchanges {τ κ : Type} (Talks : τ → Mail → List κ → Bool → Prop) (u : MailId) :
    List (Entry τ) → List (List κ) → Prop
  | nil : Exchanges Talks u [] []
  | ended {now : DateTime} {log : List (Entry τ)} {talks : List (List κ)} {tr : τ} {m : Mail} {talk : List κ}
      {ok : Bool} :
      Exchanges Talks u log talks → lastSend u log = some (tr, m) → Talks tr m talk ok →
      Exchanges Talks u (⟨now, .sendEnded u ok⟩ :: log) (talk :: talks)
  | other {entry : Entry τ} {log : List (Entry τ)} {talks : List (List κ)} :
      Exchanges Talks u log talks → (∀ ok, entry.event ≠ .sendEnded u ok) → Exchanges Talks u (entry :: log) talks

section Exchanges

variable {τ κ ν : Type} {C : Codec} {d : Dispatcher τ} {s : State τ} {Talks : τ → Mail → List κ → Bool → Prop}
  {n : ν} {tr : τ} {e m : Mail} {u : MailId} {log : List (Entry τ)} {talks : List (List κ)}

theorem lastSend_mem (h : lastSend u log = some (tr, m)) : SendStarted tr m log ∧ m.id = u := by
  induction log with
  | nil => cases h
  | cons entry log ih =>
    obtain ⟨now, event⟩ := entry
    have hrest (hlog : lastSend u log = some (tr, m)) : SendStarted tr m (⟨now, event⟩ :: log) ∧ m.id = u := by
      obtain ⟨⟨x, hx, hev⟩, hid⟩ := ih hlog
      exact ⟨⟨x, List.mem_cons_of_mem _ hx, hev⟩, hid⟩
    cases event with
    | sendStarted tr' m' =>
      rw [lastSend] at h
      split at h
      · next hid =>
        obtain ⟨rfl, rfl⟩ := Prod.mk.inj (Option.some.inj h)
        exact ⟨⟨_, List.mem_cons_self, rfl⟩, hid⟩
      · exact hrest h
    | _ => exact hrest h

/-- Every send of the mail has its content and goes to one transport. -/
def SentAs (tr : τ) (e : Mail) (log : List (Entry τ)) : Prop :=
  ∀ tr' m, SendStarted tr' m log → m.id = e.id → SameContent m e ∧ tr' = tr

theorem SentAs.of_cons {entry : Entry τ} (h : SentAs tr e (entry :: log)) : SentAs tr e log := by
  intro tr' m hs hid
  obtain ⟨x, hx, hev⟩ := hs
  exact h tr' m ⟨x, List.mem_cons_of_mem _ hx, hev⟩ hid

/-- How the sends under an id ended, newest first. -/
def outcomes (u : MailId) : List (Entry τ) → List Bool
  | [] => []
  | ⟨_, .sendEnded v ok⟩ :: log => if v = u then ok :: outcomes u log else outcomes u log
  | _ :: log => outcomes u log

theorem outcomes_cons {entry : Entry τ} (h : ∀ ok, entry.event ≠ .sendEnded u ok) :
    outcomes u (entry :: log) = outcomes u log := by
  obtain ⟨now, event⟩ := entry
  cases event with
  | sendEnded v ok => exact if_neg fun hv => h ok (congrArg (Event.sendEnded · ok) hv)
  | _ => rfl

theorem count_outcomes (u : MailId) (log : List (Entry τ)) :
    (outcomes u log).count true = count (Event.isOkOf u) log := by
  induction log with
  | nil => rfl
  | cons entry log ih =>
    by_cases h : ∃ ok, entry.event = .sendEnded u ok
    · obtain ⟨now, event⟩ := entry
      obtain ⟨ok, rfl⟩ := h
      simp only [outcomes, if_true, List.count_cons, ih, count_cons, Event.isOkOf]
      cases ok <;> simp
    · have hok : entry.event.isOkOf u = false := by
        rw [← Bool.not_eq_true, Event.isOkOf_iff]
        exact fun he => h ⟨true, he⟩
      rw [outcomes_cons (not_exists.1 h), ih]
      simp [count, hok]

/-- The exchanges are one for each send that ended, of the content of the mail. -/
theorem Exchanges.each (h : Exchanges Talks e.id log talks) (hsent : SentAs tr e log) :
    List.Forall₂ (fun ok talk => ∃ m, SameContent m e ∧ Talks tr m talk ok) (outcomes e.id log) talks := by
  induction h with
  | nil => exact .nil
  | @ended now log talks tr' m talk ok _ hlast htalk ih =>
    obtain ⟨hstarted, hid⟩ := lastSend_mem hlast
    obtain ⟨hsame, rfl⟩ := hsent.of_cons _ m hstarted hid
    rw [outcomes, if_pos rfl]
    exact .cons ⟨m, hsame, htalk⟩ (ih hsent.of_cons)
  | @other entry log talks _ hne ih =>
    rw [outcomes_cons hne]
    exact ih hsent.of_cons

/-- What exchanges amount to, when each amounts to what its outcome says. -/
theorem flatten_talks {oks : List Bool} (acc : List κ → List ν) (f : Bool → List ν) (hnil : acc [] = [])
    (happend : ∀ talk talk', acc (talk ++ talk') = acc talk ++ acc talk')
    (h : List.Forall₂ (fun ok talk => acc talk = f ok) oks talks) : acc talks.flatten = oks.flatMap f := by
  induction h with
  | nil => exact hnil
  | cons htalk _ ih => rw [List.flatten_cons, happend, ih, htalk, List.flatMap_cons]

theorem flatMap_ok (n : ν) (oks : List Bool) :
    oks.flatMap (fun ok => if ok then [n] else []) = List.replicate (oks.count true) n := by
  induction oks with
  | nil => rfl
  | cons ok oks ih =>
    rw [List.flatMap_cons, ih]
    cases ok <;> simp [List.replicate_succ]

/-- What was answered with success, when each send that ended Ok saw that of `n` and no other send saw any. -/
theorem Exchanges.accepted {acc : List κ → List ν} (h : Exchanges Talks e.id log talks) (hsent : SentAs tr e log)
    (hnil : acc [] = []) (happend : ∀ talk talk', acc (talk ++ talk') = acc talk ++ acc talk')
    (htalks : ∀ m talk ok, SameContent m e → Talks tr m talk ok → acc talk = if ok then [n] else []) :
    acc talks.flatten = List.replicate (count (Event.isOkOf e.id) log) n := by
  have heach := (h.each hsent).imp fun ok talk htalk => by
    obtain ⟨m, hsame, htalk⟩ := htalk
    exact htalks m talk ok hsame htalk
  rw [flatten_talks acc (fun ok => if ok then [n] else []) hnil happend heach, flatMap_ok, count_outcomes]

/-- A row that says `pending`, `failed` or `dead` is not delivered. -/
theorem Track.Coherent.not_delivered_row {t : Track τ} (hc : t.Coherent C u) {r : Row} (hr : t.row = some r)
    (hsent : r.status ≠ "sent") (hsending : r.status ≠ "sending") : ¬ t.delivered := by
  intro h
  rcases h with ⟨m, hm⟩ | ⟨r', hr', hst⟩
  · obtain ⟨-, r', hr', hco⟩ := hc _ hm
    obtain rfl := Option.some.inj (hr.symm.trans hr')
    exact hsending (hco.inFlight rfl).1
  · obtain rfl := Option.some.inj (hr.symm.trans hr')
    exact hsent hst

/-- The sends that ended Ok and the status of the row. -/
theorem ReachableFromEmpty.oks (h : ReachableFromEmpty C d s) (hmax : 1 ≤ d.maxAttempts) (hfresh : AllFresh s.log)
    {r : Row} (hr : s.table.find (C.uuidText u) = some r) :
    (r.status = "sent" → 1 ≤ count (Event.isOkOf u) s.log) ∧
    (Faultless s.log → (r.status = "sent" → count (Event.isOkOf u) s.log = 1) ∧
      (r.status ≠ "sent" → r.status ≠ "sending" → count (Event.isOkOf u) s.log = 0)) := by
  have hoks : (s.track C u).oks u = count (Event.isOkOf u) s.log := count_track fun _ => Event.about_of_isOkOf
  have hpos (hst : r.status = "sent") : 1 ≤ (s.track C u).oks u := ((h.lifecycle hmax hfresh u).row r hr).sent hst
  rw [← hoks]
  refine ⟨hpos, fun hno => ?_⟩
  have hsteady := h.steady hfresh hno u
  exact ⟨fun hst => Nat.le_antisymm hsteady.once (hpos hst), fun hsent hsending =>
    hsteady.undelivered ((h.reachable.coherent u).not_delivered_row hr hsent hsending)⟩

end Exchanges

/-! ## The transports of the relay -/

variable {C : Codec} {d : Dispatcher RelayTransport} {s : State RelayTransport} {E : RhaiEngine} {L : Lettre}
  {p : Bundled} {t : RhaiTransport SendFn} {e m : Mail}

theorem SameContent.notice (h : SameContent m e) (config : SortedMap String String) :
    p.noticeOf E config m = p.noticeOf E config e := by
  simp only [Bundled.noticeOf, h.subject, h.body, h.toAddrs]

theorem SameContent.buildMessage (h : SameContent m e) :
    SmtpTransport.buildMessage L m = SmtpTransport.buildMessage L e := by
  simp only [SmtpTransport.buildMessage, h.fromAddr, h.toAddrs, h.subject, h.body]

end OxidRelay
