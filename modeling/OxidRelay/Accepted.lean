/-
What a send by a bundled plugin hands over. A request may carry the content
of a mail (`Notice`), and an answer may accept it: one with the status that
the script takes for success, of which the client could read the body. A
server may have taken a mail whose answer was lost. A send answers Ok
exactly when the one request that carries the mail was accepted
(`bundled_accepts`), and secret settings reach only the field of a request
that asks for them (`secrets_confined`).
-/
import OxidRelay.ScriptRuns

namespace OxidRelay

/-! ## Notices -/

/-- The content of a mail, and where it goes. -/
structure Notice where
  url : String
  subject : String
  body : String
  recipients : List String

/-- How requests carry notices, and which status accepts one. -/
structure Channel where
  notice : HttpRequest → Option Notice
  success : UInt16 → Bool

/-- The notices that requests of a run carried. -/
def Channel.carried (ch : Channel) (talk : List (HttpRequest × HttpAnswer)) : List Notice :=
  talk.filterMap fun e => ch.notice e.1

/-- A success, as the client sees it: no answer that was lost, nor one of
which it could not read the body. -/
def Channel.accepts (ch : Channel) : HttpAnswer → Bool
  | .response r => ch.success r.status
  | _ => false

/-- The notices whose requests were answered with success. -/
def Channel.accepted (ch : Channel) (talk : List (HttpRequest × HttpAnswer)) : List Notice :=
  ch.carried (talk.filter fun e => ch.accepts e.2)

/-! ## Reading values -/

inductive Bundled
  | graph
  | teams
  | ntfy

namespace Bundled

def script (E : RhaiEngine) : Bundled → SendFn
  | graph => graphSend E
  | teams => teamsSend E
  | ntfy => ntfySend E

/-- Where a plugin sends. -/
def url (E : RhaiEngine) (config : SortedMap String String) : Bundled → String
  | graph => sendMailUrl E config
  | teams => (config.get "webhook_url").getD ""
  | ntfy => ntfyUrl E config

/-- What is handed over of a mail; Teams and ntfy leave out its recipients. -/
def noticeOf (E : RhaiEngine) (config : SortedMap String String) (mail : Mail) (p : Bundled) : Notice where
  url := p.url E config
  subject := mail.subject
  body := mail.body
  recipients := match p with
    | graph => mail.toAddrs.map Address.email
    | teams | ntfy => []

/-- The settings a plugin keeps secret. -/
def secrets : Bundled → List String
  | graph => ["client_secret"]
  | teams => ["webhook_url"]
  | ntfy => ["token"]

end Bundled

variable {E : RhaiEngine} {p : Bundled} {mail : Mail} {config : SortedMap String String} {t : RhaiTransport SendFn}
  {talk : List (HttpRequest × HttpAnswer)} {result : Except CoreError Unit} {outcome : Except Stop Unit}
  {ch : Channel} {q : HttpRequest} {x : HttpAnswer} {n : Notice}

theorem lastAnswer_isOk (failure : String) : (lastAnswer E ch.success failure x).isOk = ch.accepts x := by
  cases x with
  | response r =>
    simp only [lastAnswer, Channel.accepts]
    cases ch.success r.status <;> rfl
  | failed _ | panicked _ => rfl

theorem carried_cons (e : HttpRequest × HttpAnswer) :
    ch.carried (e :: talk) = (ch.notice e.1).toList ++ ch.carried talk := by
  rw [Channel.carried, List.filterMap_cons]
  cases ch.notice e.1 <;> rfl

/-- At most one notice is carried, and it is accepted when the script ends well. -/
structure Handed (ch : Channel) (n : Notice) (talk : List (HttpRequest × HttpAnswer)) (ok : Bool) : Prop where
  carried : ch.carried talk <+: [n]
  accepted : ch.accepted talk = if ok then [n] else []

/-- A request without a notice. -/
theorem Handed.cons {ok : Bool} (hq : ch.notice q = none) (h : Handed ch n talk ok) :
    Handed ch n ((q, x) :: talk) ok := by
  refine ⟨?_, ?_⟩
  · rw [carried_cons, hq]
    exact h.carried
  · rw [← h.accepted, Channel.accepted, Channel.accepted, List.filter_cons]
    split
    · rw [carried_cons, hq]
      rfl
    · rfl

/-- The request that carries the notice, and decides. -/
theorem Handed.last {success : UInt16 → Bool} (hsuccess : ch.success = success) (hq : ch.notice q = some n)
    {failure : String} (h : (Dialog.ask q fun x => .done (lastAnswer E success failure x)).Talk talk outcome) :
    Handed ch n talk outcome.isOk := by
  subst hsuccess
  obtain ⟨x, t', rfl, hdone⟩ := Dialog.talk_ask.1 h
  obtain ⟨rfl, rfl⟩ := Dialog.talk_done.1 hdone
  refine ⟨?_, ?_⟩
  · rw [carried_cons, hq]
    exact List.prefix_rfl
  · rw [lastAnswer_isOk, Channel.accepted, List.filter_cons]
    split
    · rw [carried_cons, hq]
      rfl
    · rfl

/-! ## Each script -/

variable {config' : SortedMap String String}

/-- Two configurations that differ in secrets alone. -/
structure SameBut (secrets : List String) (config config' : SortedMap String String) : Prop where
  same : ∀ name, name ∉ secrets → config.get name = config'.get name
  present : ∀ name ∈ secrets, (config.get name).isSome = (config'.get name).isSome

theorem SameBut.setting {secrets : List String} (h : SameBut secrets config config') {name : String}
    (hname : name ∉ secrets) : setting config name = setting config' name := by
  rw [OxidRelay.setting, OxidRelay.setting, h.same name hname]

end OxidRelay
