/-
The relay as it runs (`run_relay`): one process with its queue, the
dispatcher, and any number of SMTP clients, each served by a thread of its
own.

What the dispatcher does is a step of `Step`. A client calls its handler
one callback at a time; only `data_end` touches the queue, with one
statement for each target, and the dispatcher and the other clients go on
between two of them. A handler that is not in `data_end` may lose its
client at any time. With the process all connections are gone.

`submissions` and `answers` are no part of the program, nor are the `calls`
of a client: they record which client each mail in the queue came from and
what it was told.
-/
import Mathlib.Data.List.ReduceOption
import OxidRelay.Access
import OxidRelay.Dispatcher

namespace OxidRelay

variable {τ : Type}

/-! ## Clients -/

/-- A `data_end` in its loop. -/
structure EndOfData where
  new : NewMail
  /-- The targets to come. -/
  targets : List RouteTarget
  /-- The mail stored for each target so far, if it was; the handler keeps their number. -/
  outcomes : List (Option Mail)

namespace EndOfData

def stored (e : EndOfData) : List Mail := e.outcomes.reduceOption

/-- The reply after the loop. -/
def reply (e : EndOfData) : Response := if e.stored.length = 0 then .internalError else .ok

/-- The loop goes on to the next target. -/
def next (e : EndOfData) (targets : List RouteTarget) (outcome : Option Mail) : EndOfData :=
  { e with
    targets := targets
    outcomes := e.outcomes ++ [outcome] }

end EndOfData

/-- What the outside decided for one target, by the outcome; a mail that is
not stored counts as a backend that failed. -/
def attemptOf : Option Mail → Attempt
  | some mail => ⟨mail.createdAt, mail.id, none⟩
  | none => ⟨default, default, some "not stored"⟩

def EndOfData.attempts (e : EndOfData) (i : Nat) : Attempt := attemptOf e.outcomes[i]?.join

/-- `data_end` up to its loop. -/
def RelayHandler.dataEndStart (X : Externals) (h : RelayHandler) : Except Response EndOfData :=
  match h.buildNewMail X with
  | .error err => .error (.custom 554 ("rejected: " ++ err.toString))
  | .ok new =>
    match h.ctx.targets new.fromAddr.email with
    | .error reply => .error reply
    | .ok targets => .ok ⟨new, targets, []⟩

structure Client where
  ip : IpAddr
  handler : RelayHandler
  /-- The last MAIL was answered 250. -/
  mailAccepted : Bool
  /-- The calls so far and their replies, newest first. -/
  calls : List (Callback × Option Response)
  /-- The `data_end` in progress. -/
  ending : Option EndOfData

namespace Client

def start (ctx : Context) (ip : IpAddr) : Client := ⟨ip, .new ctx, false, [], none⟩

/-- The client as a connection of its own. -/
def connection (c : Client) (T : Mails) : Connection := ⟨c.handler, T, c.mailAccepted, c.calls⟩

/-- A callback other than `data_end`. -/
def call (C : Codec) (X : Externals) (c : Client) (cb : Callback) : Client :=
  let conn := (c.connection Table.empty).call C X c.ip cb
  { c with
    handler := conn.handler
    mailAccepted := conn.mailAccepted
    calls := conn.calls }

/-- `data_end` returns. -/
def answered (c : Client) (attempts : Nat → Attempt) (reply : Response) : Client :=
  { c with
    calls := (.dataEnd attempts, some reply) :: c.calls
    ending := none }

end Client

/-- A mail in the queue, and the client it came from as it was then. -/
structure Submission where
  client : Client
  target : RouteTarget
  mail : Mail

/-- The end of a `data_end`. -/
structure Answer where
  client : Client
  reply : Response
  /-- The mails it stored. -/
  stored : List Mail

/-! ## The relay -/

structure Relay (τ : Type) where
  state : State τ
  clients : List Client
  submissions : List Submission
  answers : List Answer

namespace Relay

/-- Before any process, with an empty queue. -/
def initial : Relay τ := ⟨.initial Table.empty, [], [], []⟩

/-- The client at index `i` moves on. -/
def setClient (r : Relay τ) (i : Nat) (c : Client) : Relay τ := { r with clients := r.clients.set i c }

/-- A step of the dispatcher or the process, and not of the ingress. -/
structure Own (C : Codec) (d : Dispatcher τ) (s : State τ) (now : DateTime) (s' : State τ) : Prop where
  step : OxidRelay.Step C d s now s'
  own : ∀ mail, s'.log ≠ ⟨now, .enqueued mail⟩ :: s.log

inductive Step (C : Codec) (X : Externals) (config : Config) (d : Dispatcher τ) : Relay τ → Relay τ → Prop
  /- The dispatcher and the process. -/
  | own : Own C d r.state now s → s.control ≠ .down → Step C X config d r { r with state := s }
  | down : Own C d r.state now s → s.control = .down → Step C X config d r { r with state := s, clients := [] }
  /- Connections. -/
  | connect (ip : IpAddr) : r.state.control ≠ .down →
      Step C X config d r { r with clients := r.clients ++ [.start (context X config) ip] }
  | disconnect (i : Nat) : r.clients[i]? = some c → c.ending = none →
      Step C X config d r { r with clients := r.clients.eraseIdx i }
  | call : r.clients[i]? = some c → c.ending = none → (c.connection Table.empty).permits cb = true →
      (∀ attempts, cb ≠ .dataEnd attempts) → Step C X config d r (r.setClient i (c.call C X cb))
  /- `data_end`. -/
  | rejects : r.clients[i]? = some c → c.ending = none → c.mailAccepted = true →
      c.handler.dataEndStart X = .error reply →
      Step C X config d r { r.setClient i (c.answered attempts reply) with
        answers := ⟨c, reply, []⟩ :: r.answers }
  | enters : r.clients[i]? = some c → c.ending = none → c.mailAccepted = true →
      c.handler.dataEndStart X = .ok e → Step C X config d r (r.setClient i { c with ending := some e })
  | skips : r.clients[i]? = some c → c.ending = some e → e.targets = target :: targets →
      (targetPayload e.new target).validate = .error err →
      Step C X config d r (r.setClient i { c with ending := some (e.next targets none) })
  | stores : r.clients[i]? = some c → c.ending = some e → e.targets = target :: targets →
      (targetPayload e.new target).validate = .ok () → mail = Mail.fromNew (targetPayload e.new target) created u →
      SqliteQueue.enqueue C r.state.table mail = .ok (mail, T) →
      Step C X config d r { r.setClient i { c with ending := some (e.next targets (some mail)) } with
        state := { r.state with table := T }.emit now [.enqueued mail]
        submissions := ⟨c, target, mail⟩ :: r.submissions }
  /- The enqueue fails, for whatever reason. -/
  | fails : r.clients[i]? = some c → c.ending = some e → e.targets = target :: targets →
      (targetPayload e.new target).validate = .ok () →
      Step C X config d r (r.setClient i { c with ending := some (e.next targets none) })
  | answers : r.clients[i]? = some c → c.ending = some e → e.targets = [] →
      Step C X config d r { r.setClient i (c.answered e.attempts e.reply) with
        answers := ⟨c, e.reply, e.stored⟩ :: r.answers }

/-- The states of all runs from an empty queue. -/
def Reachable (C : Codec) (X : Externals) (config : Config) (d : Dispatcher τ) (r : Relay τ) : Prop :=
  Run (Step C X config d) .initial r

end Relay

end OxidRelay
