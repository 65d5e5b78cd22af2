/-
The start of the relay (`main`): the dispatcher's tuning from the
configuration, the URL of the queue database, and the lock that guards it.

What the operating system says to an attempt to lock a file is a
parameter (`TryLock`).
-/
import OxidRelay.Config
import OxidRelay.Dispatcher
import OxidRelay.SqliteFacts

namespace OxidRelay

/-! ## From the configuration -/

/-- Maps the configured settings into the dispatcher's own. -/
def dispatcherConfig (config : Config) : DispatcherConfig :=
  let settings := config.dispatcher
  { batchSize := settings.batchSize
    concurrency := settings.concurrency.toNat
    sendingLease := .fromSecs settings.sendingLeaseSecs.toNat settings.sendingLeaseSecs.toNat_lt
    retry := {
      maxAttempts := settings.maxAttempts
      baseDelay := .fromSecs settings.retryBaseSecs.toNat settings.retryBaseSecs.toNat_lt
      maxDelay := .fromSecs settings.retryMaxSecs.toNat settings.retryMaxSecs.toNat_lt } }

/-- The connection URL of the configured database. -/
def sqliteUrl (database : String) : String :=
  if Str.startsWith database "sqlite:" then database else "sqlite:" ++ database

/-! ## The instance lock -/

/-- What comes of opening a file and locking it without waiting. -/
inductive TryLock
  | locked
  | wouldBlock
  | cannotOpen
  | failed

def lockPath (database : String) : String := database ++ ".lock"

/-- The path of the lock taken, none for a database that needs no lock. -/
def acquireInstanceLock (tryLock : String → TryLock) (database : String) : Except String (Option String) :=
  if Str.contains database ":memory:" || Str.isEmpty (Str.trim database) then .ok none
  else
    let path := lockPath database
    match tryLock path with
    | .cannotOpen => .error ("opening lock file " ++ path)
    | .locked => .ok (some path)
    | .wouldBlock =>
      .error ("another OxidRelay instance is already running on this queue (lock " ++ path ++ " is held)")
    | .failed => .error ("locking " ++ path)

/-! ## What a configuration that is accepted has -/

namespace Config

theorem require_bind_eq_ok {condition : Bool} {message : String} {next : Except ConfigError Unit} :
    (require condition message >>= fun _ => next) = .ok () ↔ condition = true ∧ next = .ok () := by
  unfold require
  cases condition <;> simp [bind, Except.bind]

/-- The checks that other parts rely on. -/
theorem validate_ok {config : Config} (h : config.validate = .ok ()) :
    Str.isEmpty (Str.trim config.queue.database) = false ∧ config.dispatcher.maxAttempts ≠ 0 := by
  unfold validate at h
  obtain ⟨hdatabase, h⟩ := require_bind_eq_ok.1 h
  obtain ⟨-, h⟩ := require_bind_eq_ok.1 h
  refine ⟨by simpa using hdatabase, ?_⟩
  split at h <;> simp only [require_bind_eq_ok, decide_eq_true_eq] at h
  · exact h.2.2.2.2.2.1
  · exact h.2.2.2.1

end Config

end OxidRelay
