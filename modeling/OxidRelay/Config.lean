/-
The configuration (`core::config`): its sections as plain data with the
defaults serde fills in, `Config::validate`, and the functions other parts
of the relay ask the sections: routing by sender, subject labels,
credentials and plugin settings.

Environment variables are a parameter: `env name` is the value of a
variable that is set and is Unicode.
-/
import OxidRelay.Lib.SortedMap
import OxidRelay.Message

namespace OxidRelay

/-! ## Errors -/

inductive ConfigError
  /-- The config parsed but failed semantic validation. -/
  | invalid (message : String)
  /-- A referenced environment variable is not set. -/
  | missingEnv (var : String)
  deriving DecidableEq

/-- The environment variables. -/
abbrev Env := String → Option String

/-- Reads a secret from the environment variable with the given name. -/
def resolveEnv (env : Env) (var : String) : Except ConfigError String :=
  match env var with
  | some value => .ok value
  | none => .error (.missingEnv var)

/-! ## Routing -/

/-- One fan-out target inside a rule. -/
structure RouteTargetConfig where
  transport : String
  recipients : List String

/-- Either a single transport or a list of targets. -/
structure RouteRule where
  transport : Option String
  recipients : List String
  targets : List RouteTargetConfig

structure RoutingConfig where
  /-- `default`: the rule of senders without one. -/
  defaultRule : Option RouteRule
  senders : SortedMap String RouteRule

/-- A resolved delivery target. -/
structure RouteTarget where
  transport : String
  /-- Replacement recipients, or none to keep the original ones. -/
  recipients : Option (List Address)
  deriving DecidableEq

inductive Route
  | reject
  | deliver (targets : List RouteTarget)
  deriving DecidableEq

def recipientOverride (recipients : List String) : Option (List Address) :=
  if recipients.isEmpty then none else some (recipients.map Address.new)

namespace RouteRule

/-- The targets of a rule without its `reject` entries. -/
def expand (rule : RouteRule) : List RouteTarget :=
  if !rule.targets.isEmpty then
    (rule.targets.filter fun target => !Str.eqIgnoreAsciiCase target.transport "reject").map fun target =>
      { transport := target.transport
        recipients := recipientOverride target.recipients }
  else
    match rule.transport with
    | some transport =>
      if !Str.eqIgnoreAsciiCase transport "reject" then
        [{ transport := transport
           recipients := recipientOverride rule.recipients }]
      else []
    | none => []

end RouteRule

namespace RoutingConfig

/-- Whether any routing rule is configured. -/
def isActive (routing : RoutingConfig) : Bool := routing.defaultRule.isSome || !routing.senders.isEmpty

/-- A rule of the sender wins over the default. -/
def resolve (routing : RoutingConfig) (sender : String) : Route :=
  match (routing.senders.get sender).or routing.defaultRule with
  | some rule =>
    let targets := rule.expand
    if targets.isEmpty then .reject else .deliver targets
  | none => .reject

end RoutingConfig

/-! ## Subject labels -/

/-- Per-sender subject format. -/
structure SenderSubject where
  format : String

structure SubjectConfig where
  format : String
  senders : SortedMap String SenderSubject

namespace SubjectConfig

/-- The sender's own format, or the global one. -/
def formatFor (subject : SubjectConfig) (sender : String) : String :=
  ((subject.senders.get sender).map SenderSubject.format).getD subject.format

def render (subject : SubjectConfig) (sender original : String) : String :=
  Str.replace (Str.replace (subject.formatFor sender) "%name%" sender) "%original%" original

end SubjectConfig

/-! ## Authentication -/

/-- Mode A: the sender is named by the subject. -/
structure AnonymousAuth where
  enabled : Bool
  subjectMatch : Option String

/-- Mode B1: fixed credentials of a service. -/
structure ServiceAuth where
  username : String
  passwordEnv : String

/-- Mode B2: any credentials are taken. -/
structure SelfRegisterAuth where
  enabled : Bool

structure AuthConfig where
  anonymous : AnonymousAuth
  services : SortedMap String ServiceAuth
  selfRegister : SelfRegisterAuth

def ServiceAuth.password (env : Env) (service : ServiceAuth) : Except ConfigError String :=
  resolveEnv env service.passwordEnv

namespace AuthConfig

/-- The loop of `authenticate`: the first service of the user name decides. -/
def findService (username : String) : List (String × ServiceAuth) → Option (String × ServiceAuth)
  | [] => none
  | (name, service) :: services =>
    if service.username = username then some (name, service) else findService username services

/-- The sender name that a user name and a password stand for. -/
def authenticate (auth : AuthConfig) (env : Env) (username password : String) :
    Except ConfigError (Option String) :=
  match findService username auth.services.entries with
  | some (name, service) => do
    let expected ← service.password env
    return if expected = password then some name else none
  | none => return if auth.selfRegister.enabled then some username else none

end AuthConfig

/-! ## The other sections -/

structure SecurityConfig where
  /-- Allowed source addresses and networks. -/
  ipWhitelist : List String

/-- The SMTP connection of a transport, as far as it is checked. -/
structure SmtpConfig where
  host : String
  port : UInt16

structure MailConfig where
  smtp : Option SmtpConfig

structure QueueConfig where
  database : String

structure LoggingConfig where
  level : String

/-- Dispatcher tuning. Times are in seconds. -/
structure DispatcherSettings where
  batchSize : UInt32
  concurrency : UInt64
  pollIntervalSecs : UInt64
  sendingLeaseSecs : UInt64
  maxAttempts : UInt32
  retryBaseSecs : UInt64
  retryMaxSecs : UInt64

/-- The configuration as read from the TOML file. -/
structure Config where
  mail : MailConfig
  queue : QueueConfig
  logging : LoggingConfig
  subject : SubjectConfig
  security : SecurityConfig
  auth : AuthConfig
  routing : RoutingConfig
  dispatcher : DispatcherSettings
  /-- The settings of each plugin, by its name. -/
  plugins : SortedMap String (SortedMap String String)

/-- The configuration of an empty file. -/
instance : Inhabited Config where
  default :=
    { mail := ⟨none⟩
      queue := ⟨"queue.db"⟩
      logging := ⟨"info"⟩
      subject := ⟨"[Abs: %name%] %original%", .empty⟩
      security := ⟨[]⟩
      auth := ⟨⟨false, none⟩, .empty, ⟨false⟩⟩
      routing := ⟨none, .empty⟩
      dispatcher := ⟨64, 8, 5, 120, 5, 30, 3600⟩
      plugins := .empty }

/-! ## Validation -/

namespace Config

def levels : List String := ["trace", "debug", "info", "warn", "error"]

/-- Fails with a message unless a condition holds. -/
def require (condition : Bool) (message : String) : Except ConfigError Unit :=
  if condition then .ok () else .error (.invalid message)

/-- Every subject format must keep the original subject somewhere. -/
def validateSenders : List (String × SenderSubject) → Except ConfigError Unit
  | [] => .ok ()
  | (name, sender) :: senders => do
    require (Str.contains sender.format "%original%")
      ("subject.senders.\"" ++ name ++ "\".format must contain %original%")
    validateSenders senders

/-- Semantic validation beyond what serde guarantees. -/
def validate (config : Config) : Except ConfigError Unit := do
  require (!Str.isEmpty (Str.trim config.queue.database)) "queue.database is empty"
  require (levels.contains config.logging.level)
    ("unknown logging.level '" ++ config.logging.level ++
      "', expected one of [\"trace\", \"debug\", \"info\", \"warn\", \"error\"]")
  if let some smtp := config.mail.smtp then
    require (!Str.isEmpty (Str.trim smtp.host)) "mail.smtp.host is empty"
    require (smtp.port ≠ 0) "mail.smtp.port must be non-zero"
  require (config.dispatcher.batchSize ≠ 0) "dispatcher.batch_size must be >= 1"
  require (config.dispatcher.concurrency ≠ 0) "dispatcher.concurrency must be >= 1"
  require (config.dispatcher.pollIntervalSecs ≠ 0) "dispatcher.poll_interval_secs must be >= 1"
  require (config.dispatcher.maxAttempts ≠ 0) "dispatcher.max_attempts must be >= 1"
  require (Str.contains config.subject.format "%original%") "subject.format must contain %original%"
  validateSenders config.subject.senders.entries

example : validate default = .ok () := by decide

/-! ## Plugin settings -/

/-- The loop of `plugin_settings`, over the entries in the order of their keys. -/
def resolveSettings (env : Env) :
    List (String × String) → SortedMap String String → Except ConfigError (SortedMap String String)
  | [], resolved => .ok resolved
  | (key, value) :: raw, resolved =>
    match Str.stripSuffix key "_env" with
    | some stripped => do
      let secret ← resolveEnv env value
      resolveSettings env raw (resolved.insert stripped secret)
    | none => resolveSettings env raw (resolved.insert key value)

/-- The resolved settings of a plugin. The value of a key ending in `_env`
names an environment variable, whose value the key without the suffix gets. -/
def pluginSettings (env : Env) (config : Config) (name : String) :
    Except ConfigError (SortedMap String String) :=
  match config.plugins.get name with
  | none => .ok .empty
  | some raw => resolveSettings env raw.entries .empty

end Config

end OxidRelay
