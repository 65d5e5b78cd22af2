/-
The SMTP transport (`transport-smtp`), which hands messages to a mailer of
lettre's. How lettre reads a mailbox, which message it refuses to build and
what it says of a host are parameters; a send is one request to the mailer,
which reports that the server took the message, or an error text. A server
may take a message although the mailer reports an error.
-/
import OxidRelay.Config
import OxidRelay.Lib.Dialog

namespace OxidRelay

/-! ## lettre -/

structure Mailbox where
  name : Option String
  email : String

/-- A plain text message. -/
structure SmtpMessage where
  fromBox : Mailbox
  toBoxes : List Mailbox
  subject : String
  body : String

structure Lettre where
  /-- `str::parse::<Mailbox>`. -/
  parseMailbox : String → Except String Mailbox
  /-- What the builder says of a message. -/
  build : SmtpMessage → Except String Unit
  /-- What `starttls_relay` says of a host. -/
  starttlsRelay : String → Except String Unit

/-- A mailer with the connection and the credentials it was built with. -/
structure Mailer where
  host : String
  port : UInt16
  username : String
  password : String

/-- The requests to mailers, and what they answer. -/
abbrev SmtpRequest := Mailer × SmtpMessage

abbrev SmtpAnswer := Except String Unit

/-! ## The transport -/

/-- The section `mail.smtp` as a whole. -/
structure SmtpSection extends SmtpConfig where
  username : String
  passwordEnv : String

def SmtpSection.password (env : Env) (config : SmtpSection) : Except ConfigError String :=
  resolveEnv env config.passwordEnv

/-- The `Display` text of an error. -/
def ConfigError.toString : ConfigError → String
  | .invalid message => "invalid config: " ++ message
  | .missingEnv var => "environment variable " ++ var ++ " is not set"

structure SmtpTransport where
  name : String
  mailer : Mailer

namespace SmtpTransport

/-- The transport of the configuration, whose password is in the environment. -/
def new (L : Lettre) (env : Env) (config : SmtpSection) : Except CoreError SmtpTransport := do
  let password ← (config.password env).mapError fun err => .transport err.toString
  (L.starttlsRelay config.host).mapError .transport
  return { name := "smtp", mailer := ⟨config.host, config.port, config.username, password⟩ }

/-- An address as lettre reads it. -/
def mailbox (L : Lettre) (addr : Address) : Except CoreError Mailbox :=
  let raw := match addr.name with
    | some name => name ++ " <" ++ addr.email ++ ">"
    | none => addr.email
  (L.parseMailbox raw).mapError .invalidMail

/-- The message of a mail; the first address that is refused decides. -/
def buildMessage (L : Lettre) (mail : Mail) : Except CoreError SmtpMessage := do
  let fromBox ← mailbox L mail.fromAddr
  let toBoxes ← mail.toAddrs.mapM (mailbox L)
  let message := { fromBox := fromBox, toBoxes := toBoxes, subject := mail.subject, body := mail.body }
  (L.build message).mapError .invalidMail
  return message

/-- `Transport::send` of SMTP. -/
def send (L : Lettre) (t : SmtpTransport) (mail : Mail) : Dialog SmtpRequest SmtpAnswer (Except CoreError Unit) :=
  match buildMessage L mail with
  | .error err => .done (.error err)
  | .ok message => .ask (t.mailer, message) fun answer => .done (answer.mapError .transport)

/-! ## Runs of a send -/

/-- The requests that the mailer reported as taken. -/
def accepted (talk : List (SmtpRequest × SmtpAnswer)) : List SmtpRequest :=
  (talk.filter fun e => e.2.isOk).map Prod.fst

variable {L : Lettre} {t : SmtpTransport} {mail : Mail} {talk : List (SmtpRequest × SmtpAnswer)}
  {result : Except CoreError Unit} {message : SmtpMessage} {err : CoreError}

end SmtpTransport

end OxidRelay
