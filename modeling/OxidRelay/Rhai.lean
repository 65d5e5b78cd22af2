/-
The host API that scripts see (`plugin::engine`), the HTTP requests they
make through it (`plugin::http`) and how a mail is sent by one
(`plugin::transport`).

A script asks the HTTP client and goes on with its answer, so a script is
a `Dialog`; what the client answers, and when, is left open. Rhai's own
conversions and serde_json are parameters (`RhaiEngine`). A value is what
JSON can write, `()` being null: the scripts and the host functions make no
other.
-/
import OxidRelay.Lib.Dialog
import OxidRelay.Lib.JsonTree
import OxidRelay.Plugins
import OxidRelay.TextCodec

namespace OxidRelay

/-! ## Requests -/

inductive HttpBody
  | none
  /-- A raw text body. -/
  | text (text : String)
  /-- A form-urlencoded body. -/
  | form (pairs : List (String × String))
  deriving DecidableEq

/-- An outgoing request built by a plugin. -/
structure HttpRequest where
  method : String
  url : String
  headers : List (String × String)
  body : HttpBody
  deriving DecidableEq

structure HttpResponse where
  status : UInt16
  body : String
  deriving DecidableEq

/-- What becomes of `HttpClient::execute`. -/
inductive HttpAnswer
  | response (r : HttpResponse)
  | failed (err : String)
  | panicked (text : String)
  deriving DecidableEq

/-! ## Values -/

/-- `i64`, and `f64` by its bits. -/
inductive Number
  | int (n : Int)
  | float (bits : UInt64)
  deriving DecidableEq

/-- `rhai::Dynamic`. -/
abbrev Dynamic := Json.Tree Number

/-- `rhai::Map`, a `BTreeMap`: its entries in the order of their keys. -/
abbrev Map := List (String × Dynamic)

/-- A map literal, or inserts one after the other. -/
def mapOf (entries : Map) : Map := entries.foldl (fun map e => SortedMap.insertEntry e.1 e.2 map) []

def entryOf (map : Map) (name : String) : Option Dynamic := (Keyed.get Prod.fst map name).map Prod.snd

/-- `EvalAltResult`. -/
inductive EvalError
  /-- What a script or a host function throws. -/
  | runtime (message : String)
  /-- No function of the name takes such arguments. -/
  | functionNotFound (name : String) (args : List Dynamic)
  | propertyNotFound (name : String) (value : Dynamic)
  | notIterable (value : Dynamic)

/-- How a script ends before its end. -/
inductive Stop
  | error (err : EvalError)
  /-- A panic on the blocking thread. -/
  | panicked (text : String)

structure RhaiEngine where
  /-- `serde_json::Value`. -/
  Value : Type
  /-- `to_string`, which an interpolated string appends. -/
  display : Dynamic → String
  typeName : Dynamic → String
  errorText : EvalError → String
  /-- `serde_json::to_string`. -/
  toJson : Dynamic → Except String String
  /-- `serde_json::from_str`. -/
  fromStr : String → Except String Value
  toDynamic : Value → Except EvalError Dynamic
  display_string : ∀ s, display (.string s) = s
  /-- What is written is read, up to the recursion limit of 128. -/
  read_toJson : ∀ v, v.Plain 127 →
    ∃ text value, toJson v = .ok text ∧ fromStr text = .ok value ∧ toDynamic value = .ok v

/-- A script's part of a run. -/
abbrev Script (α : Type) := ExceptT Stop (Dialog HttpRequest HttpAnswer) α

variable {α : Type} (E : RhaiEngine)

def raise (err : EvalError) : Script α := throw (.error err)

/-! ## What scripts do with values -/

/-- `value.name`; a map without the entry has `()`. -/
def property (value : Dynamic) (name : String) : Script Dynamic :=
  match value with
  | .object map => pure ((entryOf map name).getD .null)
  | _ => raise (.propertyNotFound name value)

/-- `name in value`. -/
def contains (name : String) (value : Dynamic) : Script Bool :=
  match value with
  | .object map => pure (entryOf map name).isSome
  | _ => raise (.functionNotFound "contains" [value, .string name])

/-- What `for` goes through. -/
def items (value : Dynamic) : Script (List Dynamic) :=
  match value with
  | .array items => pure items
  | _ => raise (.notIterable value)

def len (value : Dynamic) : Script Dynamic :=
  match value with
  | .array items => pure (.number (.int items.length))
  | .object map => pure (.number (.int map.length))
  | .string s => pure (.number (.int s.length))
  | _ => raise (.functionNotFound "len" [value])

/-- `value != n`; a response's status is an integer. -/
def notEqual (value : Dynamic) (n : Int) : Bool :=
  match value with
  | .number (.int m) => m ≠ n
  | _ => true

/-- `value < lo || value >= hi`, of a response's status. -/
def outside (value : Dynamic) (lo hi : Int) : Bool :=
  match value with
  | .number (.int m) => m < lo ∨ m ≥ hi
  | _ => false

/-! ## The host API -/

/-- A string map as its pairs; the first value that is no string is an error. -/
def mapToPairs : Map → Script (List (String × String))
  | [] => pure []
  | (key, .string text) :: map => do
    let pairs ← mapToPairs map
    return (key, text) :: pairs
  | (key, value) :: _ =>
    raise (.runtime ("value for '" ++ key ++ "' must be a string, got " ++ E.typeName value))

/-- Runs a request and answers its response as a map. -/
def exec (request : HttpRequest) : Script Dynamic := do
  let answer : HttpAnswer ← (Dialog.request request : Dialog HttpRequest HttpAnswer HttpAnswer)
  match answer with
  | .response r => return .object (mapOf [("status", .number (.int r.status.toNat)), ("body", .string r.body)])
  | .failed err => raise (.runtime ("http error: " ++ err))
  | .panicked text => throw (.panicked text)

def httpPost (url headers body : Dynamic) : Script Dynamic :=
  match url, headers, body with
  | .string url, .object headers, .string body => do
    let headers ← mapToPairs E headers
    exec { method := "POST", url := url, headers := headers, body := .text body }
  | url, headers, body => raise (.functionNotFound "http_post" [url, headers, body])

def httpPostForm (url headers form : Dynamic) : Script Dynamic :=
  match url, headers, form with
  | .string url, .object headers, .object form => do
    let headers ← mapToPairs E headers
    let form ← mapToPairs E form
    exec { method := "POST", url := url, headers := headers, body := .form form }
  | url, headers, form => raise (.functionNotFound "http_post_form" [url, headers, form])

def toJson (value : Dynamic) : Script Dynamic :=
  match E.toJson value with
  | .ok text => pure (.string text)
  | .error err => raise (.runtime ("to_json: " ++ err))

def parseJson (raw : Dynamic) : Script Dynamic :=
  match raw with
  | .string raw =>
    match E.fromStr raw with
    | .error err => raise (.runtime ("parse_json: " ++ err))
    | .ok value =>
      match E.toDynamic value with
      | .error err => raise err
      | .ok value => pure value
  | _ => raise (.functionNotFound "parse_json" [raw])

/-- The log is no part of the model. -/
def logInfo (message : Dynamic) : Script Unit :=
  match message with
  | .string _ => pure ()
  | _ => raise (.functionNotFound "log_info" [message])

/-! ## Sending -/

def addressToMap (addr : Address) : Map :=
  mapOf (("email", .string addr.email) :: match addr.name with
    | none => []
    | some name => [("name", .string name)])

/-- The `mail` of a script. -/
def mailToMap (mail : Mail) : Map :=
  mapOf [
    ("from", .object (addressToMap mail.fromAddr)),
    ("to", .array (mail.toAddrs.map fun addr => .object (addressToMap addr))),
    ("subject", .string mail.subject),
    ("body", .string mail.body)]

/-- The `config` of a script. -/
def configToMap (config : SortedMap String String) : Map := config.entries.map fun e => (e.1, .string e.2)

/-- What a script compiles to: its `send` function. -/
abbrev SendFn := Dynamic → Dynamic → Script Unit

/-- The result of a send, from that of the blocking task. -/
def sendResult : Except Stop Unit → Except CoreError Unit
  | .ok () => .ok ()
  | .error (.error err) => .error (.transport ("plugin send: " ++ E.errorText err))
  | .error (.panicked text) => .error (.transport ("plugin task failed: " ++ text))

/-- `Transport::send` of a plugin. -/
def RhaiTransport.send (t : RhaiTransport SendFn) (mail : Mail) :
    Dialog HttpRequest HttpAnswer (Except CoreError Unit) := do
  let outcome ← (t.ast (.object (mailToMap mail)) (.object (configToMap t.config))).run
  return sendResult E outcome

/-! ## An engine -/

/-- The text of a number; a float is written as `null`. -/
def numberChars : Number → List Char
  | .int n => (toString n).toList
  | .float _ => "null".toList

end OxidRelay
