/-
The plugins that come with the relay, by the `send` function of their
scripts: Microsoft Graph, Microsoft Teams and ntfy. Each takes the `mail`
and `config` maps that `RhaiTransport.send` hands it, and throws a text.
-/
import OxidRelay.Rhai

namespace OxidRelay

variable (E : RhaiEngine)

/-- A `throw`. -/
def throwText {α : Type} (text : String) : Script α := raise (.runtime text)

/-! ## Microsoft Graph -/

/-- The loop over the recipients. -/
def pushRecipients : List Dynamic → List Dynamic → Script (List Dynamic)
  | [], recipients => pure recipients
  | recipient :: rest, recipients => do
    let email ← property recipient "email"
    pushRecipients rest (recipients ++ [.object (mapOf [("emailAddress", .object (mapOf [("address", email)]))])])

/-- `plugins/graph/script.rhai`. -/
def graphSend (mail config : Dynamic) : Script Unit := do
  -- An access token, by the client credentials grant.
  let tokenUrl := "https://login.microsoftonline.com/" ++ E.display (← property config "tenant_id") ++
    "/oauth2/v2.0/token"
  let tokenForm := mapOf [
    ("client_id", ← property config "client_id"),
    ("client_secret", ← property config "client_secret"),
    ("scope", .string "https://graph.microsoft.com/.default"),
    ("grant_type", .string "client_credentials")]
  let tokenRes ← httpPostForm E (.string tokenUrl) (.object (mapOf [])) (.object tokenForm)
  let tokenStatus ← property tokenRes "status"
  let tokenBody ← property tokenRes "body"
  if notEqual tokenStatus 200 then
    throwText ("token request failed: " ++ E.display tokenStatus ++ " " ++ E.display tokenBody)
  else
    let accessToken ← property (← parseJson E tokenBody) "access_token"
    let recipients ← pushRecipients (← items (← property mail "to")) []
    let payload := mapOf [
      ("message", .object (mapOf [
        ("subject", ← property mail "subject"),
        ("body", .object (mapOf [("contentType", .string "Text"), ("content", ← property mail "body")])),
        ("toRecipients", .array recipients)])),
      ("saveToSentItems", .bool false)]
    let sendUrl := "https://graph.microsoft.com/v1.0/users/" ++ E.display (← property config "sender") ++ "/sendMail"
    let headers := mapOf [
      ("Authorization", .string ("Bearer " ++ E.display accessToken)),
      ("Content-Type", .string "application/json")]
    let res ← httpPost E (.string sendUrl) (.object headers) (← toJson E (.object payload))
    let status ← property res "status"
    let body ← property res "body"
    if notEqual status 202 then
      throwText ("sendMail failed: " ++ E.display status ++ " " ++ E.display body)
    else
      logInfo (.string ("graph: delivered mail to " ++ E.display (← len (← property mail "to")) ++ " recipient(s)"))

/-! ## Microsoft Teams -/

/-- `plugins/teams/script.rhai`. -/
def teamsSend (mail config : Dynamic) : Script Unit := do
  let card := mapOf [
    ("type", .string "AdaptiveCard"),
    ("$schema", .string "http://adaptivecards.io/schemas/adaptive-card.json"),
    ("version", .string "1.4"),
    ("body", .array [
      .object (mapOf [("type", .string "TextBlock"), ("text", ← property mail "subject"),
        ("weight", .string "Bolder"), ("size", .string "Medium"), ("wrap", .bool true)]),
      .object (mapOf [("type", .string "TextBlock"), ("text", ← property mail "body"), ("wrap", .bool true)])])]
  let payload := mapOf [
    ("type", .string "message"),
    ("attachments", .array [
      .object (mapOf [
        ("contentType", .string "application/vnd.microsoft.card.adaptive"),
        ("content", .object card)])])]
  let res ← httpPost E (← property config "webhook_url")
    (.object (mapOf [("Content-Type", .string "application/json")])) (← toJson E (.object payload))
  let status ← property res "status"
  let body ← property res "body"
  if outside status 200 300 then
    throwText ("teams webhook failed: " ++ E.display status ++ " " ++ E.display body)
  else
    logInfo (.string ("teams: message posted (status " ++ E.display status ++ ")"))

/-! ## ntfy -/

/-- `plugins/ntfy/script.rhai`. -/
def ntfySend (mail config : Dynamic) : Script Unit := do
  let server ← if ← contains "server" config then property config "server" else pure (.string "https://ntfy.sh")
  let url := E.display server ++ "/" ++ E.display (← property config "topic")
  let titled := mapOf [("Title", ← property mail "subject")]
  let headers ← if ← contains "token" config then do
      let token ← property config "token"
      pure (SortedMap.insertEntry "Authorization" (.string ("Bearer " ++ E.display token)) titled)
    else pure titled
  let res ← httpPost E (.string url) (.object headers) (← property mail "body")
  let status ← property res "status"
  let body ← property res "body"
  if outside status 200 300 then
    throwText ("ntfy failed: " ++ E.display status ++ " " ++ E.display body)
  else
    logInfo (.string ("ntfy: published to " ++ E.display (← property config "topic") ++
      " (status " ++ E.display status ++ ")"))

end OxidRelay
