/-
What the bundled scripts ask for and how they end. A request that needs a
setting which is missing is not made; an answer that is no success ends a
script with an error.
-/
import OxidRelay.Scripts

namespace OxidRelay

variable {E : RhaiEngine} {mail : Mail} {config : SortedMap String String} {q : HttpRequest}
  {t : List (HttpRequest × HttpAnswer)} {v : Dynamic}

/-! ## Maps -/

@[simp] theorem len_array (vs : List Dynamic) : len (.array vs) = pure (.number (.int vs.length)) := rfl

@[simp] theorem logInfo_string (s : String) : logInfo (.string s) = pure () := rfl

@[simp] theorem entryOf_nil (name : String) : entryOf [] name = none := rfl

@[simp] theorem entryOf_insertEntry (k name : String) (v : Dynamic) (map : Map) :
    entryOf (SortedMap.insertEntry k v map) name = if k = name then some v else entryOf map name := by
  unfold entryOf
  rw [SortedMap.get_insertEntry]
  split <;> rfl

/-- A setting as a script reads it. -/
def setting (config : SortedMap String String) (name : String) : Dynamic := ((config.get name).map .string).getD .null

/-- How a script ends that takes an answer of some status for success and throws any other. -/
def lastAnswer (E : RhaiEngine) (success : UInt16 → Bool) (failure : String) : HttpAnswer → Except Stop Unit
  | .response r =>
    if success r.status then .ok ()
    else .error (.error (.runtime (failure ++ E.display (.number (.int r.status.toNat)) ++ " " ++ r.body)))
  | .failed err => .error (.error (.runtime ("http error: " ++ err)))
  | .panicked text => .error (.panicked text)

/-- The value of a text that is read. -/
def RhaiEngine.read (E : RhaiEngine) (text : String) : Option Dynamic :=
  (E.fromStr text).toOption.bind fun value => (E.toDynamic value).toOption

def sendMailUrl (E : RhaiEngine) (config : SortedMap String String) : String :=
  "https://graph.microsoft.com/v1.0/users/" ++ E.display (setting config "sender") ++ "/sendMail"

def ntfyUrl (E : RhaiEngine) (config : SortedMap String String) : String :=
  (config.get "server").getD "https://ntfy.sh" ++ "/" ++ E.display (setting config "topic")

end OxidRelay
