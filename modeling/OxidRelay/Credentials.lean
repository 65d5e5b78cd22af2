/-
What `AuthConfig::authenticate` answers, service by service. The loop
stops at the first service, in key order, that has the user name; that
service decides, also when its password is another or is not set. Only a
user name that no service has reaches self-registration, and there it
becomes the sender name as it is, even when it is the key of a service.
-/
import OxidRelay.Config

namespace OxidRelay

variable {auth : AuthConfig} {env : Env} {username password name : String} {service : ServiceAuth}
  {entries : List (String × ServiceAuth)} {e e' : String × ServiceAuth}

/-- The credentials are those of the service: its user name, and the value
of its password variable. -/
def ServiceAuth.Accepts (env : Env) (service : ServiceAuth) (username password : String) : Prop :=
  service.username = username ∧ env service.passwordEnv = some password

instance : Decidable (service.Accepts env username password) := inferInstanceAs (Decidable (_ ∧ _))

/-! ## The loop -/

theorem AuthConfig.findService_eq_none : AuthConfig.findService username entries = none ↔
    ∀ e ∈ entries, e.2.username ≠ username := by
  induction entries with
  | nil => simp [AuthConfig.findService]
  | cons e entries ih =>
    rw [AuthConfig.findService, List.forall_mem_cons]
    by_cases h : e.2.username = username
    · simp [h]
    · simp [h, ih]

/-- What the loop finds has the user name, and nothing before it has. -/
theorem AuthConfig.findService_eq_some (h : AuthConfig.findService username entries = some e) :
    ∃ before after, entries = before ++ e :: after ∧ e.2.username = username ∧
      ∀ e' ∈ before, e'.2.username ≠ username := by
  induction entries with
  | nil => cases h
  | cons x entries ih =>
    rw [AuthConfig.findService] at h
    by_cases hx : x.2.username = username
    · rw [if_pos hx] at h
      cases h
      exact ⟨[], entries, rfl, hx, by simp⟩
    · rw [if_neg hx] at h
      obtain ⟨before, after, rfl, he, hbefore⟩ := ih h
      refine ⟨x :: before, after, rfl, he, ?_⟩
      rw [List.forall_mem_cons]
      exact ⟨hx, hbefore⟩

/-- The first service of a user name, in key order. -/
structure AuthConfig.First (auth : AuthConfig) (username : String) (e : String × ServiceAuth) : Prop where
  mem : e ∈ auth.services.entries
  named : e.2.username = username
  least : ∀ e' ∈ auth.services.entries, e'.2.username = username → e.1 ≤ e'.1

theorem AuthConfig.first_of_findService (h : AuthConfig.findService username auth.services.entries = some e) :
    auth.First username e := by
  obtain ⟨before, after, heq, he, hbefore⟩ := AuthConfig.findService_eq_some h
  refine ⟨by rw [heq]; simp, he, ?_⟩
  intro e' he' hu
  have hsorted := auth.services.sorted
  rw [heq, List.map_append, List.map_cons] at hsorted
  rw [heq, List.mem_append, List.mem_cons] at he'
  rcases he' with hb | rfl | ha
  · exact absurd hu (hbefore e' hb)
  · exact le_refl _
  · have hafter := (List.pairwise_cons.1 (List.pairwise_append.1 hsorted).2.1).1
    exact (hafter e'.1 (List.mem_map_of_mem ha)).le

/-- There is only one first service. -/
theorem AuthConfig.First.unique (h : auth.First username e) (h' : auth.First username e') : e = e' := by
  have hk : e.1 = e'.1 := le_antisymm (h.least e' h'.mem h'.named) (h'.least e h.mem h.named)
  exact List.inj_on_of_nodup_map auth.services.nodup h.mem h'.mem hk

/-! ## The answer -/

/-- The first service of the user name decides. -/
theorem AuthConfig.First.authenticate (h : auth.First username e) :
    auth.authenticate env username password =
      match env e.2.passwordEnv with
      | some expected => .ok (if expected = password then some e.1 else none)
      | none => .error (.missingEnv e.2.passwordEnv) := by
  cases hf : AuthConfig.findService username auth.services.entries with
  | none => exact absurd h.named (AuthConfig.findService_eq_none.1 hf e h.mem)
  | some found =>
    obtain rfl := h.unique (AuthConfig.first_of_findService hf)
    unfold AuthConfig.authenticate ServiceAuth.password resolveEnv
    rw [hf]
    dsimp only
    cases env e.2.passwordEnv <;> rfl

/-- Without a service of the user name, self-registration decides. -/
theorem AuthConfig.authenticate_of_none (h : ∀ e ∈ auth.services.entries, e.2.username ≠ username) :
    auth.authenticate env username password = .ok (if auth.selfRegister.enabled then some username else none) := by
  unfold AuthConfig.authenticate
  rw [AuthConfig.findService_eq_none.2 h]
  rfl

theorem AuthConfig.First.authenticate_eq_some (h : auth.First username e) :
    auth.authenticate env username password = .ok (some name) ↔ e.1 = name ∧ e.2.Accepts env username password := by
  rw [h.authenticate]
  unfold ServiceAuth.Accepts
  cases hp : env e.2.passwordEnv with
  | none => simp
  | some expected =>
    by_cases heq : expected = password
    · simp [heq, h.named]
    · simp [heq]

/-! ## Identities -/

/-- **Whose name a login gets.** A name that is the key of a service goes
to the credentials of that service, or, while self-registration is on, to
a user name that is the key itself and that no service has. -/
theorem service_identity (h : auth.authenticate env username password = .ok (some name))
    (hname : (name, service) ∈ auth.services.entries) :
    service.Accepts env username password ∨
      auth.selfRegister.enabled = true ∧ username = name ∧
        ∀ e ∈ auth.services.entries, e.2.username ≠ username := by
  cases hf : AuthConfig.findService username auth.services.entries with
  | some e =>
    left
    have hfirst := AuthConfig.first_of_findService hf
    obtain ⟨rfl, haccepts⟩ := hfirst.authenticate_eq_some.1 h
    have heq : e = (e.1, service) := List.inj_on_of_nodup_map auth.services.nodup hfirst.mem hname rfl
    rw [heq] at haccepts
    exact haccepts
  | none =>
    right
    have hnone := AuthConfig.findService_eq_none.1 hf
    rw [AuthConfig.authenticate_of_none hnone] at h
    by_cases hon : auth.selfRegister.enabled = true
    · rw [if_pos hon] at h
      cases h
      exact ⟨hon, rfl, hnone⟩
    · rw [if_neg hon] at h
      cases h

/-- One service, with self-registration on. -/
def backupAuth : AuthConfig where
  anonymous := ⟨false, none⟩
  services := .single "backup-host" ⟨"backup", "BACKUP_PASSWORD"⟩
  selfRegister := ⟨true⟩

def backupEnv : Env := fun var => if var = "BACKUP_PASSWORD" then some "geheim" else none

theorem service_identity_example : ServiceAuth.Accepts backupEnv ⟨"backup", "BACKUP_PASSWORD"⟩ "backup" "geheim" ∨
    backupAuth.selfRegister.enabled = true ∧ "backup" = "backup-host" ∧
      ∀ e ∈ backupAuth.services.entries, e.2.username ≠ "backup" := by
  have h : backupAuth.authenticate backupEnv "backup" "geheim" = .ok (some "backup-host") := by decide
  exact service_identity h (List.mem_singleton.2 rfl)

/-- The key as a user name, with any password, gets the name of the service. -/
theorem service_identity_registered :
    backupAuth.authenticate backupEnv "backup-host" "falsch" = .ok (some "backup-host") ∧
      ("backup-host", ⟨"backup", "BACKUP_PASSWORD"⟩) ∈ backupAuth.services.entries ∧
      ¬ ServiceAuth.Accepts backupEnv ⟨"backup", "BACKUP_PASSWORD"⟩ "backup-host" "falsch" :=
  ⟨by decide, List.mem_singleton.2 rfl, by decide⟩

/-! ## Valid credentials -/

/-- **When valid credentials are accepted**: a service that accepts them
comes first, in key order, among the services of the user name. -/
theorem valid_credentials_accepted_iff (auth : AuthConfig) (env : Env) (username password : String) :
    ((∃ e ∈ auth.services.entries, e.2.Accepts env username password) →
      ∃ e ∈ auth.services.entries, e.2.Accepts env username password ∧
        auth.authenticate env username password = .ok (some e.1)) ↔
    ((∃ e ∈ auth.services.entries, e.2.Accepts env username password) →
      ∃ e ∈ auth.services.entries, e.2.Accepts env username password ∧
        ∀ e' ∈ auth.services.entries, e'.2.username = username → e.1 ≤ e'.1) := by
  refine imp_congr_right fun hmatch => ?_
  constructor
  · intro h
    obtain ⟨e, he, haccepts, hauth⟩ := h
    cases hf : AuthConfig.findService username auth.services.entries with
    | none => exact absurd haccepts.1 (AuthConfig.findService_eq_none.1 hf e he)
    | some first =>
      have hfirst := AuthConfig.first_of_findService hf
      exact ⟨first, hfirst.mem, (hfirst.authenticate_eq_some.1 hauth).2, hfirst.least⟩
  · intro h
    obtain ⟨e, he, haccepts, hleast⟩ := h
    have hfirst : auth.First username e := ⟨he, haccepts.1, hleast⟩
    exact ⟨e, he, haccepts, hfirst.authenticate_eq_some.2 ⟨rfl, haccepts⟩⟩

/-- Two services that share a user name. -/
def sharedAuth : AuthConfig where
  anonymous := ⟨false, none⟩
  services := ⟨[("backup-a", ⟨"backup", "PASSWORD_A"⟩), ("backup-b", ⟨"backup", "PASSWORD_B"⟩)], by decide⟩
  selfRegister := ⟨false⟩

def sharedEnv : Env := fun var =>
  if var = "PASSWORD_A" then some "eins" else if var = "PASSWORD_B" then some "zwei" else none

/-- The second service's credentials are refused. -/
theorem shared_username_refused :
    (∃ e ∈ sharedAuth.services.entries, e.2.Accepts sharedEnv "backup" "zwei") ∧
      sharedAuth.authenticate sharedEnv "backup" "zwei" = .ok none := by
  decide

end OxidRelay
