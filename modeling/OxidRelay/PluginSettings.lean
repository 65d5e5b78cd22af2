/-
The settings of a plugin against its table. Two keys of the table can get
one key of the result, `x` and `x_env`, and the later insert wins. Keys are
visited in their order and `x` comes before `x_env`, so that is the secret
(`resolveSettings_get`). Rust orders strings by their bytes, which for
UTF-8 is the order by characters that a `String` has here.
-/
import OxidRelay.Config

namespace OxidRelay

variable {env : Env} {raw : List (String × String)} {m settings : SortedMap String String} {key k : String}

/-! ## What a table stands for -/

/-- The key of a secret. -/
def IsSecret (key : String) : Prop := ∃ k, key = k ++ "_env"

/-- The table of a plugin, empty when there is none. -/
def Config.pluginTable (config : Config) (name : String) : SortedMap String String :=
  (config.plugins.get name).getD .empty

/-- The settings that a table stands for. -/
structure Resolves (env : Env) (table settings : SortedMap String String) : Prop where
  /-- Each key ending in `_env` without that suffix, and all other keys. -/
  keys : ∀ k, (∃ value, (k, value) ∈ settings.entries) ↔
    (∃ var, (k ++ "_env", var) ∈ table.entries) ∨ ¬ IsSecret k ∧ ∃ value, (k, value) ∈ table.entries
  /-- The secret form of a key wins. -/
  secret : ∀ k value var, (k, value) ∈ settings.entries → (k ++ "_env", var) ∈ table.entries → env var = some value
  plain : ∀ k value, (k, value) ∈ settings.entries → (∀ var, (k ++ "_env", var) ∉ table.entries) →
    (k, value) ∈ table.entries
  /-- Under a key ending in `_env` stands what a variable holds, never the name of one. -/
  hidden : ∀ k value, IsSecret k → (k, value) ∈ settings.entries →
    ∃ var, (k ++ "_env", var) ∈ table.entries ∧ env var = some value

/-! ## The loop -/

theorem isSecret_iff : IsSecret key ↔ Str.stripSuffix key "_env" ≠ none := by
  rw [Ne, Str.stripSuffix_eq_none]
  simp [IsSecret]

/-- The key of a secret comes after the key that it is the secret form of. -/
theorem lt_secret (k : String) : k < k ++ "_env" := Str.lt_append (by decide)

theorem secret_injective {k k' : String} (h : k ++ "_env" = k' ++ "_env") : k = k' := by
  have := congrArg (fun s => Str.stripSuffix s "_env") h
  simpa [Str.stripSuffix_eq_some.2 rfl] using this

/-- One iteration, at the key of a secret. -/
theorem resolveSettings_secret (k var : String) (raw : List (String × String)) (m : SortedMap String String) :
    Config.resolveSettings env ((k ++ "_env", var) :: raw) m =
      match env var with
      | some secret => Config.resolveSettings env raw (m.insert k secret)
      | none => .error (.missingEnv var) := by
  rw [Config.resolveSettings, Str.stripSuffix_eq_some.2 rfl]
  dsimp only [resolveEnv]
  cases env var <;> rfl

/-- One iteration, at any other key. -/
theorem resolveSettings_plain (hkey : Str.stripSuffix key "_env" = none) (value : String)
    (raw : List (String × String)) (m : SortedMap String String) :
    Config.resolveSettings env ((key, value) :: raw) m = Config.resolveSettings env raw (m.insert key value) := by
  rw [Config.resolveSettings, hkey]

/-- **The loop fails** at a secret whose variable is not set, and says which. -/
theorem resolveSettings_error {err : ConfigError} (raw : List (String × String)) : ∀ m : SortedMap String String,
    Config.resolveSettings env raw m = .error err →
      ∃ k var, (k ++ "_env", var) ∈ raw ∧ env var = none ∧ err = .missingEnv var := by
  induction raw with
  | nil =>
    intro m h
    cases h
  | cons e raw ih =>
    intro m h
    obtain ⟨key, value⟩ := e
    have hrest {m : SortedMap String String} (h : Config.resolveSettings env raw m = .error err) :
        ∃ k var, (k ++ "_env", var) ∈ (key, value) :: raw ∧ env var = none ∧ err = .missingEnv var := by
      obtain ⟨k, var, hmem, herr⟩ := ih m h
      exact ⟨k, var, List.mem_cons_of_mem _ hmem, herr⟩
    cases hkey : Str.stripSuffix key "_env" with
    | some k =>
      obtain rfl := Str.stripSuffix_eq_some.1 hkey
      rw [resolveSettings_secret] at h
      cases hvar : env value with
      | none =>
        rw [hvar] at h
        cases h
        exact ⟨k, value, List.mem_cons_self, hvar, rfl⟩
      | some secret =>
        rw [hvar] at h
        exact hrest h
    | none =>
      rw [resolveSettings_plain hkey] at h
      exact hrest h

/-- It does not get past such a secret. -/
theorem resolveSettings_ok (raw : List (String × String)) : ∀ m : SortedMap String String,
    Config.resolveSettings env raw m = .ok settings → ∀ k var, (k ++ "_env", var) ∈ raw → env var ≠ none := by
  induction raw with
  | nil =>
    intro m _ k var hmem
    cases hmem
  | cons e raw ih =>
    intro m h k var hmem
    obtain ⟨key, value⟩ := e
    cases hkey : Str.stripSuffix key "_env" with
    | some k' =>
      obtain rfl := Str.stripSuffix_eq_some.1 hkey
      rw [resolveSettings_secret] at h
      cases hvar : env value with
      | none =>
        rw [hvar] at h
        cases h
      | some secret =>
        rw [hvar] at h
        rcases List.mem_cons.1 hmem with hhead | htail
        · rw [(Prod.mk.inj hhead).2, hvar]
          exact Option.some_ne_none _
        · exact ih _ h k var htail
    | none =>
      rw [resolveSettings_plain hkey] at h
      rcases List.mem_cons.1 hmem with hhead | htail
      · cases hhead
        exact absurd rfl (Str.stripSuffix_eq_none.1 hkey k)
      · exact ih _ h k var htail

/-- The value that the entries of a table give a key. -/
def settingOf (env : Env) (raw : List (String × String)) (k : String) : Option String :=
  match Keyed.get Prod.fst raw (k ++ "_env") with
  | some e => env e.2
  | none => if Str.stripSuffix k "_env" = none then (Keyed.get Prod.fst raw k).map Prod.snd else none

theorem settingOf_of_lt (h : ∀ k' ∈ raw.map Prod.fst, k ++ "_env" < k') : settingOf env raw k = none := by
  have hsecret : Keyed.get Prod.fst raw (k ++ "_env") = none :=
    Keyed.get_eq_none.2 fun e he heq => (h _ (List.mem_map_of_mem he)).ne heq.symm
  have hplain : Keyed.get Prod.fst raw k = none :=
    Keyed.get_eq_none.2 fun e he heq => ((lt_secret k).trans (h _ (List.mem_map_of_mem he))).ne heq.symm
  rw [settingOf, hsecret, hplain]
  simp

/-- A secret at the head is the last word on its key. -/
theorem settingOf_secret {var secret : String} (hvar : env var = some secret)
    (h : ∀ k' ∈ raw.map Prod.fst, key ++ "_env" < k') :
    settingOf env ((key ++ "_env", var) :: raw) k =
      (settingOf env raw k).or (if key = k then some secret else none) := by
  by_cases hk : key = k
  · subst hk
    rw [settingOf_of_lt h, if_pos rfl, settingOf]
    simpa [Keyed.get] using hvar
  · have hne : (key ++ "_env", var).1 ≠ k ++ "_env" := fun he => hk (secret_injective he)
    rw [if_neg hk, Option.or_none, settingOf, settingOf, Keyed.get_cons_of_ne hne]
    cases Keyed.get Prod.fst raw (k ++ "_env") with
    | some e => rfl
    | none =>
      by_cases hs : Str.stripSuffix k "_env" = none
      · have hne' : (key ++ "_env", var).1 ≠ k := fun he => Str.stripSuffix_eq_none.1 hs key he.symm
        rw [if_pos hs, if_pos hs, Keyed.get_cons_of_ne hne']
      · rw [if_neg hs, if_neg hs]

/-- Any other key at the head gives way to a secret further on. -/
theorem settingOf_plain {value : String} (hkey : Str.stripSuffix key "_env" = none)
    (h : ∀ k' ∈ raw.map Prod.fst, key < k') (hset : ∀ k var, (k ++ "_env", var) ∈ raw → env var ≠ none) :
    settingOf env ((key, value) :: raw) k = (settingOf env raw k).or (if key = k then some value else none) := by
  have hne : (key, value).1 ≠ k ++ "_env" := fun he => Str.stripSuffix_eq_none.1 hkey k he
  rw [settingOf, settingOf, Keyed.get_cons_of_ne hne]
  cases hs : Keyed.get Prod.fst raw (k ++ "_env") with
  | some e =>
    obtain ⟨hmem, hk⟩ := Keyed.mem_of_get hs
    obtain ⟨held, hheld⟩ := Option.ne_none_iff_exists'.1 (hset k e.2 (hk ▸ hmem))
    simp [hheld]
  | none =>
    by_cases hk : key = k
    · subst hk
      have hnone : Keyed.get Prod.fst raw key = none :=
        Keyed.get_eq_none.2 fun e he heq => (h _ (List.mem_map_of_mem he)).ne heq.symm
      have hhead : Keyed.get Prod.fst ((key, value) :: raw) key = some (key, value) := by simp [Keyed.get]
      simp [hkey, hnone, hhead]
    · have hne' : (key, value).1 ≠ k := hk
      rw [if_neg hk, Option.or_none, Keyed.get_cons_of_ne hne']

/-- **What the loop returns**, key by key. -/
theorem resolveSettings_get (raw : List (String × String)) : ∀ m : SortedMap String String,
    (raw.map Prod.fst).Pairwise (· < ·) → Config.resolveSettings env raw m = .ok settings →
      settings.get k = (settingOf env raw k).or (m.get k) := by
  induction raw with
  | nil =>
    intro m _ h
    cases h
    simp [settingOf, Keyed.get]
  | cons e raw ih =>
    intro m hsorted h
    obtain ⟨key, value⟩ := e
    obtain ⟨hlt, htail⟩ := List.pairwise_cons.1 hsorted
    have hput (k' v : String) : (if k' = k then some v else m.get k) =
        (if k' = k then some v else none).or (m.get k) := by
      split <;> rfl
    cases hkey : Str.stripSuffix key "_env" with
    | some stripped =>
      obtain rfl := Str.stripSuffix_eq_some.1 hkey
      rw [resolveSettings_secret] at h
      cases hvar : env value with
      | none =>
        rw [hvar] at h
        cases h
      | some secret =>
        rw [hvar] at h
        rw [ih _ htail h, SortedMap.get_insert, settingOf_secret hvar hlt, hput, Option.or_assoc]
    | none =>
      rw [resolveSettings_plain hkey] at h
      have hset := resolveSettings_ok raw _ h
      rw [ih _ htail h, SortedMap.get_insert, settingOf_plain hkey hlt hset, hput, Option.or_assoc]

/-! ## The settings -/

theorem Config.pluginSettings_eq (env : Env) (config : Config) (name : String) :
    config.pluginSettings env name = resolveSettings env (config.pluginTable name).entries .empty := by
  unfold pluginSettings pluginTable
  cases config.plugins.get name <;> rfl

/-- A key has the value its secret form names, or else its own. -/
theorem settingOf_eq (table : SortedMap String String) (k : String) : settingOf env table.entries k =
    match table.get (k ++ "_env") with
    | some var => env var
    | none => if Str.stripSuffix k "_env" = none then table.get k else none := by
  unfold settingOf SortedMap.get
  cases Keyed.get Prod.fst table.entries (k ++ "_env") <;> rfl

theorem resolves_of_get {table settings : SortedMap String String}
    (hset : ∀ k var, (k ++ "_env", var) ∈ table.entries → env var ≠ none)
    (h : ∀ k, settings.get k = settingOf env table.entries k) : Resolves env table settings := by
  have hsome (k value var : String) (hvar : (k ++ "_env", var) ∈ table.entries) :
      (k, value) ∈ settings.entries ↔ env var = some value := by
    rw [← SortedMap.get_eq_some, h, settingOf_eq, SortedMap.get_eq_some.2 hvar]
  have hnone (k value : String) (hvar : ∀ var, (k ++ "_env", var) ∉ table.entries) :
      (k, value) ∈ settings.entries ↔ ¬ IsSecret k ∧ (k, value) ∈ table.entries := by
    rw [← SortedMap.get_eq_some, h, settingOf_eq, SortedMap.get_eq_none.2 hvar, isSecret_iff, not_not,
      ← SortedMap.get_eq_some]
    by_cases hs : Str.stripSuffix k "_env" = none <;> simp [hs]
  refine ⟨?_, ?_, ?_, ?_⟩
  · intro k
    by_cases hvar : ∃ var, (k ++ "_env", var) ∈ table.entries
    · obtain ⟨var, hvar⟩ := hvar
      obtain ⟨value, hvalue⟩ := Option.ne_none_iff_exists'.1 (hset k var hvar)
      exact iff_of_true ⟨value, (hsome k value var hvar).2 hvalue⟩ (.inl ⟨var, hvar⟩)
    · have hvar' := not_exists.1 hvar
      refine ⟨fun hk => ?_, fun hk => ?_⟩
      · obtain ⟨value, hvalue⟩ := hk
        obtain ⟨hs, hmem⟩ := (hnone k value hvar').1 hvalue
        exact .inr ⟨hs, value, hmem⟩
      · obtain ⟨hs, value, hmem⟩ := hk.resolve_left hvar
        exact ⟨value, (hnone k value hvar').2 ⟨hs, hmem⟩⟩
  · intro k value var hvalue hvar
    exact (hsome k value var hvar).1 hvalue
  · intro k value hvalue hvar
    exact ((hnone k value hvar).1 hvalue).2
  · intro k value hs hvalue
    by_cases hvar : ∃ var, (k ++ "_env", var) ∈ table.entries
    · obtain ⟨var, hvar⟩ := hvar
      exact ⟨var, hvar, (hsome k value var hvar).1 hvalue⟩
    · exact absurd hs ((hnone k value (not_exists.1 hvar)).1 hvalue).1

/-- **Plugin settings.** The settings of a plugin resolve unless some key
ending in `_env` names a variable that is not set. Their keys are those of
the table, with `_env` stripped once where a key ends in it, and a key that
the table has in both forms gets the secret. -/
theorem plugin_settings_resolved (env : Env) (config : Config) (name : String) :
    ((∃ err, config.pluginSettings env name = .error err) ↔
      ∃ k var, (k ++ "_env", var) ∈ (config.pluginTable name).entries ∧ env var = none) ∧
    ∀ settings, config.pluginSettings env name = .ok settings →
      Resolves env (config.pluginTable name) settings := by
  rw [Config.pluginSettings_eq]
  constructor
  · refine ⟨fun h => ?_, fun h => ?_⟩
    · obtain ⟨err, herr⟩ := h
      obtain ⟨k, var, hmem, hvar, -⟩ := resolveSettings_error _ _ herr
      exact ⟨k, var, hmem, hvar⟩
    · obtain ⟨k, var, hmem, hvar⟩ := h
      cases hr : Config.resolveSettings env (config.pluginTable name).entries .empty with
      | error err => exact ⟨err, rfl⟩
      | ok settings => exact absurd hvar (resolveSettings_ok _ _ hr k var hmem)
  · intro settings h
    refine resolves_of_get (resolveSettings_ok _ _ h) fun k => ?_
    rw [resolveSettings_get _ _ (config.pluginTable name).sorted h, SortedMap.get_empty, Option.or_none]

example : (Config.resolveSettings (fun var => some ("value of " ++ var))
    [("x", "plain"), ("x_env", "X"), ("x_env_env", "Y")] .empty).toOption.map SortedMap.entries =
      some [("x", "value of X"), ("x_env", "value of Y")] := by decide

end OxidRelay
