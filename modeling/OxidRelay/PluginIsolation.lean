/-
What becomes of the plugins on a search path. An entry of a directory is no
plugin, loads, or fails to load (`LoadResult`). Settings that do not
resolve cost one plugin its transport; an entry that fails to load ends the
scan of its directory, and with it all plugins of the directory are lost:
the transports are those of the directories without such an entry
(`buildPluginTransports_eq`).
-/
import OxidRelay.ParallelTick
import OxidRelay.Plugins

namespace OxidRelay

variable {α τ : Type} {H : PluginHost α} {env : Env} {config : Config} {dir : String} {dirs : List String}
  {plugins : List (Plugin α)} {transports : List (String × RhaiTransport α)}

/-! ## The search path -/

/-- What an entry of a directory comes to. -/
inductive LoadResult (α : Type)
  | notPlugin
  | loaded (plugin : Plugin α)
  | failed (err : PluginError)

namespace LoadResult

def isFailed : LoadResult α → Bool
  | .failed _ => true
  | _ => false

def plugin? : LoadResult α → Option (Plugin α)
  | .loaded plugin => some plugin
  | _ => none

end LoadResult

def loadResult (H : PluginHost α) (dir : String) : Except String String → LoadResult α
  | .error source => .failed (.io dir source)
  | .ok path =>
    if isPluginDir H path then
      match loadPlugin H path with
      | .ok plugin => .loaded plugin
      | .error err => .failed err
    else .notPlugin

/-- The entries of each directory. -/
def searchPath (H : PluginHost α) (dirs : List String) : List (List (LoadResult α)) :=
  dirs.map fun dir => ((H.readDir dir).getD []).map (loadResult H dir)

/-- The transport of a plugin, when its settings resolve. -/
def Plugin.transport (env : Env) (config : Config) (plugin : Plugin α) : Option (String × RhaiTransport α) :=
  (config.pluginSettings env plugin.manifest.name).toOption.map fun settings =>
    (plugin.manifest.name, RhaiTransport.new plugin settings)

/-- The transport an entry is good for: it loads, and its settings resolve. -/
def LoadResult.transport (env : Env) (config : Config) (r : LoadResult α) : Option (String × RhaiTransport α) :=
  r.plugin?.bind (Plugin.transport env config)

/-! ## One directory -/

/-- One iteration of the scan. -/
theorem discoverEntries_cons (entry : Except String String) (entries : List (Except String String))
    (plugins : List (Plugin α)) : discoverEntries H dir (entry :: entries) plugins =
      match loadResult H dir entry with
      | .notPlugin => discoverEntries H dir entries plugins
      | .loaded plugin => discoverEntries H dir entries (plugins ++ [plugin])
      | .failed err => .error err := by
  rw [discoverEntries]
  cases entry with
  | error source => rfl
  | ok path =>
    simp only [Except.mapError, bind, Except.bind, loadResult]
    cases isPluginDir H path with
    | false => rfl
    | true =>
      simp only [Bool.not_true, Bool.false_eq_true, if_false, if_true]
      cases loadPlugin H path <;> rfl

theorem discoverEntries_ok (entries : List (Except String String)) : ∀ plugins : List (Plugin α),
    (∀ r ∈ entries.map (loadResult H dir), r.isFailed = false) →
      discoverEntries H dir entries plugins =
        .ok (plugins ++ (entries.map (loadResult H dir)).filterMap LoadResult.plugin?) := by
  induction entries with
  | nil =>
    intro plugins _
    simp [discoverEntries]
  | cons entry entries ih =>
    intro plugins h
    obtain ⟨hentry, hentries⟩ := List.forall_mem_cons.1 h
    rw [discoverEntries_cons, List.map_cons, List.filterMap_cons]
    cases hr : loadResult H dir entry with
    | notPlugin => exact ih plugins hentries
    | loaded plugin =>
      dsimp only [LoadResult.plugin?]
      rw [ih _ hentries, List.append_assoc]
      rfl
    | failed err =>
      rw [hr] at hentry
      cases hentry

/-- **One entry that fails ends the scan**, wherever it stands. -/
theorem discoverEntries_failed (entries : List (Except String String)) : ∀ plugins : List (Plugin α),
    (∃ r ∈ entries.map (loadResult H dir), r.isFailed = true) →
      ∃ err, discoverEntries H dir entries plugins = .error err := by
  induction entries with
  | nil =>
    intro plugins h
    obtain ⟨r, hr, -⟩ := h
    cases hr
  | cons entry entries ih =>
    intro plugins h
    obtain ⟨r, hmem, hr⟩ := h
    have hrest (hne : (loadResult H dir entry).isFailed = false) :
        ∃ r ∈ entries.map (loadResult H dir), r.isFailed = true := by
      rcases List.mem_cons.1 hmem with hhead | htail
      · rw [hhead, hne] at hr
        cases hr
      · exact ⟨r, htail, hr⟩
    rw [discoverEntries_cons]
    cases hentry : loadResult H dir entry with
    | notPlugin => exact ih plugins (hrest (by rw [hentry]; rfl))
    | loaded plugin => exact ih _ (hrest (by rw [hentry]; rfl))
    | failed err => exact ⟨err, rfl⟩

theorem stringConfigMap_entries (settings : SortedMap String String) :
    stringConfigMap settings.entries = settings :=
  SortedMap.ext (SortedMap.entries_foldl_insert settings.entries .empty settings.sorted)

/-- **Settings that do not resolve** cost no other plugin its transport. -/
theorem pluginTransports_eq (plugins : List (Plugin α)) : ∀ transports : List (String × RhaiTransport α),
    pluginTransports env config plugins transports =
      transports ++ plugins.filterMap (Plugin.transport env config) := by
  induction plugins with
  | nil =>
    intro transports
    simp [pluginTransports]
  | cons plugin plugins ih =>
    intro transports
    rw [pluginTransports, List.filterMap_cons, Plugin.transport]
    cases config.pluginSettings env plugin.manifest.name with
    | error err => exact ih transports
    | ok settings =>
      dsimp only [Except.toOption, Option.map]
      rw [ih, stringConfigMap_entries, List.append_assoc]
      rfl

/-! ## The whole path -/

/-- No entry fails to load. -/
def sound (results : List (LoadResult α)) : Bool := results.all fun r => !r.isFailed

/-- The transports that the entries of a directory are good for. -/
def usable (env : Env) (config : Config) (results : List (LoadResult α)) : List (String × RhaiTransport α) :=
  results.filterMap (LoadResult.transport env config)

theorem sound_iff {results : List (LoadResult α)} : sound results = true ↔ ∀ r ∈ results, r.isFailed = false := by
  simp [sound]

theorem discover_ok (h : sound (((H.readDir dir).getD []).map (loadResult H dir)) = true) :
    discover H dir = .ok ((((H.readDir dir).getD []).map (loadResult H dir)).filterMap LoadResult.plugin?) := by
  unfold discover
  cases hdir : H.readDir dir with
  | none => rfl
  | some entries =>
    rw [hdir] at h
    exact discoverEntries_ok entries [] (sound_iff.1 h)

theorem discover_failed (h : sound (((H.readDir dir).getD []).map (loadResult H dir)) = false) :
    ∃ err, discover H dir = .error err := by
  unfold discover
  cases hdir : H.readDir dir with
  | none =>
    rw [hdir] at h
    cases h
  | some entries =>
    rw [hdir] at h
    exact discoverEntries_failed entries [] (by simpa [sound] using h)

theorem dirTransports_eq (dirs : List String) : ∀ transports : List (String × RhaiTransport α),
    dirTransports H env config dirs transports =
      transports ++ ((searchPath H dirs).filter sound).flatMap (usable env config) := by
  induction dirs with
  | nil =>
    intro transports
    simp [dirTransports, searchPath]
  | cons dir dirs ih =>
    intro transports
    unfold searchPath at ih ⊢
    rw [dirTransports, List.map_cons]
    cases h : sound (((H.readDir dir).getD []).map (loadResult H dir)) with
    | true =>
      rw [discover_ok h, List.filter_cons_of_pos h, List.flatMap_cons]
      dsimp only
      rw [ih, pluginTransports_eq, List.filterMap_filterMap, List.append_assoc]
      rfl
    | false =>
      obtain ⟨err, herr⟩ := discover_failed h
      rw [herr, List.filter_cons_of_neg (by simp [h])]
      exact ih transports

/-- **The transports built** are those of the directories without an entry
that fails to load, in order. -/
theorem buildPluginTransports_eq (H : PluginHost α) (env : Env) (config : Config) (dirs : List String) :
    buildPluginTransports H env config dirs = ((searchPath H dirs).filter sound).flatMap (usable env config) :=
  (dirTransports_eq dirs []).trans (List.nil_append _)

theorem mem_buildPluginTransports {transport : String × RhaiTransport α} :
    transport ∈ buildPluginTransports H env config dirs ↔
      ∃ results ∈ searchPath H dirs, sound results = true ∧ transport ∈ usable env config results := by
  rw [buildPluginTransports_eq, List.mem_flatMap]
  simp only [List.mem_filter, and_assoc]

/-! ## Isolation -/

/-- Every plugin that loads and whose settings resolve has its transport. -/
def Isolated (H : PluginHost α) (env : Env) (config : Config) (dirs : List String) : Prop :=
  ∀ results ∈ searchPath H dirs, ∀ transport ∈ usable env config results,
    transport ∈ buildPluginTransports H env config dirs

/-- **When a broken plugin takes no other down.** That is when each plugin
that loads and whose settings resolve is in a directory where no entry
fails to load, or has a copy there that makes the same transport. -/
theorem plugins_isolated_iff (H : PluginHost α) (env : Env) (config : Config) (dirs : List String) :
    Isolated H env config dirs ↔
      ∀ results ∈ searchPath H dirs, ∀ transport ∈ usable env config results,
        sound results = true ∨
          ∃ others ∈ searchPath H dirs, sound others = true ∧ transport ∈ usable env config others := by
  unfold Isolated
  simp only [mem_buildPluginTransports]
  refine ⟨fun h results hresults transport htransport => ?_, fun h results hresults transport htransport => ?_⟩
  · exact .inr (h results hresults transport htransport)
  · rcases h results hresults transport htransport with hsound | hcopy
    · exact ⟨results, hresults, hsound, htransport⟩
    · exact hcopy

/-- **A mail for a transport that is missing** is dead with its first delivery. -/
theorem missing_transport_dead {C : Codec} {d : Dispatcher τ} {smtp : Option τ} {built : List (String × τ)}
    {mail : Mail} {name : String} (hd : d.transports = relayTransports smtp built)
    (hbuilt : ∀ e ∈ built, e.1 ≠ name) (hsmtp : smtp = none ∨ name ≠ "smtp") (hmail : mail.transport = some name)
    (result : Option CoreError) (now : DateTime) :
    d.markFor C mail result now = some (.dead (d.noTransportMessage C mail)) := by
  have hlookup : d.transports.lookup name = none := by
    rw [hd, relayTransports, List.foldl_flip_cons_eq_append', List.lookup_eq_none_iff]
    intro e he
    rw [bne_iff_ne]
    rcases List.mem_append.1 he with hplugin | hhead
    · exact (hbuilt e (List.mem_reverse.1 hplugin)).symm
    · cases hs : smtp with
      | none => simp [hs] at hhead
      | some transport =>
        rw [hs] at hhead
        obtain rfl := List.mem_singleton.1 hhead
        exact hsmtp.resolve_left (by simp [hs])
  rw [Dispatcher.markFor, Dispatcher.transportFor, hmail]
  simp [hlookup]

/-! ## Two plugins in one directory -/

def ntfyManifest : Manifest := ⟨"ntfy", "0.1.0", "transport", ["send"], "", "script.rhai"⟩

def draftManifest : Manifest := { ntfyManifest with name := "draft" }

/-- `ntfy`, and `draft` with a script that does not compile. The text of a file stands for itself by its path. -/
def draftHost : PluginHost Unit where
  readDir dir := if dir = "plugins" then some [.ok "plugins/ntfy", .ok "plugins/draft"] else none
  isDir path := path = "plugins/ntfy" ∨ path = "plugins/draft"
  pathExists path := path = "plugins/ntfy/plugin.toml" ∨ path = "plugins/draft/plugin.toml"
  join dir name := dir ++ "/" ++ name
  readToString path := .ok path
  parseManifest raw := .ok (if raw = "plugins/draft/plugin.toml" then draftManifest else ntfyManifest)
  compile script := if script = "plugins/draft/script.rhai" then .error "expecting a closing brace" else .ok ()

def ntfyTransport : String × RhaiTransport Unit := ("ntfy", ⟨ntfyManifest, (), .empty⟩)

/-- **A draft takes `ntfy` down.** No transport is built, and the mails for
`ntfy` are dead with their first delivery. -/
theorem draft_takes_ntfy_down :
    (∃ results ∈ searchPath draftHost ["plugins"], ntfyTransport ∈ usable (fun _ => none) default results) ∧
    buildPluginTransports draftHost (fun _ => none) default ["plugins"] = [] ∧
    ¬ Isolated draftHost (fun _ => none) default ["plugins"] ∧
    ∀ (C : Codec) (d : Dispatcher (RhaiTransport Unit)) (mail : Mail) (result : Option CoreError) (now : DateTime),
      d.transports = relayTransports none (buildPluginTransports draftHost (fun _ => none) default ["plugins"]) →
      mail.transport = some "ntfy" → d.markFor C mail result now = some (.dead (d.noTransportMessage C mail)) := by
  let results : List (LoadResult Unit) :=
    [.loaded ⟨ntfyManifest, (), "plugins/ntfy"⟩, .failed (.compile "expecting a closing brace")]
  have hpath : searchPath draftHost ["plugins"] = [results] := rfl
  have hmem : results ∈ searchPath draftHost ["plugins"] := by
    rw [hpath]
    exact List.mem_singleton.2 rfl
  have husable : ntfyTransport ∈ usable (fun _ => none) default results := List.mem_singleton.2 rfl
  have hnone : buildPluginTransports draftHost (fun _ => none) default ["plugins"] = [] := by
    rw [buildPluginTransports_eq, hpath]
    rfl
  refine ⟨⟨results, hmem, husable⟩, hnone, fun h => ?_, ?_⟩
  · have := h results hmem ntfyTransport husable
    rw [hnone] at this
    cases this
  · intro C d mail result now hd hmail
    refine missing_transport_dead hd (fun e he => ?_) (.inl rfl) hmail result now
    rw [hnone] at he
    cases he

end OxidRelay
