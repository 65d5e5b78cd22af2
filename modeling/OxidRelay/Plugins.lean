/-
Plugins (`oxid-relay-plugin`): loading one, scanning a directory, and the
transports that the start of the relay builds from them.

The file system, the readers of TOML and scripts are parameters
(`PluginHost`); `α` is what a script compiles to. Two transports of one
name may be built; the relay keeps the later one.
-/
import OxidRelay.Config

namespace OxidRelay

/-! ## Plugins -/

inductive PluginError
  /-- A file could not be read. -/
  | io (path source : String)
  /-- The manifest could not be parsed. -/
  | manifest (message : String)
  /-- The script failed to compile. -/
  | compile (message : String)

/-- `plugin.toml`. -/
structure Manifest where
  /-- Also the name of the transport. -/
  name : String
  version : String
  kind : String
  capabilities : List String
  description : String
  /-- Script file name relative to the plugin directory. -/
  entry : String

/-- A loaded plugin. -/
structure Plugin (α : Type) where
  manifest : Manifest
  ast : α
  dir : String

structure PluginHost (α : Type) where
  /-- `read_dir`: the path of each entry unless reading it fails, none when the directory cannot be read. -/
  readDir : String → Option (List (Except String String))
  isDir : String → Bool
  pathExists : String → Bool
  /-- `Path::join`. -/
  join : String → String → String
  readToString : String → Except String String
  /-- `toml::from_str`, with the defaults of the manifest. -/
  parseManifest : String → Except String Manifest
  /-- `Engine::compile`. -/
  compile : String → Except String α

variable {α τ : Type}

/-- Loads the plugin in a directory. -/
def loadPlugin (H : PluginHost α) (dir : String) : Except PluginError (Plugin α) := do
  let manifestPath := H.join dir "plugin.toml"
  let raw ← (H.readToString manifestPath).mapError (PluginError.io manifestPath)
  let manifest ← (H.parseManifest raw).mapError PluginError.manifest
  let scriptPath := H.join dir manifest.entry
  let script ← (H.readToString scriptPath).mapError (PluginError.io scriptPath)
  let ast ← (H.compile script).mapError PluginError.compile
  return { manifest := manifest, ast := ast, dir := dir }

/-- A plugin is a directory with a manifest. -/
def isPluginDir (H : PluginHost α) (path : String) : Bool := H.isDir path && H.pathExists (H.join path "plugin.toml")

/-- The loop of `discover`. -/
def discoverEntries (H : PluginHost α) (dir : String) :
    List (Except String String) → List (Plugin α) → Except PluginError (List (Plugin α))
  | [], plugins => .ok plugins
  | entry :: entries, plugins => do
    let pluginDir ← entry.mapError (PluginError.io dir)
    if !isPluginDir H pluginDir then discoverEntries H dir entries plugins
    else
      let plugin ← loadPlugin H pluginDir
      discoverEntries H dir entries (plugins ++ [plugin])

/-- The plugins in a directory; a missing directory has none. -/
def discover (H : PluginHost α) (dir : String) : Except PluginError (List (Plugin α)) :=
  match H.readDir dir with
  | none => .ok []
  | some entries => discoverEntries H dir entries []

/-! ## Transports -/

/-- The `config` map of a script. -/
def stringConfigMap (pairs : List (String × String)) : SortedMap String String :=
  pairs.foldl (fun map pair => map.insert pair.1 pair.2) .empty

/-- A transport whose behaviour comes from a script; the engine is the same for all. -/
structure RhaiTransport (α : Type) where
  manifest : Manifest
  ast : α
  config : SortedMap String String

def RhaiTransport.new (plugin : Plugin α) (config : SortedMap String String) : RhaiTransport α where
  manifest := plugin.manifest
  ast := plugin.ast
  config := config

/-- `ReqwestClient::new`, which holds nothing and does not fail. -/
def reqwestClientNew : Except String Unit := .ok ()

/-- The plugins of one directory; one whose settings do not resolve is skipped. -/
def pluginTransports (env : Env) (config : Config) :
    List (Plugin α) → List (String × RhaiTransport α) → List (String × RhaiTransport α)
  | [], transports => transports
  | plugin :: plugins, transports =>
    let name := plugin.manifest.name
    match config.pluginSettings env name with
    | .error _ => pluginTransports env config plugins transports
    | .ok settings =>
      let transport := RhaiTransport.new plugin (stringConfigMap settings.entries)
      pluginTransports env config plugins (transports ++ [(name, transport)])

/-- The directories in their order; one whose scan fails is skipped. -/
def dirTransports (H : PluginHost α) (env : Env) (config : Config) :
    List String → List (String × RhaiTransport α) → List (String × RhaiTransport α)
  | [], transports => transports
  | dir :: dirs, transports =>
    match discover H dir with
    | .error _ => dirTransports H env config dirs transports
    | .ok plugins => dirTransports H env config dirs (pluginTransports env config plugins transports)

/-- The transports of the plugins in the directories `dirs`, by name. -/
def buildPluginTransports (H : PluginHost α) (env : Env) (config : Config) (dirs : List String) :
    List (String × RhaiTransport α) :=
  match reqwestClientNew with
  | .error _ => []
  | .ok () => dirTransports H env config dirs []

/-- The transports of `run_relay`: SMTP's and those of the plugins, a later one first. -/
def relayTransports (smtp : Option τ) (plugins : List (String × τ)) : List (String × τ) :=
  plugins.foldl (fun transports plugin => plugin :: transports) (smtp.map fun transport => ("smtp", transport)).toList

end OxidRelay
