import Criteria.Rule.Engine
import Criteria.Settings.Observability

/-!
# Settings of the service

Each setting has a standard value. A file for all services, a file for the environment, a file for
the service and the environment variables may change it, the later ones counting more.

## Main definitions

* `ServerSettings`, `ServiceSettings`: the settings.
* `SettingsError`: why settings cannot be read.
* `Settings.Section`: a section of a tree, which may be given by name or in order.
* `ServiceSettings.ofTree`: the settings of a tree.
* `ServiceSettings.loadWith`, `ServiceSettings.load`: the settings of all sources together.
-/

namespace Criteria

/-- The settings of the HTTP server. -/
structure ServerSettings where
  host : String := "0.0.0.0"
  port : Nat := 8080
  /-- How long a request may take, in seconds. -/
  requestTimeout : Nat := 30
  /-- The origins that may use the service. -/
  origins : String := "http://localhost:5173"
deriving DecidableEq, Inhabited

/-- The settings of the service. -/
structure ServiceSettings where
  serviceName : String
  /-- Where the service runs: in production, or elsewhere. -/
  environment : String
  server : ServerSettings
  observability : ObservabilitySettings
  engine : Engine
deriving DecidableEq, Inhabited

/-- Why settings cannot be read. -/
inductive SettingsError where
  /-- A file is no document. -/
  | malformed (file : String)
  /-- What stands at a path is not what the setting needs. -/
  | unacceptable (path : List String)
deriving DecidableEq, Inhabited

/-- A section of settings: its name, and its settings in the order in which a row gives them. -/
structure Settings.Section where
  name : String
  settings : List String
deriving DecidableEq, Inhabited

namespace Settings.Tree

/-- What stands in a section under the name of a setting; in place of the section there may be a
row, with an item for each of the first settings. -/
def settingIn? (tree : Tree) (part : Section) (setting : String) : Option Tree :=
  match tree.get? [part.name] with
  | some (.row items) => items[part.settings.idxOf setting]?
  | _ => tree.get? [part.name, setting]

/-- What a setting is, given what stands in its place; its standard value if nothing does. -/
def settingOf {α : Type} (path : List String) (standard : α) (read? : Value → Option α) :
    Option Tree → Except SettingsError α
  | none => .ok standard
  | some (.leaf value) => match read? value with
    | some setting => .ok setting
    | none => .error (.unacceptable path)
  | some _ => .error (.unacceptable path)

/-- A text outside all sections. -/
def text (tree : Tree) (setting : String) (standard : String) : Except SettingsError String :=
  settingOf [setting] standard (fun value => some value.asText) (tree.get? [setting])

/-- A text in a section. -/
def textIn (tree : Tree) (part : Section) (setting : String) (standard : String) :
    Except SettingsError String :=
  settingOf [part.name, setting] standard (fun value => some value.asText)
    (tree.settingIn? part setting)

/-- A truth value in a section. -/
def flagIn (tree : Tree) (part : Section) (setting : String) (standard : Bool) :
    Except SettingsError Bool :=
  settingOf [part.name, setting] standard Value.asFlag? (tree.settingIn? part setting)

/-- A natural number in a section, below a bound. -/
def naturalIn (tree : Tree) (part : Section) (setting : String) (bound standard : Nat) :
    Except SettingsError Nat :=
  settingOf [part.name, setting] standard (Value.asNatural? bound) (tree.settingIn? part setting)

/-- A section stands under its name, or a row in place of it, or nothing at all. -/
def require (tree : Tree) (part : Section) : Except SettingsError Unit :=
  match tree.get? [part.name] with
  | none | some (.branch _) | some (.row _) => .ok ()
  | some _ => .error (.unacceptable [part.name])

end Settings.Tree

namespace ServerSettings

/-- The section of the server. -/
def part : Settings.Section :=
  ⟨"server", ["host", "port", "request_timeout_seconds", "cors_origins"]⟩

/-- The server's settings of a tree. -/
def ofTree (tree : Settings.Tree) : Except SettingsError ServerSettings := do
  let standard : ServerSettings := {}
  tree.require part
  return {
    host := ← tree.textIn part "host" standard.host
    port := ← tree.naturalIn part "port" portBound standard.port
    requestTimeout := ← tree.naturalIn part "request_timeout_seconds" wordBound
      standard.requestTimeout
    origins := ← tree.textIn part "cors_origins" standard.origins }

/-- The address of the server. -/
def address (settings : ServerSettings) : String :=
  settings.host ++ ":" ++ toString settings.port

end ServerSettings

/-- The section for logs and metrics. -/
def ObservabilitySettings.part : Settings.Section :=
  ⟨"observability",
    ["service_name", "metrics_port", "metrics_enabled", "log_level", "json_logs"]⟩

/-- The settings for logs and metrics of a tree. -/
def ObservabilitySettings.ofTree (tree : Settings.Tree) :
    Except SettingsError ObservabilitySettings := do
  let standard := ObservabilitySettings.standard
  tree.require part
  return {
    serviceName := ← tree.textIn part "service_name" standard.serviceName
    metricsPort := ← tree.naturalIn part "metrics_port" portBound standard.metricsPort
    metricsEnabled := ← tree.flagIn part "metrics_enabled" standard.metricsEnabled
    logLevel := ← tree.textIn part "log_level" standard.logLevel
    jsonLogs := ← tree.flagIn part "json_logs" standard.jsonLogs }

/-- The section of the engine. -/
def Engine.part : Settings.Section :=
  ⟨"engine", ["strict_operators", "max_depth", "trace_enabled"]⟩

/-- The engine of a tree of settings. -/
def Engine.ofTree (tree : Settings.Tree) : Except SettingsError Engine := do
  let standard := Engine.standard
  tree.require part
  return {
    dialect := {
      strict := ← tree.flagIn part "strict_operators" standard.dialect.strict
      maxDepth := ← tree.naturalIn part "max_depth" wordBound standard.dialect.maxDepth }
    tracing := ← tree.flagIn part "trace_enabled" standard.tracing }

namespace ServiceSettings

/-- The settings of a tree; names that are not known count for nothing. -/
def ofTree (tree : Settings.Tree) (serviceName environment : String) :
    Except SettingsError ServiceSettings := do
  return {
    serviceName := ← tree.text "service_name" serviceName
    environment := ← tree.text "environment" environment
    server := ← ServerSettings.ofTree tree
    observability := ← ObservabilitySettings.ofTree tree
    engine := ← Engine.ofTree tree }

/-- The names of the documents that count, in order: that for all services, that for the
environment and that for the service. -/
def fileNames (serviceName environment : String) : List String :=
  ["default", environment, serviceName].map (· ++ documentEnding)

section

-- How the text of a document is read.
variable (read? : String → Option (List Settings.Assignment))

/-- The assignments of the document of a name; one that is missing has none. -/
def fileSource (folder : Folder) (name : String) :
    Except SettingsError (List Settings.Assignment) :=
  match folder.document? name with
  | none => .ok []
  | some text => match read? text with
    | some source => .ok source
    | none => .error (.malformed name)

variable {read?}

theorem fileSource_of_document? {folder : Folder} {name text : String}
    {source : List Settings.Assignment} (hdocument : folder.document? name = some text)
    (hread : read? text = some source) : fileSource read? folder name = .ok source := by
  rw [fileSource, hdocument]
  simp only [hread]

theorem fileSource_of_missing {folder : Folder} {name : String}
    (h : folder.document? name = none) : fileSource read? folder name = .ok [] := by
  rw [fileSource, h]

variable (read?)

/-- The settings of a service in an environment: those of the files and of the variables, the later
ones counting more. -/
def loadWith (folder : Folder) (vars : Environment) (serviceName environment : String) :
    Except SettingsError ServiceSettings := do
  let files ← (fileNames serviceName environment).mapM (fileSource read? folder)
  let tree := (files ++ [Settings.ofEnvironment vars]).foldl Settings.Tree.overlay .empty
  ofTree tree serviceName environment

end

/-- The settings of a service in an environment, with documents in TOML. -/
def load : Folder → Environment → String → String → Except SettingsError ServiceSettings :=
  loadWith Settings.ofFile?

/-- The environment that the variables name. -/
def environmentOf (vars : Environment) : String :=
  (vars.get? "ELIGIBILITY_ENV").getD "development"

/-- The service runs in production. -/
def isProduction (settings : ServiceSettings) : Bool := settings.environment == "production"

end ServiceSettings

end Criteria
