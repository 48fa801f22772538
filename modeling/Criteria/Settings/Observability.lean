import Criteria.Json.Reader
import Criteria.Settings.Source

/-!
# Settings for logs and metrics

## Main definitions

* `ObservabilitySettings`: what is logged, and where metrics are found.
* `ObservabilitySettings.ofEnvironment`: the settings of environment variables alone.
* `ObservabilitySettings.reader`: settings from JSON.
* `ObservabilitySettings.named`: settings with a name for the service, if they have none.
-/

namespace Criteria

/-- The settings for logs and metrics. -/
structure ObservabilitySettings where
  /-- The name under which the service logs. -/
  serviceName : String := "unknown-service"
  /-- The port at which metrics are found. -/
  metricsPort : Nat := 9090
  metricsEnabled : Bool := true
  /-- Which events are logged, if the environment does not say so. -/
  logLevel : String := "info"
  /-- Events are logged as JSON. -/
  jsonLogs : Bool := false
deriving DecidableEq, Inhabited

/-- Ports are below this bound. -/
def portBound : Nat := 65536

namespace ObservabilitySettings

/-- What holds if nothing is set. -/
def standard : ObservabilitySettings := {}

/-- The truth value of a variable, if there is one: just two texts are true. -/
def flagIn? (environment : Environment) (name : String) : Option Bool :=
  (environment.get? name).map fun text => text == "true" || text == "1"

/-- The settings of environment variables alone; a port that cannot be read counts as missing. -/
def ofEnvironment (environment : Environment) (serviceName : String) : ObservabilitySettings where
  serviceName := serviceName
  metricsPort := ((environment.get? "METRICS_PORT").bind fun text =>
    Text.natural? portBound text.toList).getD standard.metricsPort
  metricsEnabled := (flagIn? environment "METRICS_ENABLED").getD standard.metricsEnabled
  logLevel := (environment.get? "RUST_LOG").getD standard.logLevel
  jsonLogs := (flagIn? environment "JSON_LOGS").getD standard.jsonLogs

/-- The settings with a name for the service in place of the standard one. -/
def named (settings : ObservabilitySettings) (serviceName : String) : ObservabilitySettings :=
  if settings.serviceName = standard.serviceName then { settings with serviceName := serviceName }
  else settings

/-- Settings that are being read. -/
structure Draft where
  serviceName : Option String := none
  metricsPort : Option Nat := none
  metricsEnabled : Option Bool := none
  logLevel : Option String := none
  jsonLogs : Option Bool := none

/-- The settings of a draft; what is not given has its standard value. -/
def Draft.finish (draft : Draft) : ObservabilitySettings where
  serviceName := draft.serviceName.getD standard.serviceName
  metricsPort := draft.metricsPort.getD standard.metricsPort
  metricsEnabled := draft.metricsEnabled.getD standard.metricsEnabled
  logLevel := draft.logLevel.getD standard.logLevel
  jsonLogs := draft.jsonLogs.getD standard.jsonLogs

/-- Reads settings; each may be missing. -/
def reader : Json.Reader ObservabilitySettings := .record {
  fields := [
    .of "service_name" Draft.serviceName (fun s d => { d with serviceName := some s }) .text,
    .of "metrics_port" Draft.metricsPort (fun n d => { d with metricsPort := some n })
      (.natural portBound),
    .of "metrics_enabled" Draft.metricsEnabled (fun b d => { d with metricsEnabled := some b })
      .flag,
    .of "log_level" Draft.logLevel (fun s d => { d with logLevel := some s }) .text,
    .of "json_logs" Draft.jsonLogs (fun b d => { d with jsonLogs := some b }) .flag]
  blank := {}
  finish := fun d => some d.finish }

end ObservabilitySettings

end Criteria
