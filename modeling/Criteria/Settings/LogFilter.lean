import Criteria.Settings.LogDirective
import Criteria.Settings.Observability

/-!
# Log filters

A filter says which events are logged, by directives. The environment names the filter, else the
settings do.

## Main definitions

* `LogFilter`: the directives of a filter.
* `LogFilter.ofText?`, `LogFilter.render`: filters and their texts.
* `ObservabilitySettings.logFilter`: the filter that counts.
-/

namespace Criteria

/-- The directives of a filter, in the order in which they are asked; without any, nothing is
logged. A directive may be of both kinds. -/
structure LogFilter where
  /-- Those that can be asked without knowing spans or the values of fields. -/
  outer : List LogDirective
  /-- Those that depend on spans or fields. -/
  inner : List LogDirective
deriving DecidableEq, Inhabited

namespace LogFilter

/-- Puts a directive in its place, for one for the same events. -/
def insert (directive : LogDirective) : List LogDirective → List LogDirective
  | [] => [directive]
  | other :: rest => match directive.order other with
    | .lt => directive :: other :: rest
    | .eq => directive :: rest
    | .gt => other :: insert directive rest

/-- Directives in their order. -/
def arrange (directives : List LogDirective) : List LogDirective :=
  directives.foldl (fun placed directive => insert directive placed) []

/-- The filter of directives; of several for the same events the last counts. -/
def ofDirectives (directives : List LogDirective) : LogFilter :=
  let (inner, others) := directives.partition LogDirective.isInner
  ⟨arrange (others ++ inner.filter LogDirective.isOuter), arrange inner⟩

/-- The filter that a text stands for: directives with commas between them; nothing may stand
between two commas. -/
def ofText? (s : String) : Option LogFilter :=
  (((Text.cutAt ',' s.toList).filter (!·.isEmpty)).mapM LogDirective.ofText?).map ofDirectives

/-- The text of a filter. -/
def render (filter : LogFilter) : String :=
  String.intercalate "," ((filter.outer ++ filter.inner).map LogDirective.render)

end LogFilter

/-- The filter that counts: that of the environment, else that of the settings, else the standard
one; a text that is no filter counts as missing. -/
def ObservabilitySettings.logFilter (settings : ObservabilitySettings)
    (environment : Environment) : LogFilter :=
  (((environment.get? "RUST_LOG").bind LogFilter.ofText?).orElse fun _ =>
    LogFilter.ofText? settings.logLevel).getD (.ofDirectives [⟨none, none, none, .info⟩])

end Criteria
