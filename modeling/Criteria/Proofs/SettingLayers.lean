import Criteria.Proofs.FirstFailure
import Criteria.Settings.Service
import Mathlib

/-!
# Settings in layers

The files and the variables are layers of settings, one on the other. This file shows that each
setting is read off the last layer that says something of it, whatever the layers say of other
settings, those of its own section included.

## Main definitions

* `Settings.Setting`: a setting; `Settings.Setting.all` are the settings of the service.
* `Settings.Layer`, `Settings.assigned?`, `Settings.told?`: what the sources say of settings.
* `Settings.Setting.Follows`: what a setting is, given layers one on the other.
* `Settings.Assignment.IsInPlace`, `Settings.IsVariableInPlace`: assignments and variables for
  single settings, or for something that is not known.

## Main results

* `Settings.get?_overlay`: what a source leaves behind in a tree.
* `ServiceSettings.ofTree_eq_ok_iff`: the settings of a tree are read one by one.
* `ServiceSettings.settings_follow_layers`: the settings of files and variables.
-/

namespace Criteria

namespace Settings

variable {σ τ : Type}

/-! ### Settings -/

/-- A setting of a record: the names that lead to it, how a value is read for it, what it is if
nothing is said of it, and where the record has it. -/
structure Setting (σ : Type) where
  {α : Type}
  names : List String
  read? : Value → Option α
  standard : α
  of : σ → α

namespace Setting

/-- A text. -/
def text (names : List String) (standard : String) (of : σ → String) : Setting σ :=
  ⟨names, fun value => some value.asText, standard, of⟩

/-- A truth value. -/
def flag (names : List String) (standard : Bool) (of : σ → Bool) : Setting σ :=
  ⟨names, Value.asFlag?, standard, of⟩

/-- A natural number below a bound. -/
def natural (names : List String) (bound standard : Nat) (of : σ → Nat) : Setting σ :=
  ⟨names, Value.asNatural? bound, standard, of⟩

/-- A setting of a part is a setting of the whole. -/
def within (part : σ → τ) (setting : Setting τ) : Setting σ :=
  ⟨setting.names, setting.read?, setting.standard, setting.of ∘ part⟩

/-- The settings of the server. A port has 16 bits, and a timeout in seconds 64. -/
def server : List (Setting ServerSettings) := [
  text ["server", "host"] "0.0.0.0" (·.host),
  natural ["server", "port"] 65536 8080 (·.port),
  natural ["server", "request_timeout_seconds"] 18446744073709551616 30 (·.requestTimeout),
  text ["server", "cors_origins"] "http://localhost:5173" (·.origins)]

/-- The settings for logs and metrics. -/
def observability : List (Setting ObservabilitySettings) := [
  text ["observability", "service_name"] "unknown-service" (·.serviceName),
  natural ["observability", "metrics_port"] 65536 9090 (·.metricsPort),
  flag ["observability", "metrics_enabled"] true (·.metricsEnabled),
  text ["observability", "log_level"] "info" (·.logLevel),
  flag ["observability", "json_logs"] false (·.jsonLogs)]

/-- The settings of the engine. A depth has 64 bits. -/
def engine : List (Setting Engine) := [
  flag ["engine", "strict_operators"] false (·.dialect.strict),
  natural ["engine", "max_depth"] 18446744073709551616 256 (·.dialect.maxDepth),
  flag ["engine", "trace_enabled"] false (·.tracing)]

/-- The settings of a service that is started under a name in an environment. -/
def all (serviceName environment : String) : List (Setting ServiceSettings) :=
  [text ["service_name"] serviceName (·.serviceName),
    text ["environment"] environment (·.environment)] ++
  server.map (within (·.server)) ++ observability.map (within (·.observability)) ++
  engine.map (within (·.engine))

/-- The names that lead to the settings; the standard values do not matter for them. -/
def paths : List (List String) := (all "" "").map (·.names)

/-- The names of the sections. -/
def parts : List String := ["server", "observability", "engine"]

/-- What a setting is, given the value that is found for it, if there is one. -/
def Takes (setting : Setting σ) (found : Option Value) (a : setting.α) : Prop :=
  found.elim (some setting.standard) setting.read? = some a

end Setting

/-! ### Layers -/

/-- What is said of settings, each under the names that lead to it. -/
abbrev Layer : Type := List String → Option Value

/-- What a setting is, given layers one on the other: what the last one that says something of it
says, or else its standard value. -/
inductive Setting.Follows (setting : Setting σ) (layers : List Layer) : setting.α → Prop
  | standard (h : ∀ layer ∈ layers, layer setting.names = none) :
      Follows setting layers setting.standard
  | layer {before after : List Layer} {layer : Layer} {value : Value} {a : setting.α}
      (hlayers : layers = before ++ layer :: after) (hvalue : layer setting.names = some value)
      (hafter : ∀ later ∈ after, later setting.names = none)
      (hread : setting.read? value = some a) : Follows setting layers a

/-- The value that an assignment gives to a setting. -/
def Assignment.valueAt? (names : List String) : Assignment → Option Value
  | .value path given => if path = .ofNames names then some given else none
  | .branch _ => none
  | .row _ => none

/-- The layer of a source: the last value that it assigns to a setting. -/
def assigned? (source : List Assignment) : Layer := fun names =>
  source.reverse.findSome? (·.valueAt? names)

/-- A variable has the name for a setting: in letters of any size, with two underscores between the
names that lead to the setting. -/
def IsVariableOf (name : String) (names : List String) : Prop :=
  Value.lowered name = Value.lowered ("ELIGIBILITY_" ++ "__".intercalate names)

instance (name : String) (names : List String) : Decidable (IsVariableOf name names) :=
  inferInstanceAs (Decidable (_ = _))

/-- The layer of variables: the value of the last one for a setting. -/
def told? (vars : Environment) : Layer := fun names =>
  (vars.reverse.find? fun (name, _) => IsVariableOf name names).map fun (_, text) =>
    .ofVariable text

/-! ### What counts -/

/-- A path leads to no setting, into none, and to no section. -/
def Path.IsUnknown (path : Path) : Prop := ∀ names ∈ Setting.paths, path.isBeside names = true

instance (path : Path) : Decidable path.IsUnknown := inferInstanceAs (Decidable (∀ _ ∈ _, _))

/-- Values are assigned to settings and sections to sections; what is assigned to unknown paths does
not matter. No setting is a row. -/
def Assignment.IsInPlace : Assignment → Prop
  | .value path _ => (∃ names ∈ Setting.paths, path = .ofNames names) ∨ path.IsUnknown
  | .branch path => (∃ part ∈ Setting.parts, path = .ofNames [part]) ∨ path.IsUnknown
  | .row path => path.IsUnknown

instance : (assignment : Assignment) → Decidable assignment.IsInPlace
  | .value _ _ => inferInstanceAs (Decidable (_ ∨ _))
  | .branch _ => inferInstanceAs (Decidable (_ ∨ _))
  | .row _ => inferInstanceAs (Decidable (Path.IsUnknown _))

/-- A variable leads nowhere, or it is for a single setting, or it leads to an unknown path. -/
def IsVariableInPlace (name : String) : Prop :=
  ∀ path ∈ pathOfVariable? name,
    (∃ names ∈ Setting.paths, IsVariableOf name names) ∨ path.IsUnknown

instance (name : String) : Decidable (IsVariableInPlace name) :=
  inferInstanceAs (Decidable (∀ _ ∈ _, _))

theorem Setting.isBeside_of_ne : ∀ other ∈ paths, ∀ names ∈ paths, other ≠ names →
    (Path.ofNames other).isBeside names = true := by
  decide

/-- A setting lies beside a section or in it. -/
theorem Setting.isBeside_part : ∀ part ∈ parts, ∀ names ∈ paths,
    (Path.ofNames [part]).isBeside names = true ∨
      ∃ name ∈ names.getLast?, names = [part] ++ [name] := by
  decide

theorem Path.ofNames_injective : Function.Injective Path.ofNames :=
  List.map_injective_iff.2 fun _ _ => Step.name.inj

@[simp] theorem Path.isBeside_ofNames (names : List String) :
    (Path.ofNames names).isBeside names = false := by
  induction names with
  | nil => rfl
  | cons name names ih => simpa [ofNames, isBeside] using ih

/-! ### Sources -/

section

variable {tree : Tree} {assignment : Assignment} {source : List Assignment} {names : List String}

/-- An assignment gives a setting its value, or leaves it as it was. -/
theorem get?_assign (h : assignment.IsInPlace) (hnames : names ∈ Setting.paths) (tree : Tree) :
    (tree.assign assignment).get? names =
      ((assignment.valueAt? names).map .leaf).or (tree.get? names) := by
  cases assignment with
  | value path value =>
    by_cases hpath : path = .ofNames names
    · subst hpath
      rw [Tree.assign, Tree.get?_update_self, Assignment.valueAt?, if_pos rfl]
      rfl
    · rw [Assignment.valueAt?, if_neg hpath]
      refine Tree.get?_update_of_isBeside _ ?_ tree
      obtain ⟨other, hother, rfl⟩ | hunknown := h
      · exact Setting.isBeside_of_ne other hother names hnames fun h => hpath (h ▸ rfl)
      · exact hunknown names hnames
  | branch path =>
    change (tree.update Tree.opened path).get? names = tree.get? names
    obtain ⟨part, hpart, rfl⟩ | hunknown := h
    · obtain hbeside | ⟨name, -, rfl⟩ := Setting.isBeside_part part hpart names hnames
      · exact Tree.get?_update_of_isBeside _ hbeside tree
      · exact Tree.get?_update_opened [part] name [] tree
    · exact Tree.get?_update_of_isBeside _ (hunknown names hnames) tree
  | row path => exact Tree.get?_update_of_isBeside _ (h names hnames) tree

theorem assigned?_append (source others : List Assignment) (names : List String) :
    assigned? (source ++ others) names = (assigned? others names).or (assigned? source names) := by
  rw [assigned?, List.reverse_append, List.findSome?_append]
  rfl

/-- A source gives a setting the last value that it assigns to it, or leaves it as it was. -/
theorem get?_overlay (h : ∀ assignment ∈ source, assignment.IsInPlace)
    (hnames : names ∈ Setting.paths) (tree : Tree) :
    (tree.overlay source).get? names =
      ((assigned? source names).map .leaf).or (tree.get? names) := by
  induction source generalizing tree with
  | nil => rfl
  | cons assignment source ih =>
    obtain ⟨hfirst, hrest⟩ := List.forall_mem_cons.1 h
    have happend := assigned?_append [assignment] source names
    rw [Tree.overlay, List.foldl_cons]
    refine (ih hrest _).trans ?_
    rw [get?_assign hfirst hnames, ← List.singleton_append, happend]
    -- the rest of the source counts more than its first assignment
    cases assigned? source names with
    | some value => rfl
    | none => simp [assigned?]

theorem get?_empty (hnames : names ∈ Setting.paths) : Tree.empty.get? names = none := by
  cases names with
  | nil => exact absurd hnames (by decide)
  | cons => rfl

/-- A section is missing, or it is given by name. -/
def Tree.IsOpen (tree : Tree) (part : String) : Prop :=
  tree.get? [part] = none ∨ ∃ members, tree.get? [part] = some (.branch members)

/-- A path does not end at a section. -/
def Path.passes (part : String) : Path → Bool
  | .name _ :: .name _ :: _ => true
  | .name name :: _ => name != part
  | _ => false

theorem Setting.passes_part : ∀ part ∈ parts, ∀ names ∈ paths,
    (Path.ofNames names).passes part = true := by
  decide

theorem Setting.exists_mem_part : ∀ part ∈ parts,
    ∃ names ∈ paths, ∃ name ∈ names.getLast?, names = [part, name] := by
  decide

theorem Path.IsUnknown.passes {path : Path} (h : path.IsUnknown) {part : String}
    (hpart : part ∈ Setting.parts) : path.passes part = true := by
  obtain ⟨names, hnames, name, -, rfl⟩ := Setting.exists_mem_part part hpart
  have hbeside := h _ hnames
  match path, hbeside with
  | .name _ :: .name _ :: _, _ => rfl
  | [.name first], hbeside => simpa [isBeside, Path.passes] using hbeside
  | .name first :: .item _ :: _, hbeside => simpa [isBeside, Path.passes] using hbeside

/-- A change at a path that does not end at a section leaves the section open. -/
theorem isOpen_update (change : Tree → Tree) {path : Path} {part : String}
    (hpath : path.passes part = true) (h : tree.IsOpen part) :
    (tree.update change path).IsOpen part := by
  by_cases hbeside : path.isBeside [part] = true
  · rw [Tree.IsOpen, Tree.get?_update_of_isBeside _ hbeside]
    exact h
  · match path, hpath, hbeside with
    -- the path leads into the section, which is made if it is missing
    | .name first :: .name next :: path, _, hbeside =>
      obtain rfl : first = part := by simpa [Path.isBeside] using hbeside
      rw [Tree.IsOpen, Tree.get?_update_cons]
      exact .inr ⟨_, rfl⟩
    | [.name first], hpath, hbeside =>
      exact absurd (by simpa [Path.isBeside, Path.passes] using hpath) hbeside
    | .name first :: .item _ :: _, hpath, hbeside =>
      exact absurd (by simpa [Path.isBeside, Path.passes] using hpath) hbeside

/-- An assignment leaves the sections open. -/
theorem isOpen_assign (hassignment : assignment.IsInPlace) {part : String}
    (hpart : part ∈ Setting.parts) (h : tree.IsOpen part) :
    (tree.assign assignment).IsOpen part := by
  cases assignment with
  | value path value =>
    refine isOpen_update _ ?_ h
    obtain ⟨names, hnames, rfl⟩ | hunknown := hassignment
    · exact Setting.passes_part part hpart names hnames
    · exact hunknown.passes hpart
  | branch path =>
    obtain ⟨other, -, rfl⟩ | hunknown := hassignment
    · by_cases hother : other = part
      · subst hother
        change (tree.update Tree.opened (Path.ofNames [other])).IsOpen other
        rw [Tree.IsOpen, Tree.get?_update_self]
        cases (tree.get? [other]).getD .nothing <;> exact .inr ⟨_, rfl⟩
      · refine isOpen_update _ ?_ h
        simpa [Path.ofNames, Path.passes] using hother
    · exact isOpen_update _ (hunknown.passes hpart) h
  | row path => exact isOpen_update _ (Path.IsUnknown.passes hassignment hpart) h

theorem isOpen_overlay (hsource : ∀ assignment ∈ source, assignment.IsInPlace) {part : String}
    (hpart : part ∈ Setting.parts) (h : tree.IsOpen part) : (tree.overlay source).IsOpen part := by
  induction source generalizing tree with
  | nil => exact h
  | cons assignment source ih =>
    obtain ⟨hfirst, hrest⟩ := List.forall_mem_cons.1 hsource
    exact ih hrest (isOpen_assign hfirst hpart h)

end

/-! ### Layers one on the other -/

/-- A setting can be read off what a layer says of it, if it says something. -/
def Setting.Accepts (setting : Setting σ) (layer : Layer) : Prop :=
  ∀ value ∈ layer setting.names, (setting.read? value).isSome

instance (setting : Setting σ) (layer : Layer) : Decidable (setting.Accepts layer) :=
  inferInstanceAs (Decidable (∀ _ ∈ _, _))

/-- Layers one on the other are a layer: what the last one that says something says. -/
def last? (layers : List Layer) : Layer := fun names => layers.reverse.findSome? (· names)

theorem last?_cons (layer : Layer) (layers : List Layer) (names : List String) :
    last? (layer :: layers) names = (last? layers names).or (layer names) := by
  rw [last?, List.reverse_cons, List.findSome?_append, List.findSome?_singleton]
  rfl

theorem last?_eq_none_iff {layers : List Layer} {names : List String} :
    last? layers names = none ↔ ∀ layer ∈ layers, layer names = none := by
  simp [last?]

/-- Something is said by the last layer that says something. -/
theorem last?_eq_some_iff {layers : List Layer} {names : List String} {value : Value} :
    last? layers names = some value ↔ ∃ before layer after,
      layers = before ++ layer :: after ∧ layer names = some value ∧
        ∀ later ∈ after, later names = none := by
  rw [last?, List.findSome?_eq_some_iff]
  constructor
  · rintro ⟨after, layer, before, hlayers, hvalue, hafter⟩
    refine ⟨before.reverse, layer, after.reverse, ?_, hvalue, fun later hlater => ?_⟩
    · rw [← List.reverse_inj, hlayers]
      simp
    · exact hafter later (List.mem_reverse.1 hlater)
  · rintro ⟨before, layer, after, rfl, hvalue, hafter⟩
    refine ⟨after.reverse, layer, before.reverse, by simp, hvalue, fun later hlater => ?_⟩
    exact hafter later (List.mem_reverse.1 hlater)

/-- What a setting is follows from what is found in the layers together. -/
theorem Setting.follows_iff {setting : Setting σ} {layers : List Layer} {a : setting.α} :
    setting.Follows layers a ↔ setting.Takes (last? layers setting.names) a := by
  constructor
  · rintro (hnone | ⟨hlayers, hvalue, hafter, hread⟩)
    · rw [last?_eq_none_iff.2 hnone]
      rfl
    · rw [last?_eq_some_iff.2 ⟨_, _, _, hlayers, hvalue, hafter⟩]
      exact hread
  · intro h
    cases hlast : last? layers setting.names with
    | none =>
      rw [hlast] at h
      obtain rfl := Option.some.inj h
      exact .standard (last?_eq_none_iff.1 hlast)
    | some value =>
      rw [hlast] at h
      obtain ⟨before, layer, after, hlayers, hvalue, hafter⟩ := last?_eq_some_iff.1 hlast
      exact .layer hlayers hvalue hafter h

/-- A setting that can be read off every layer is something. -/
theorem Setting.exists_takes {setting : Setting σ} {layers : List Layer}
    (h : ∀ layer ∈ layers, setting.Accepts layer) :
    ∃ a, setting.Takes (last? layers setting.names) a := by
  cases hlast : last? layers setting.names with
  | none => exact ⟨setting.standard, rfl⟩
  | some value =>
    obtain ⟨before, layer, after, rfl, hvalue, -⟩ := last?_eq_some_iff.1 hlast
    exact Option.isSome_iff_exists.1 (h layer (by simp) value hvalue)

/-- What a setting is, is read off the last layer if this says something. -/
theorem Setting.Takes.accepts {setting : Setting σ} {layers : List Layer} {layer : Layer}
    {a : setting.α} (h : setting.Takes (last? layers setting.names) a)
    (hlast : layers.getLast? = some layer) : setting.Accepts layer := by
  intro value hvalue
  obtain ⟨before, rfl⟩ := List.getLast?_eq_some_iff.1 hlast
  rw [last?_eq_some_iff.2 ⟨before, layer, [], rfl, hvalue, nofun⟩] at h
  exact Option.isSome_iff_exists.2 ⟨a, h⟩

theorem assigned?_flatten (sources : List (List Assignment)) (names : List String) :
    assigned? sources.flatten names = last? (sources.map assigned?) names := by
  induction sources with
  | nil => rfl
  | cons source sources ih =>
    rw [List.flatten_cons, assigned?_append, ih, List.map_cons, last?_cons]

/-- A tree holds what is found for the settings, in sections that are given by name. -/
structure Tree.Holds (tree : Tree) (found : Layer) : Prop where
  isOpen : ∀ part ∈ Setting.parts, tree.IsOpen part
  get?_eq : ∀ names ∈ Setting.paths, tree.get? names = (found names).map .leaf

/-- Sources leave behind in a tree what the last one says of each setting. -/
theorem holds_overlay {sources : List (List Assignment)}
    (h : ∀ source ∈ sources, ∀ assignment ∈ source, assignment.IsInPlace) :
    (sources.foldl Tree.overlay .empty).Holds (last? (sources.map assigned?)) := by
  have hflatten : ∀ assignment ∈ sources.flatten, assignment.IsInPlace := fun assignment hmem => by
    obtain ⟨source, hsource, hassignment⟩ := List.mem_flatten.1 hmem
    exact h source hsource assignment hassignment
  have hfold : sources.foldl Tree.overlay .empty = Tree.empty.overlay sources.flatten :=
    List.foldl_flatten.symm
  rw [hfold]
  exact {
    isOpen := fun part hpart => isOpen_overlay hflatten hpart (.inl rfl)
    get?_eq := fun names hnames => by
      rw [get?_overlay hflatten hnames, assigned?_flatten, get?_empty hnames,
        Option.or_none] }

/-! ### Variables -/

theorem pathOfVariable?_congr {name other : String}
    (h : Value.lowered name = Value.lowered other) :
    pathOfVariable? name = pathOfVariable? other := by
  rw [pathOfVariable?, h]
  rfl

theorem Setting.pathOfVariable?_names : ∀ names ∈ paths,
    pathOfVariable? ("ELIGIBILITY_" ++ "__".intercalate names) = some (.ofNames names) := by
  decide +kernel

/-- A variable for a setting leads to it. -/
theorem IsVariableOf.pathOfVariable?_eq {name : String} {names : List String}
    (h : IsVariableOf name names) (hnames : names ∈ Setting.paths) :
    pathOfVariable? name = some (.ofNames names) :=
  (pathOfVariable?_congr h).trans (Setting.pathOfVariable?_names names hnames)

theorem isInPlace_ofEnvironment {vars : Environment} (h : ∀ var ∈ vars, IsVariableInPlace var.1) :
    ∀ assignment ∈ ofEnvironment vars, assignment.IsInPlace := by
  intro assignment hassignment
  obtain ⟨⟨name, text⟩, hvar, heq⟩ := List.mem_filterMap.1 hassignment
  obtain ⟨path, hpath, rfl⟩ := Option.map_eq_some_iff.1 heq
  obtain ⟨names, hnames, hname⟩ | hunknown := h _ hvar path hpath
  · exact .inl ⟨names, hnames, Option.some.inj (hpath.symm.trans (hname.pathOfVariable?_eq hnames))⟩
  · exact .inr hunknown

/-- A variable for something else gives a setting no value. -/
theorem valueAt?_of_not_isVariableOf {name : String} (h : IsVariableInPlace name) {path : Path}
    (hpath : pathOfVariable? name = some path) {names : List String}
    (hnames : names ∈ Setting.paths) (hname : ¬ IsVariableOf name names) (value : Value) :
    (Assignment.value path value).valueAt? names = none := by
  refine if_neg ?_
  rintro rfl
  obtain ⟨other, hother, hvar⟩ | hunknown := h _ hpath
  · obtain rfl : names = other := Path.ofNames_injective
      (Option.some.inj (hpath.symm.trans (hvar.pathOfVariable?_eq hother)))
    exact hname hvar
  · exact absurd (hunknown names hnames) (by simp)

/-- A variable gives a value to its setting only. -/
theorem assigned?_ofEnvironment_singleton {name text : String} (h : IsVariableInPlace name)
    {names : List String} (hnames : names ∈ Setting.paths) :
    assigned? (ofEnvironment [(name, text)]) names = told? [(name, text)] names := by
  by_cases hname : IsVariableOf name names
  · simp [assigned?, ofEnvironment, told?, hname, hname.pathOfVariable?_eq hnames,
      Assignment.valueAt?]
  · cases hpath : pathOfVariable? name with
    | none => simp [assigned?, ofEnvironment, told?, hname, hpath]
    | some path =>
      simp [assigned?, ofEnvironment, told?, hname, hpath,
        valueAt?_of_not_isVariableOf h hpath hnames hname]

theorem ofEnvironment_append (vars others : Environment) :
    ofEnvironment (vars ++ others) = ofEnvironment vars ++ ofEnvironment others :=
  List.filterMap_append ..

theorem told?_append (vars others : Environment) (names : List String) :
    told? (vars ++ others) names = (told? others names).or (told? vars names) := by
  rw [told?, List.reverse_append, List.find?_append, Option.map_or]
  rfl

/-- Variables give a setting the value of the last one for it. -/
theorem assigned?_ofEnvironment {vars : Environment}
    (h : ∀ var ∈ vars, IsVariableInPlace var.1) {names : List String}
    (hnames : names ∈ Setting.paths) : assigned? (ofEnvironment vars) names = told? vars names := by
  induction vars with
  | nil => rfl
  | cons var vars ih =>
    obtain ⟨hfirst, hrest⟩ := List.forall_mem_cons.1 h
    rw [← List.singleton_append, ofEnvironment_append, assigned?_append, ih hrest,
      assigned?_ofEnvironment_singleton hfirst hnames, told?_append]

/-! ### Trees of settings -/

section

variable {tree : Tree} {found : Layer}

theorem settingOf_eq_ok_iff {α : Type} {path : List String} {standard a : α}
    {read? : Value → Option α} {value : Option Value} :
    Tree.settingOf path standard read? (value.map .leaf) = .ok a ↔
      value.elim (some standard) read? = some a := by
  cases value with
  | none => simp [Tree.settingOf]
  | some value =>
    rw [Option.map_some, Tree.settingOf, Option.elim_some]
    cases read? value <;> simp

namespace Tree.Holds

theorem require_eq (h : tree.Holds found) {part : Section} (hpart : part.name ∈ Setting.parts) :
    tree.require part = .ok () := by
  rw [Tree.require]
  obtain hnone | ⟨members, hmembers⟩ := h.isOpen _ hpart
  · rw [hnone]
  · rw [hmembers]

/-- What is found for a setting stands in its section. -/
theorem settingIn?_eq (h : tree.Holds found) {part : Section} {name : String}
    (hpart : part.name ∈ Setting.parts) (hnames : [part.name, name] ∈ Setting.paths) :
    tree.settingIn? part name = (found [part.name, name]).map .leaf := by
  rw [← h.get?_eq _ hnames, Tree.settingIn?]
  obtain hnone | ⟨members, hmembers⟩ := h.isOpen _ hpart
  · rw [hnone]
  · rw [hmembers]

end Tree.Holds

end

end Settings

/-! ### Settings of the service -/

section

variable {tree : Settings.Tree} {found : Settings.Layer}

open Settings

theorem ServerSettings.ofTree_eq_ok_iff (h : tree.Holds found) {settings : ServerSettings} :
    ofTree tree = .ok settings ↔
      ∀ setting ∈ Setting.server, setting.Takes (found setting.names) (setting.of settings) := by
  rw [ofTree, h.require_eq (by decide)]
  simp (disch := decide) only [Setting.server, List.forall_mem_cons, bind_eq_ok_iff, Tree.textIn,
    Tree.naturalIn, h.settingIn?_eq, settingOf_eq_ok_iff]
  constructor
  · rintro ⟨_, -, host, hhost, port, hport, timeout, htimeout, origins, horigins, ⟨⟩⟩
    exact ⟨hhost, hport, htimeout, horigins, nofun⟩
  · rintro ⟨hhost, hport, htimeout, horigins, -⟩
    exact ⟨(), trivial, _, hhost, _, hport, _, htimeout, _, horigins, rfl⟩

theorem ObservabilitySettings.ofTree_eq_ok_iff (h : tree.Holds found)
    {settings : ObservabilitySettings} : ofTree tree = .ok settings ↔
      ∀ setting ∈ Setting.observability,
        setting.Takes (found setting.names) (setting.of settings) := by
  rw [ofTree, h.require_eq (by decide)]
  simp (disch := decide) only [Setting.observability, List.forall_mem_cons, bind_eq_ok_iff,
    Tree.textIn, Tree.naturalIn, Tree.flagIn, h.settingIn?_eq, settingOf_eq_ok_iff]
  constructor
  · rintro ⟨_, -, name, hname, port, hport, enabled, henabled, level, hlevel, json, hjson, ⟨⟩⟩
    exact ⟨hname, hport, henabled, hlevel, hjson, nofun⟩
  · rintro ⟨hname, hport, henabled, hlevel, hjson, -⟩
    exact ⟨(), trivial, _, hname, _, hport, _, henabled, _, hlevel, _, hjson, rfl⟩

theorem Engine.ofTree_eq_ok_iff (h : tree.Holds found) {engine : Engine} :
    ofTree tree = .ok engine ↔
      ∀ setting ∈ Setting.engine, setting.Takes (found setting.names) (setting.of engine) := by
  rw [ofTree, h.require_eq (by decide)]
  simp (disch := decide) only [Setting.engine, List.forall_mem_cons, bind_eq_ok_iff,
    Tree.naturalIn, Tree.flagIn, h.settingIn?_eq, settingOf_eq_ok_iff]
  constructor
  · rintro ⟨_, -, strict, hstrict, depth, hdepth, tracing, htracing, ⟨⟩⟩
    exact ⟨hstrict, hdepth, htracing, nofun⟩
  · rintro ⟨hstrict, hdepth, htracing, -⟩
    exact ⟨(), trivial, _, hstrict, _, hdepth, _, htracing, rfl⟩

namespace ServiceSettings

/-- The settings of a tree are read one by one. -/
theorem ofTree_eq_ok_iff (h : tree.Holds found) {serviceName environment : String}
    {settings : ServiceSettings} : ofTree tree serviceName environment = .ok settings ↔
      ∀ setting ∈ Setting.all serviceName environment,
        setting.Takes (found setting.names) (setting.of settings) := by
  rw [ofTree]
  simp only [Setting.all, List.forall_mem_append, List.forall_mem_cons, List.forall_mem_map,
    bind_eq_ok_iff, Tree.text, h.get?_eq ["service_name"] (by decide),
    h.get?_eq ["environment"] (by decide), settingOf_eq_ok_iff, ServerSettings.ofTree_eq_ok_iff h,
    ObservabilitySettings.ofTree_eq_ok_iff h, Engine.ofTree_eq_ok_iff h]
  constructor
  · rintro ⟨name, hname, place, hplace, server, hserver, logs, hlogs, engine, hengine, ⟨⟩⟩
    exact ⟨⟨⟨⟨hname, hplace, nofun⟩, hserver⟩, hlogs⟩, hengine⟩
  · rintro ⟨⟨⟨⟨hname, hplace, -⟩, hserver⟩, hlogs⟩, hengine⟩
    exact ⟨_, hname, _, hplace, _, hserver, _, hlogs, _, hengine, rfl⟩

end ServiceSettings

/-- The settings of the server can be chosen one by one. -/
theorem ServerSettings.exists_takes
    (h : ∀ setting ∈ Setting.server, ∃ a, setting.Takes (found setting.names) a) :
    ∃ settings, ∀ setting ∈ Setting.server,
      setting.Takes (found setting.names) (setting.of settings) := by
  simp only [Setting.server, List.forall_mem_cons] at h ⊢
  obtain ⟨⟨host, hhost⟩, ⟨port, hport⟩, ⟨timeout, htimeout⟩, ⟨origins, horigins⟩, -⟩ := h
  exact ⟨⟨host, port, timeout, origins⟩, hhost, hport, htimeout, horigins, nofun⟩

/-- The settings for logs and metrics can be chosen one by one. -/
theorem ObservabilitySettings.exists_takes
    (h : ∀ setting ∈ Setting.observability, ∃ a, setting.Takes (found setting.names) a) :
    ∃ settings, ∀ setting ∈ Setting.observability,
      setting.Takes (found setting.names) (setting.of settings) := by
  simp only [Setting.observability, List.forall_mem_cons] at h ⊢
  obtain ⟨⟨name, hname⟩, ⟨port, hport⟩, ⟨enabled, henabled⟩, ⟨level, hlevel⟩, ⟨json, hjson⟩, -⟩ := h
  exact ⟨⟨name, port, enabled, level, json⟩, hname, hport, henabled, hlevel, hjson, nofun⟩

/-- The settings of the engine can be chosen one by one. -/
theorem Engine.exists_takes
    (h : ∀ setting ∈ Setting.engine, ∃ a, setting.Takes (found setting.names) a) :
    ∃ engine, ∀ setting ∈ Setting.engine,
      setting.Takes (found setting.names) (setting.of engine) := by
  simp only [Setting.engine, List.forall_mem_cons] at h ⊢
  obtain ⟨⟨strict, hstrict⟩, ⟨depth, hdepth⟩, ⟨tracing, htracing⟩, -⟩ := h
  exact ⟨⟨⟨strict, depth⟩, tracing⟩, hstrict, hdepth, htracing, nofun⟩

namespace ServiceSettings

/-- The settings of the service can be chosen one by one. -/
theorem exists_takes {serviceName environment : String}
    (h : ∀ setting ∈ Setting.all serviceName environment,
      ∃ a, setting.Takes (found setting.names) a) :
    ∃ settings, ∀ setting ∈ Setting.all serviceName environment,
      setting.Takes (found setting.names) (setting.of settings) := by
  simp only [Setting.all, List.forall_mem_append, List.forall_mem_cons, List.forall_mem_map]
    at h ⊢
  obtain ⟨⟨⟨⟨⟨name, hname⟩, ⟨place, hplace⟩, -⟩, hserver⟩, hlogs⟩, hengine⟩ := h
  obtain ⟨server, hserver⟩ := ServerSettings.exists_takes hserver
  obtain ⟨logs, hlogs⟩ := ObservabilitySettings.exists_takes hlogs
  obtain ⟨engine, hengine⟩ := Engine.exists_takes hengine
  exact ⟨⟨name, place, server, logs, engine⟩, ⟨⟨⟨hname, hplace, nofun⟩, hserver⟩, hlogs⟩, hengine⟩

section

variable {read? : String → Option (List Assignment)} {folder : Folder} {vars : Environment}
  {serviceName environment : String} {defaultFile environmentFile serviceFile : List Assignment}

/-- The sources are laid one on the other: that for all services, that for the environment, that for
the service, and the variables. -/
theorem loadWith_eq (hdefault : fileSource read? folder "default.toml" = .ok defaultFile)
    (henvironment : fileSource read? folder (environment ++ ".toml") = .ok environmentFile)
    (hservice : fileSource read? folder (serviceName ++ ".toml") = .ok serviceFile) :
    loadWith read? folder vars serviceName environment =
      ofTree ([defaultFile, environmentFile, serviceFile, ofEnvironment vars].foldl
        Tree.overlay .empty) serviceName environment := by
  have hfiles : (fileNames serviceName environment).mapM (fileSource read? folder) =
      .ok [defaultFile, environmentFile, serviceFile] :=
    (mapM_eq_ok_iff _ _ _).2 (.cons hdefault (.cons henvironment (.cons hservice .nil)))
  rw [loadWith, hfiles]
  rfl

/-- Files and variables leave behind in a tree what the last layer says of each setting. -/
theorem holds_layers (hfiles : ∀ file ∈ [defaultFile, environmentFile, serviceFile],
      ∀ assignment ∈ file, assignment.IsInPlace)
    (hvars : ∀ var ∈ vars, IsVariableInPlace var.1) :
    ([defaultFile, environmentFile, serviceFile, ofEnvironment vars].foldl
      Tree.overlay .empty).Holds (last? [assigned? defaultFile, assigned? environmentFile,
        assigned? serviceFile, told? vars]) := by
  have hsources : ∀ source ∈ [defaultFile, environmentFile, serviceFile] ++ [ofEnvironment vars],
      ∀ assignment ∈ source, assignment.IsInPlace :=
    List.forall_mem_append.2
      ⟨hfiles, List.forall_mem_singleton.2 (isInPlace_ofEnvironment hvars)⟩
  have hholds := holds_overlay hsources
  refine ⟨hholds.isOpen, fun names hnames => (hholds.get?_eq names hnames).trans ?_⟩
  simp only [List.cons_append, List.nil_append, List.map_cons, List.map_nil, last?_cons,
    assigned?_ofEnvironment hvars hnames]

end

end ServiceSettings

end

end Criteria
