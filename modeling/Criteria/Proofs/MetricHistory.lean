import Criteria.Execution
import Criteria.Proofs.StoreRun

/-!
# Metrics describe the history

Operations on a store and executions of rules record events as they happen. This file shows that the
events tell just what happened: one event for each rule that is stored or deleted, with the number
of rules that are stored then, one for each rule that is refused on compilation, with the code of
the refusal, and those of the evaluation for each execution that has an outcome. Whatever else
fails or only looks at the rules records nothing. So the gauge of the stored rules always has the
size of the store, and the counters count refusals and executions.

## Main definitions

* `Metric.total`, `Metric.lastGauge`: what the events say of a counter and of a gauge.
* `Store.Action`, `Store.act`: an operation that is called, or an execution.
* `Store.Episode`: an action with what came of it.
* `Store.history`: does one action after the other.
* `Store.Episode.expected`: the events that an episode calls for.

## Main results

* `Store.events_act`: an action records the events that are called for.
* `Store.lastGauge_act`, `Store.lastGauge_history`: the gauge follows the size of the store.
* `Store.metrics_describe_history`: a whole history, from the empty store on.
-/

namespace Criteria

/-! ### What events say -/

namespace Metric

/-- What an event adds to a counter, whatever its labels are. -/
def increment (name : String) (event : Metric) : Nat :=
  match event.reading with
  | .counter n => if event.name = name then n else 0
  | _ => 0

/-- What events add to a counter. -/
def total (name : String) : List Metric → Nat
  | [] => 0
  | event :: events => event.increment name + total name events

/-- The value to which an event sets a gauge. -/
def gauge? (name : String) (event : Metric) : Option Double :=
  match event.reading with
  | .gauge value => if event.name = name then some value else none
  | _ => none

/-- The value to which a gauge was set last; a given one if it was not set. -/
def lastGauge (name : String) (value : Double) (events : List Metric) : Double :=
  (events.filterMap (gauge? name)).getLast?.getD value

variable (name : String) (value : Double) (earlier later : List Metric)

@[simp] theorem total_nil : total name [] = 0 := rfl

theorem total_append : total name (earlier ++ later) = total name earlier + total name later := by
  induction earlier with
  | nil => rw [List.nil_append, total_nil, Nat.zero_add]
  | cons event earlier ih => rw [List.cons_append, total, ih, total, Nat.add_assoc]

@[simp] theorem lastGauge_nil : lastGauge name value [] = value := rfl

/-- An event that sets the gauge leaves its value. -/
theorem lastGauge_gauge (labels : List (String × String)) (reading : Double) :
    lastGauge name value [⟨name, labels, .gauge reading⟩] = reading := by
  simp [lastGauge, gauge?]

/-- Events that set no gauge leave it as it is. -/
theorem lastGauge_of_not_gauge {events : List Metric}
    (h : ∀ event ∈ events, event.gauge? name = none) : lastGauge name value events = value := by
  rw [lastGauge, List.filterMap_eq_nil_iff.2 h]
  rfl

/-- Later events change the value that earlier ones have left. -/
theorem lastGauge_append : lastGauge name value (earlier ++ later) =
    lastGauge name (lastGauge name value earlier) later := by
  rw [lastGauge, List.filterMap_append, List.getLast?_append, lastGauge, lastGauge]
  cases (later.filterMap (gauge? name)).getLast? <;> simp

end Metric

namespace Store

/-! ### Histories -/

/-- What may be done. -/
inductive Action where
  /-- An operation on the store is called. -/
  | call (call : Call)
  /-- Rules are executed, by any engine. They may be those that the store lists, or any others. -/
  | execute (engine : Engine) (record : Record) (elapsed : Elapsed) (rules : List StoredRule)

/-- What an action gives. -/
inductive Reply where
  | answer (answer : Answer)
  | outcome (outcome : Outcome)

/-- Does one thing. -/
def act (store : Store) : Action → Transaction Reply
  | .call call =>
    let t := (store.through call.handle).perform call.operation
    ⟨t.result.map .answer, t.store, t.events⟩
  | .execute engine record elapsed rules =>
    let (result, events) := engine.execute record elapsed rules
    ⟨result.map .outcome, store, events⟩

/-- An action with what came of it. -/
structure Episode where
  action : Action
  transaction : Transaction Reply

/-- Does one thing after the other; the store that is left comes with the episodes. -/
def history (store : Store) : List Action → List Episode × Store
  | [] => ([], store)
  | action :: actions =>
    let t := store.act action
    let (episodes, final) := t.store.history actions
    (⟨action, t⟩ :: episodes, final)

@[simp] theorem history_nil (store : Store) : store.history [] = ([], store) := rfl

theorem history_cons (store : Store) (action : Action) (actions : List Action) :
    store.history (action :: actions) =
      (⟨action, store.act action⟩ :: ((store.act action).store.history actions).1,
        ((store.act action).store.history actions).2) := rfl

/-- The events of episodes, in order. -/
def eventsOf (episodes : List Episode) : List Metric := episodes.flatMap (·.transaction.events)

theorem eventsOf_cons (episode : Episode) (episodes : List Episode) :
    eventsOf (episode :: episodes) = episode.transaction.events ++ eventsOf episodes := rfl

namespace Episode

variable (episode : Episode)

/-- The events that an episode calls for. -/
def expected : List Metric :=
  match episode.action, episode.transaction.result with
  | .call ⟨_, .create ..⟩, .ok _ | .call ⟨_, .delete _⟩, .ok _ =>
    [⟨"rules_stored", [], .gauge (.ofInt episode.transaction.store.size)⟩]
  | .call ⟨_, .create ..⟩, .error (.parse cause) =>
    [⟨"rule_compile_failures_total", [("code", cause.code)], .counter 1⟩]
  | .execute _ _ elapsed rules, .ok (.outcome outcome) => [
      ⟨"rule_evaluations_total", [("matched", toString outcome.finalResult)], .counter 1⟩,
      ⟨"rule_evaluation_duration_seconds", [], .histogram elapsed.seconds⟩,
      ⟨"rule_set_size", [], .histogram (.ofInt rules.length)⟩]
  | _, _ => []

/-- A rule was refused on compilation. -/
def isRefusal : Bool :=
  match episode.action, episode.transaction.result with
  | .call ⟨_, .create ..⟩, .error (.parse _) => true
  | _, _ => false

/-- Rules were executed, with an outcome. -/
def isExecution : Bool :=
  match episode.action, episode.transaction.result with
  | .execute .., .ok (.outcome _) => true
  | _, _ => false

end Episode

/-! ### One episode -/

variable (store : Store)

/-- An action records the events that are called for. -/
theorem events_act (action : Action) :
    (store.act action).events = Episode.expected ⟨action, store.act action⟩ := by
  cases action with
  | execute engine record elapsed rules =>
    simp only [act, Engine.execute]
    cases engine.outcomeOf record elapsed rules <;> rfl
  | call call =>
    obtain ⟨handle, operation⟩ := call
    rw [act, through_eq]
    have hstep := store.step_perform operation
    generalize store.perform operation = t at hstep
    cases hstep with
    | refused hrefuses => cases hrefuses <;> rfl
    | _ => rfl

/-- Operations keep the engine of a store. -/
theorem engine_perform (operation : Operation) :
    (store.perform operation).store.engine = store.engine := by
  have hstep := store.step_perform operation
  generalize store.perform operation = t at hstep
  cases hstep <;> rfl

/-- Actions keep the engine of a store. -/
theorem engine_act (action : Action) : (store.act action).store.engine = store.engine := by
  cases action with
  | execute => rfl
  | call call =>
    rw [act, through_eq]
    exact store.engine_perform call.operation

/-- A rule is refused on compilation just if neither its name nor its text is blank and the text
does not compile. -/
theorem result_act_create (handle : Handle) (now name rule : String) (cause : ParseError) :
    (store.act (.call ⟨handle, .create now name rule⟩)).result = .error (.parse cause) ↔
      Text.isAllBlank name = false ∧ Text.isAllBlank rule = false ∧
        store.engine.compile rule = .error cause := by
  rw [act, through_eq, perform, create, refusal?]
  cases Text.isAllBlank name with
  | true => simp [Except.map]
  | false =>
    cases Text.isAllBlank rule with
    | true => simp [Except.map]
    | false => cases store.engine.compile rule <;> simp [Except.map]

/-- If the gauge had the size of the store before an operation, it has it afterwards. -/
theorem lastGauge_perform (operation : Operation) :
    Metric.lastGauge "rules_stored" (.ofInt store.size) (store.perform operation).events =
      .ofInt (store.perform operation).store.size := by
  have hstep := store.step_perform operation
  generalize store.perform operation = t at hstep
  cases hstep with
  | created => exact Metric.lastGauge_gauge ..
  | deleted => exact Metric.lastGauge_gauge ..
  | refused hrefuses =>
    refine Metric.lastGauge_of_not_gauge _ _ ?_
    cases hrefuses <;> simp [Metric.gauge?, Metric.compileFailure]
  | _ => exact Metric.lastGauge_nil ..

/-- If the gauge had the size of the store before an action, it has it afterwards. -/
theorem lastGauge_act (action : Action) :
    Metric.lastGauge "rules_stored" (.ofInt store.size) (store.act action).events =
      .ofInt (store.act action).store.size := by
  cases action with
  | execute engine record elapsed rules =>
    refine Metric.lastGauge_of_not_gauge _ _ ?_
    rw [act, Engine.execute]
    cases engine.outcomeOf record elapsed rules <;> simp [Metric.gauge?, Metric.ruleEvaluation]
  | call call =>
    rw [act, through_eq]
    exact store.lastGauge_perform call.operation

namespace Episode

variable (episode : Episode)

/-- The counter of refusals counts the episodes that are refusals. -/
theorem total_refusals :
    Metric.total "rule_compile_failures_total" episode.expected = episode.isRefusal.toNat := by
  unfold expected isRefusal
  split <;> simp_all [Metric.total, Metric.increment]

/-- The counter of evaluations counts the episodes that are executions. -/
theorem total_executions :
    Metric.total "rule_evaluations_total" episode.expected = episode.isExecution.toNat := by
  unfold expected isExecution
  split <;> simp_all [Metric.total, Metric.increment]

end Episode

/-! ### Whole histories -/

/-- What every action keeps, a history keeps; and what holds of the episode of each action in a
store that is so kept, holds of all episodes. -/
theorem history_induction {p : Store → Prop} {q : Episode → Prop}
    (hstep : ∀ store action, p store →
      p (store.act action).store ∧ q ⟨action, store.act action⟩)
    {store : Store} (h : p store) (actions : List Action) :
    p (store.history actions).2 ∧ ∀ episode ∈ (store.history actions).1, q episode := by
  induction actions generalizing store with
  | nil => exact ⟨h, by simp⟩
  | cons action actions ih =>
    obtain ⟨hstore, hepisode⟩ := hstep store action h
    obtain ⟨hfinal, hepisodes⟩ := ih hstore
    rw [history_cons]
    exact ⟨hfinal, List.forall_mem_cons.2 ⟨hepisode, hepisodes⟩⟩

/-- A history has an episode for each action. -/
theorem map_action_history (store : Store) (actions : List Action) :
    (store.history actions).1.map Episode.action = actions := by
  induction actions generalizing store with
  | nil => rfl
  | cons action actions ih => rw [history_cons, List.map_cons, ih]

/-- The gauge follows the size of the store along a history. -/
theorem lastGauge_history (store : Store) (actions : List Action) :
    Metric.lastGauge "rules_stored" (.ofInt store.size) (eventsOf (store.history actions).1) =
      .ofInt (store.history actions).2.size := by
  induction actions generalizing store with
  | nil => exact Metric.lastGauge_nil ..
  | cons action actions ih =>
    rw [history_cons, eventsOf_cons, Metric.lastGauge_append, lastGauge_act, ih]

/-- A counter whose events tell of the episodes of some kind counts these episodes. -/
theorem total_eventsOf {name : String} {p : Episode → Bool} {episodes : List Episode}
    (h : ∀ episode ∈ episodes,
      Metric.total name episode.transaction.events = (p episode).toNat) :
    Metric.total name (eventsOf episodes) = episodes.countP p := by
  induction episodes with
  | nil => rfl
  | cons episode episodes ih =>
    obtain ⟨hepisode, hepisodes⟩ := List.forall_mem_cons.1 h
    rw [eventsOf_cons, Metric.total_append, hepisode, ih hepisodes, List.countP_cons, Nat.add_comm]
    cases p episode <;> rfl

/-- **Metrics describe the history.** Whatever is called on a store, through whatever handles, and
whatever rules are executed meanwhile, by whatever engines, the events of each episode are those
that it calls for, and a rule is refused on compilation just if neither its name nor its text is
blank and the text does not compile. So the gauge of the stored rules has the size of the store in
the end, or zero if it was never set, and the counters have the numbers of the rules that were
refused on compilation and of the executions that had an outcome. -/
theorem metrics_describe_history (engine : Engine) (actions : List Action) :
    let episodes := ((empty engine).history actions).1
    let store := ((empty engine).history actions).2
    episodes.map Episode.action = actions ∧
      (∀ episode ∈ episodes, episode.transaction.events = episode.expected ∧
        ∀ handle now name rule cause,
          episode.action = .call ⟨handle, .create now name rule⟩ →
          (episode.transaction.result = .error (.parse cause) ↔
            Text.isAllBlank name = false ∧ Text.isAllBlank rule = false ∧
              engine.compile rule = .error cause)) ∧
      Metric.lastGauge "rules_stored" (.ofInt 0) (eventsOf episodes) = .ofInt store.size ∧
      Metric.total "rule_compile_failures_total" (eventsOf episodes) =
        episodes.countP Episode.isRefusal ∧
      Metric.total "rule_evaluations_total" (eventsOf episodes) =
        episodes.countP Episode.isExecution := by
  intro episodes store
  have hevents : ∀ episode ∈ episodes, episode.transaction.events = episode.expected :=
    (history_induction (p := fun _ => True)
      (fun store action _ => ⟨trivial, store.events_act action⟩) trivial actions).2
  have hrefused : ∀ episode ∈ episodes, ∀ handle now name rule cause,
      episode.action = .call ⟨handle, .create now name rule⟩ →
      (episode.transaction.result = .error (.parse cause) ↔
        Text.isAllBlank name = false ∧ Text.isAllBlank rule = false ∧
          engine.compile rule = .error cause) := by
    refine (history_induction (p := fun store => store.engine = engine) (fun store action h => ?_)
      rfl actions).2
    refine ⟨(store.engine_act action).trans h, fun handle now name rule cause haction => ?_⟩
    obtain rfl : action = _ := haction
    exact h ▸ store.result_act_create handle now name rule cause
  have hgauge := lastGauge_history (empty engine) actions
  have hsize : ((empty engine).size : Int) = 0 := rfl
  rw [hsize] at hgauge
  refine ⟨map_action_history _ actions, fun episode hepisode => ⟨hevents episode hepisode,
    hrefused episode hepisode⟩, hgauge, total_eventsOf fun episode hepisode => ?_,
    total_eventsOf fun episode hepisode => ?_⟩
  · rw [hevents episode hepisode, episode.total_refusals]
  · rw [hevents episode hepisode, episode.total_executions]

-- a rule is stored, another one is refused, and the stored one is executed, without any field
example :
    let stored : StoredRule := ⟨1, "adult", "age > 17", ""⟩
    let actions : List Action := [
      .call ⟨.original, .create "" "adult" "age > 17"⟩,
      .call ⟨.copy .original, .create "" "minor" "(age < 18"⟩,
      .execute .standard ⟨[]⟩ ⟨0⟩ [stored]]
    (eventsOf ((empty .standard).history actions).1).map (fun event => (event.name, event.labels)) =
      [("rules_stored", []), ("rule_compile_failures_total", [("code", "MISMATCHED_PARENTHESES")]),
        ("rule_evaluations_total", [("matched", "false")]),
        ("rule_evaluation_duration_seconds", []), ("rule_set_size", [])] := by
  decide +kernel

end Store

end Criteria
