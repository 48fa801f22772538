import Criteria.Execution
import Criteria.Http.Message

/-!
# Exchanges

A request meets a state: it is answered, the state may change, and events are recorded. What lies
outside both, the time and the like, is given as an occasion.

## Main definitions

* `Occasion`: what lies outside a request and the state.
* `Exchange`: a response with the new state and the events.
* `Handler`, `Service`: functions from requests to exchanges, with and without the request's id.
* `Service.run`: answers requests one after the other.
* `Handler.withoutBody`, `Handler.counted`: handlers that are changed as a whole.

## Main results

* `Handler.events_counted`: counting adds the two events of the request behind all others and
  changes nothing else.
-/

namespace Criteria

/-- What lies outside a request and the state. -/
structure Occasion where
  /-- The time. -/
  now : String
  /-- An id that no request has. -/
  freshId : String
  /-- How long rules are executed. -/
  execution : Elapsed
  /-- How long the request is handled. -/
  handling : Elapsed
deriving DecidableEq, Inhabited

/-- What comes of a request. -/
structure Exchange (σ : Type) where
  response : Response
  /-- What becomes of the state. -/
  state : σ
  /-- The events of the request, in order. -/
  events : List Metric

/-- Answers a request in a state. -/
abbrev Service (σ : Type) : Type := Occasion → Request → σ → Exchange σ

/-- Answers a request in a state, and knows the id of the request. -/
abbrev Handler (σ : Type) : Type := String → Service σ

namespace Service

variable {σ : Type}

/-- Answers requests one after the other; the state behind the last one comes with the answers. -/
def run (service : Service σ) : List (Occasion × Request) → σ → List (Exchange σ) × σ
  | [], state => ([], state)
  | (occasion, request) :: rest, state =>
    let exchange := service occasion request state
    let (exchanges, final) := service.run rest exchange.state
    (exchange :: exchanges, final)

end Service

namespace Handler

variable {σ : Type}

/-- Answers every request alike and leaves the state as it is. -/
def always (response : Response) : Handler σ := fun _ _ _ state => ⟨response, state, []⟩

/-- Answers as another handler does, without the body. -/
def withoutBody (handler : Handler σ) : Handler σ := fun id occasion request state =>
  let exchange := handler id occasion request state
  { exchange with response := exchange.response.withoutBody }

/-- Answers as another handler does, and counts the request under a label. -/
def counted (label : Request → String) (handler : Handler σ) : Handler σ :=
  fun id occasion request state =>
    let exchange := handler id occasion request state
    { exchange with
      events := exchange.events ++ Metric.httpRequest request.method (label request)
        exchange.response.status occasion.handling.seconds }

section counted

variable (label : Request → String) (handler : Handler σ) (id : String) (occasion : Occasion)
  (request : Request) (state : σ)

@[simp] theorem response_counted : (handler.counted label id occasion request state).response =
    (handler id occasion request state).response := rfl

@[simp] theorem state_counted : (handler.counted label id occasion request state).state =
    (handler id occasion request state).state := rfl

theorem events_counted : (handler.counted label id occasion request state).events =
    (handler id occasion request state).events ++
      Metric.httpRequest request.method (label request)
        (handler id occasion request state).response.status occasion.handling.seconds := rfl

end counted

end Handler

end Criteria
