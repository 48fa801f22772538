import Criteria.Http.Site
import Criteria.Text.Blank
import Criteria.Text.Cut

/-!
# Origins

Pages of other origins may use a service if it allows their origin: all of them, or those that are
listed. A browser asks for leave by `OPTIONS`, which is answered in front of the service.

## Main definitions

* `AllowedOrigins`: the origins that may use a service; `AllowedOrigins.ofText?` reads them.
* `AllowedOrigins.grant?`: the origin that a response names.
* `AllowedOrigins.guard`: a service with the headers for origins.

## Main results

* `AllowedOrigins.grant?_listed_eq_some_iff`: a list grants just the origins in it, each under its
  own name.
-/

namespace Criteria

/-- The origins that may use a service. -/
inductive AllowedOrigins where
  /-- All of them. -/
  | any
  /-- Those that are listed. -/
  | listed (origins : List HeaderValue)
deriving DecidableEq, Inhabited

namespace AllowedOrigins

/-- Stands for all origins. -/
def wildcard : HeaderValue := .ofString "*"

/-- The origins between the commas of a text, without the blanks around them; what cannot be a
header value is left out. -/
def entries (s : String) : List HeaderValue :=
  (Text.cutAt ',' s.toList).filterMap fun part =>
    HeaderValue.ofText? (String.ofList (Text.trim part))

/-- The origins that a text allows: all of them if it is the wildcard, else those between its
commas. The wildcard must stand alone. -/
def ofText? (s : String) : Option AllowedOrigins :=
  if Text.trimmed s = "*" then some .any
  else if (entries s).contains wildcard then none
  else some (.listed (entries s))

/-- The origin that the response to a request names as allowed. -/
def grant? (origins : AllowedOrigins) (request : Request) : Option HeaderValue :=
  match origins with
  | .any => some wildcard
  | .listed origins => (request.headers.first? "origin").filter origins.contains

/-- The headers that a response depends on. -/
def vary : HeaderValue :=
  .ofString "origin, access-control-request-method, access-control-request-headers"

/-- A response with the headers for origins. -/
def mark (origins : AllowedOrigins) (request : Request) (response : Response) : Response :=
  let varied := { response with headers := response.headers ++ [("vary", vary)] }
  match origins.grant? request with
  | some origin => varied.withHeader "access-control-allow-origin" origin
  | none => varied

/-- Gives leave for all methods and headers; `allowed` are the methods of the resource. -/
def leave (allowed : Option String) : Response :=
  { status := 200
    headers := [("access-control-allow-methods", wildcard),
        ("access-control-allow-headers", wildcard)] ++
      (allowed.map fun methods => ("allow", HeaderValue.ofString methods)).toList
    body := .empty }

/-- A service with the headers for origins. It is not reached by `OPTIONS`. -/
def guard {σ : Type} (origins : AllowedOrigins) (allowed : Request → Option String)
    (service : Service σ) : Service σ := fun occasion request state =>
  let exchange := if request.method = "OPTIONS" then ⟨leave (allowed request), state, []⟩
    else service occasion request state
  { exchange with response := origins.mark request exchange.response }

/-- A list grants just the origins in it, each under its own name. -/
theorem grant?_listed_eq_some_iff {origins : List HeaderValue} {request : Request}
    {origin : HeaderValue} : (listed origins).grant? request = some origin ↔
      request.headers.first? "origin" = some origin ∧ origin ∈ origins := by
  simp [grant?, Option.filter_eq_some_iff]

end AllowedOrigins

/-- Answers the requests to a site for pages of the allowed origins. -/
def Site.guarded {σ : Type} (site : Site σ) (origins : AllowedOrigins) : Service σ :=
  origins.guard (fun request => (site request.path).map Resource.allowed) site.service

end Criteria
