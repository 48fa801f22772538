import Criteria.Http.RequestId

/-!
# Sites

The path of a request chooses a resource of the site, and its method a handler of the resource.

## Main definitions

* `Resource`: a template for paths and handlers by method.
* `Resource.allowed`: the methods that a resource takes, as the header `allow` lists them.
* `Site`: finds the resource of a path.
* `Site.service`: answers the requests to a site; each has an id and is counted under the template
  of its resource.
-/

namespace Criteria

/-- A resource of a site. -/
structure Resource (σ : Type) where
  /-- What the paths of the resource look like. -/
  template : String
  /-- The handlers by method, in the order in which they are listed. -/
  handlers : List (String × Handler σ)

namespace Resource

variable {σ : Type}

/-- The methods that a resource takes; one that takes `GET` also takes `HEAD`. -/
def allowed (resource : Resource σ) : String :=
  String.intercalate "," (resource.handlers.flatMap fun (method, _) =>
    if method = "GET" then ["GET", "HEAD"] else [method])

/-- The handler for a method. `HEAD` is answered as `GET` is, without the body. -/
def handler? (resource : Resource σ) (method : String) : Option (Handler σ) :=
  match resource.handlers.lookup method with
  | some handler => some handler
  | none =>
    if method = "HEAD" then (resource.handlers.lookup "GET").map Handler.withoutBody else none

/-- Refuses a method and names those that the resource takes. -/
def notAllowed (resource : Resource σ) : Response :=
  (Response.ofStatus 405).withHeader "allow" (.ofString resource.allowed)

/-- Answers the requests to a resource. -/
def handle (resource : Resource σ) : Handler σ := fun id occasion request =>
  (resource.handler? request.method).getD (.always resource.notAllowed) id occasion request

end Resource

/-- Finds the resource of a path. -/
abbrev Site (σ : Type) : Type := String → Option (Resource σ)

namespace Site

variable {σ : Type}

/-- The label for requests whose path has no resource. -/
def unmatched : String := "unmatched"

/-- The label under which a request is counted. -/
def label (site : Site σ) (request : Request) : String :=
  ((site request.path).map Resource.template).getD unmatched

/-- Answers the requests to a site. -/
def handle (site : Site σ) : Handler σ := fun id occasion request =>
  match site request.path with
  | some resource => resource.handle id occasion request
  | none => Handler.always (.ofStatus 404) id occasion request

/-- Answers the requests to a site; each has an id and is counted. -/
def service (site : Site σ) : Service σ := (site.handle.counted site.label).identified

end Site

end Criteria
