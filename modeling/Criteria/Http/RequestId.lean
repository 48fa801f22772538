import Criteria.Http.Exchange

/-!
# Request ids

Each request has an id, which its handler knows and its response tells. A request may bring its
own.

## Main definitions

* `Request.id`: the id of a request.
* `Response.telling`: a response that tells an id.
* `Handler.identified`: tells a handler the id of each request, and the response too.

## Main results

* `Response.all_telling`: a response that tells an id has just this value under the header of ids.
-/

namespace Criteria

/-- The header of ids. -/
def requestIdHeader : String := "x-request-id"

/-- The id of a request: its first value under the header of ids, if that is not empty and made of
visible characters; else a fresh one. -/
def Request.id (fresh : String) (request : Request) : String :=
  (((request.headers.first? requestIdHeader).bind HeaderValue.visible?).filter
    fun id => !id.isEmpty).getD fresh

namespace Response

/-- A response that tells an id, in place of any other. An id that cannot be a header value is not
told. -/
def telling (response : Response) (id : String) : Response :=
  match HeaderValue.ofText? id with
  | some value => response.withHeader requestIdHeader value
  | none => response

section telling

variable (response : Response) (id : String)

@[simp] theorem status_telling : (response.telling id).status = response.status := by
  rw [telling]
  split <;> rfl

@[simp] theorem body_telling : (response.telling id).body = response.body := by
  rw [telling]
  split <;> rfl

variable {id}

theorem telling_of_ofText? {value : HeaderValue} (h : HeaderValue.ofText? id = some value) :
    response.telling id = response.withHeader requestIdHeader value := by
  rw [telling, h]

/-- A response that tells an id has nothing else under the header of ids. -/
theorem all_telling {value : HeaderValue} (h : HeaderValue.ofText? id = some value) :
    (response.telling id).headers.all requestIdHeader = [value] := by
  rw [response.telling_of_ofText? h, withHeader, Headers.all_set_self]

/-- A response that tells an id is the same under all other headers. -/
theorem all_telling_of_ne {name : String} (hname : name ≠ requestIdHeader) :
    (response.telling id).headers.all name = response.headers.all name := by
  rw [telling]
  split
  · exact Headers.all_set_of_ne _ hname _
  · rfl

end telling

end Response

namespace Handler

variable {σ : Type}

/-- Tells a handler the id of each request, and lets the response tell it. -/
def identified (handler : Handler σ) : Service σ := fun occasion request state =>
  let id := request.id occasion.freshId
  let exchange := handler id occasion request state
  { exchange with response := exchange.response.telling id }

end Handler

end Criteria
