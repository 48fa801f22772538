import Criteria.Http.Header
import Criteria.Json.Basic

/-!
# Requests and responses

## Main definitions

* `Request`, `Response`, `Body`: what is sent and what is answered.
* `Request.path`: the path that a request asks for.
* `Response.withHeader`, `Response.withoutBody`: responses that are changed on their way.
-/

namespace Criteria

/-- A request. -/
structure Request where
  /-- The method, in the letters in which it was sent. -/
  method : String
  /-- The path, with any query behind it; scheme and authority may stand in front of it. -/
  target : String
  headers : Headers
  /-- The bytes of the body, whether they are a text or not. -/
  body : ByteArray
deriving Inhabited

/-- A text is sent as its bytes. -/
instance coeBytes : Coe String ByteArray := ⟨String.toUTF8⟩

/-- The body of a response. -/
inductive Body where
  | empty
  /-- Plain text. -/
  | text (content : String)
  /-- A JSON value. -/
  | json (content : Json)
deriving Inhabited

/-- A response. -/
structure Response where
  status : Nat
  headers : Headers
  body : Body
deriving Inhabited

namespace Request

/-- A target behind its scheme and authority, if it has them. -/
def behindAuthority? : List Char → Option (List Char)
  | ':' :: '/' :: '/' :: rest => some (rest.dropWhile (· ≠ '/'))
  | _ :: rest => behindAuthority? rest
  | [] => none

/-- The path of a target without query and fragment. A scheme and an authority may stand in front
of it; nothing behind them is the path `/`. -/
def pathOf (target : List Char) : List Char :=
  match target with
  | '/' :: _ => target
  | _ => match behindAuthority? target with
    | some [] => ['/']
    | some path => path
    | none => target

/-- The path of a request, without query and fragment. -/
def path (request : Request) : String :=
  String.ofList (pathOf (request.target.toList.takeWhile fun c => c ≠ '?' ∧ c ≠ '#'))

end Request

namespace Response

/-- A response of a status alone. -/
def ofStatus (status : Nat) : Response := ⟨status, [], .empty⟩

/-- A response of plain text. -/
def ofText (status : Nat) (content : String) : Response :=
  ⟨status, [("content-type", .ofString "text/plain; charset=utf-8")], .text content⟩

/-- A response of JSON. -/
def ofJson (status : Nat) (content : Json) : Response :=
  ⟨status, [("content-type", .ofString "application/json")], .json content⟩

/-- A response with one value under a header's name. -/
def withHeader (response : Response) (name : String) (value : HeaderValue) : Response :=
  { response with headers := response.headers.set name value }

/-- A response without its body. -/
def withoutBody (response : Response) : Response := { response with body := .empty }

end Response

end Criteria
