import Criteria.Http.MediaType
import Criteria.Http.Message
import Criteria.Json.Reader

/-!
# Payloads

The payload of a request is what its body holds as JSON. A body is made of bytes; those that are no
part of a text in UTF-8 make it unreadable where they stand, unless they stand in a string that is
only skipped.

## Main definitions

* `PayloadError`: why a body is not taken.
* `Request.text`: the text of a body.
* `Request.payload`: the payload of a request.

## Main results

* `Request.text_of_toUTF8`: a text that is sent is the text of the body.
-/

namespace Criteria

/-- Why a body is not taken. -/
inductive PayloadError where
  /-- The request does not say that the body is JSON. -/
  | unsupported
  /-- The body is too long. -/
  | tooLong
  /-- The body is not JSON. -/
  | malformed
  /-- The body is JSON of another shape. -/
  | mismatched
deriving DecidableEq, Inhabited

namespace PayloadError

/-- The status of the response. -/
def status : PayloadError → Nat
  | .unsupported => 415
  | .tooLong => 413
  | .malformed => 400
  | .mismatched => 422

/-- What the response says. -/
def message : PayloadError → String
  | .unsupported => "The body must be JSON, and the header must say so"
  | .tooLong => "The body is too long"
  | .malformed => "The body is not JSON"
  | .mismatched => "The body is JSON of another shape"

/-- The response to a request whose body is not taken. -/
def response (error : PayloadError) : Response := .ofText error.status error.message

/-- A fault in a body. -/
def ofFault : Json.Fault → PayloadError
  | .malformed => .malformed
  | .mismatched => .mismatched

end PayloadError

namespace Request

/-- The longest body that is taken, in bytes. -/
def bodyLimit : Nat := 2097152

/-- What is put in place of a byte that is no part of a text. Escapes of two leading surrogates make
a string unreadable, though it can be skipped; the character in front of them is no escape behind a
backslash, and outside of strings it is no JSON. -/
def stray : List Char := '\uFFFD' :: "\\ud800\\ud800".toList

/-- The characters of bytes from a place on, with the bytes that are no part of a text replaced. -/
def charsFrom (bytes : ByteArray) (place : Nat) : List Char :=
  if place < bytes.size then
    match bytes.utf8DecodeChar? place with
    | some c =>
      have := c.utf8Size_pos
      c :: charsFrom bytes (place + c.utf8Size)
    | none => stray ++ charsFrom bytes (place + 1)
  else []
termination_by bytes.size - place

/-- The text of the body of a request. -/
def text (request : Request) : String :=
  match String.fromUTF8? request.body with
  | some text => text
  | none => String.ofList (charsFrom request.body 0)

/-- What the body of a request holds. The header is looked at first, then the length. -/
def payload {α : Type} (reader : Json.Reader α) (request : Request) : Except PayloadError α :=
  if !(request.headers.first? "content-type").any MediaType.namesJson then .error .unsupported
  else if bodyLimit < request.body.size then .error .tooLong
  else (reader.run request.text).mapError PayloadError.ofFault

/-- A text that is sent is the text of the body. -/
theorem text_of_toUTF8 {request : Request} {s : String} (h : request.body = s.toUTF8) :
    request.text = s := by
  have hvalid : s.toUTF8.IsValidUTF8 := s.isValidUTF8
  rw [text, h, String.fromUTF8?, dif_pos hvalid]
  rfl

-- a string with a byte that is no part of a text cannot be read, but it can be skipped
example :
    let request : Request := ⟨"POST", "/", [], ⟨#[0x22, 0xff, 0x22]⟩⟩
    (Json.Reader.text.run request.text).toOption = none ∧
      (Json.Reader.skip.run request.text).toOption = some () := by
  decide +kernel

end Request

end Criteria
