import Criteria.Http.Site
import Mathlib.Data.List.Basic
import Mathlib.Tactic.Tauto

/-!
# Requests and responses have one id

A request may bring an id; if it brings none that can be told again, a fresh one is made. This file
shows that the response tells just the id that the handler is told, whatever the handler answers and
whatever else the request brings. The id is a text to the handler and has to be read as a header
value again for the response; this never fails, so that no response is left without an id.

## Main definitions

* `IsUuid`: the form of fresh ids.
* `Request.Brings`: a request brings an id that can be told again.

## Main results

* `Request.Brings.visible?_eq`, `Request.id_of_not_brings`: the id of a request is the one that it
  brings, or a fresh one.
* `Request.ofText?_id`: the id of a request can be told.
* `Handler.response_tells_id`: the response tells the id that the handler is told, and no other.
-/

namespace Criteria

/-! ### Fresh ids -/

/-- A small hexadecimal digit. -/
def isSmallHexDigit (c : Char) : Bool :=
  (decide ('0' ≤ c) && decide (c ≤ '9')) || (decide ('a' ≤ c) && decide (c ≤ 'f'))

/-- The text of a random identifier: hexadecimal digits in groups of 8, 4, 4, 4 and 12 with hyphens
between them. The third group begins with the version, the fourth with the variant. -/
def IsUuid (s : String) : Prop :=
  ∃ (a b c d e : List Char) (variant : Char),
    s.toList = a ++ ['-'] ++ b ++ ['-', '4'] ++ c ++ ['-', variant] ++ d ++ ['-'] ++ e ∧
      [a, b, c, d, e].map List.length = [8, 4, 3, 3, 12] ∧
      variant ∈ ['8', '9', 'a', 'b'] ∧ ∀ x ∈ a ++ b ++ c ++ d ++ e, isSmallHexDigit x = true

/-- A printable character of ASCII. -/
def IsPrintable (c : Char) : Prop := 32 ≤ c.toNat ∧ c.toNat < 127

theorem isPrintable_of_isSmallHexDigit {c : Char} (h : isSmallHexDigit c = true) :
    IsPrintable c := by
  simp only [isSmallHexDigit, Bool.or_eq_true, Bool.and_eq_true, decide_eq_true_eq, Char.le_def,
    UInt32.le_iff_toNat_le] at h
  have hnat : c.toNat = c.val.toNat := rfl
  rw [IsPrintable, hnat]
  have h0 : '0'.val.toNat = 48 := rfl
  have h9 : '9'.val.toNat = 57 := rfl
  have ha : 'a'.val.toNat = 97 := rfl
  have hf : 'f'.val.toNat = 102 := rfl
  omega

/-- Fresh ids are made of printable characters. -/
theorem IsUuid.isPrintable {s : String} (h : IsUuid s) : ∀ c ∈ s.toList, IsPrintable c := by
  obtain ⟨a, b, c, d, e, variant, hs, -, hvariant, hdigits⟩ := h
  have hhyphen : IsPrintable '-' := by
    unfold IsPrintable
    decide
  have hversion : IsPrintable '4' := isPrintable_of_isSmallHexDigit (by decide)
  have hmark : IsPrintable variant := by
    simp only [List.mem_cons, List.not_mem_nil, or_false] at hvariant
    obtain rfl | rfl | rfl | rfl := hvariant <;> exact isPrintable_of_isSmallHexDigit (by decide)
  have hgroups : ∀ x ∈ a ++ b ++ c ++ d ++ e, IsPrintable x := fun x hx =>
    isPrintable_of_isSmallHexDigit (hdigits x hx)
  simp only [hs, List.forall_mem_append, List.forall_mem_cons, List.not_mem_nil,
    false_implies, implies_true, and_true] at hgroups ⊢
  obtain ⟨⟨⟨⟨ha, hb⟩, hc⟩, hd⟩, he⟩ := hgroups
  exact ⟨⟨⟨⟨⟨⟨⟨⟨ha, hhyphen⟩, hb⟩, hhyphen, hversion⟩, hc⟩, hhyphen, hmark⟩, hd⟩, hhyphen⟩, he⟩

namespace HeaderValue

/-- The byte of a printable character may stand in a value. -/
theorem all_isAllowed_of_isPrintable {c : Char} (h : IsPrintable c) :
    (String.utf8EncodeChar c).all isAllowed = true := by
  obtain ⟨hle, hlt⟩ := h
  have hval : c.val.toNat = c.toNat := rfl
  have hbyte : (UInt8.ofNat c.toNat).toNat = c.toNat := by
    rw [UInt8.toNat_ofNat', Nat.mod_eq_of_lt (by omega)]
  have hge : 32 ≤ UInt8.ofNat c.toNat := by
    rw [UInt8.le_iff_toNat_le, hbyte]
    exact hle
  have hne : UInt8.ofNat c.toNat ≠ 127 := by
    rw [ne_eq, ← UInt8.toNat_inj, hbyte]
    exact Nat.ne_of_lt hlt
  simp only [String.utf8EncodeChar, hval]
  rw [if_pos (by omega), List.all_cons, List.all_nil, Bool.and_true, isAllowed]
  simp [hge, hne]

/-- A text of printable characters is a value. -/
theorem ofText?_of_isPrintable {s : String} (h : ∀ c ∈ s.toList, IsPrintable c) :
    ofText? s = some (ofString s) := by
  have hall : (ofString s).all isAllowed = true := by
    rw [← s.ofList_toList, ofString_ofList, List.all_flatMap, List.all_eq_true]
    exact fun c hc => all_isAllowed_of_isPrintable (h c hc)
  rw [ofText?, if_pos hall]

end HeaderValue

/-! ### The id of a request -/

namespace Request

/-- A request brings an id: its first value under the header of ids is not empty, and made of
visible characters of ASCII, spaces and tabs. -/
def Brings (request : Request) (value : HeaderValue) : Prop :=
  (request.headers.all "x-request-id").head? = some value ∧ value ≠ [] ∧
    ∀ byte ∈ value, 32 ≤ byte ∧ byte < 127 ∨ byte = 9

variable {request : Request} (fresh : String)

/-- The text of an id that a request brings. -/
theorem Brings.exists_visible? {value : HeaderValue} (h : request.Brings value) :
    ∃ s, value.visible? = some s ∧ s ≠ "" := by
  obtain ⟨-, hne, hvisible⟩ := h
  refine ⟨_, HeaderValue.visible?_eq_some_iff.2 ⟨?_, rfl⟩, ?_⟩
  · rw [List.all_eq_true]
    exact fun byte hbyte => by simpa [HeaderValue.isVisible] using hvisible byte hbyte
  · simpa using hne

/-- A request brings the value that its id is made from. -/
theorem brings_of_visible? {value : HeaderValue} {s : String}
    (hfirst : request.headers.first? requestIdHeader = some value)
    (hvisible : value.visible? = some s) (hne : s ≠ "") : request.Brings value := by
  obtain ⟨hall, rfl⟩ := HeaderValue.visible?_eq_some_iff.1 hvisible
  refine ⟨Headers.first?_eq_head?_all .. ▸ hfirst, by simpa using hne, fun byte hbyte => ?_⟩
  simpa [HeaderValue.isVisible] using List.all_eq_true.1 hall byte hbyte

/-- The id of a request is the text of the value that it brings. -/
theorem Brings.visible?_eq {value : HeaderValue} (h : request.Brings value) :
    value.visible? = some (request.id fresh) := by
  obtain ⟨s, hs, hne⟩ := h.exists_visible?
  have hfirst : request.headers.first? requestIdHeader = some value :=
    (Headers.first?_eq_head?_all ..).trans h.1
  rw [id, hfirst, Option.bind_some, hs]
  simp [Option.filter, hne]

/-- The id of a request that brings none is a fresh one. -/
theorem id_of_not_brings (h : ∀ value, ¬ request.Brings value) : request.id fresh = fresh := by
  rw [id]
  cases hfirst : request.headers.first? requestIdHeader with
  | none => rfl
  | some value =>
    rw [Option.bind_some]
    cases hvisible : value.visible? with
    | none => rfl
    | some s =>
      by_cases hne : s = ""
      · simp [Option.filter, hne]
      · exact absurd (brings_of_visible? hfirst hvisible hne) (h value)

/-- The id of a request can be told: it is the text of a value that the request brings, or a fresh
one. -/
theorem ofText?_id {fresh : String} (hfresh : IsUuid fresh) :
    HeaderValue.ofText? (request.id fresh) = some (.ofString (request.id fresh)) := by
  by_cases h : ∃ value, request.Brings value
  · obtain ⟨value, h⟩ := h
    rw [HeaderValue.ofText?_of_visible? (h.visible?_eq fresh),
      HeaderValue.ofString_of_visible? (h.visible?_eq fresh)]
  · rw [id_of_not_brings fresh (not_exists.1 h)]
    exact HeaderValue.ofText?_of_isPrintable hfresh.isPrintable

end Request

/-! ### What the response tells -/

namespace Handler

variable {σ : Type}

/-- **The response tells the id that the handler is told.** Whatever handles a request, however it
is counted, it is told one id: the first value that the request has for it, if that is not empty and
made of visible characters of ASCII, spaces and tabs, and a fresh one otherwise. The response has
just one value under the header of ids, which is this id, byte for byte. Whatever else the handler
answers stays as it is. -/
theorem response_tells_id (handler : Handler σ) (label : Request → String) (occasion : Occasion)
    (request : Request) (state : σ) (hfresh : IsUuid occasion.freshId) :
    let id := request.id occasion.freshId
    let answer := (handler id occasion request state).response
    let response := ((handler.counted label).identified occasion request state).response
    response.headers.all "x-request-id" = [.ofString id] ∧
      (∀ value, request.Brings value → HeaderValue.ofString id = value) ∧
      ((∀ value, ¬ request.Brings value) → id = occasion.freshId) ∧
      response.status = answer.status ∧ response.body = answer.body ∧
      ∀ name ≠ "x-request-id", response.headers.all name = answer.headers.all name := by
  intro id answer response
  have hid : HeaderValue.ofText? id = some (.ofString id) := Request.ofText?_id hfresh
  refine ⟨answer.all_telling hid, fun value h => ?_, Request.id_of_not_brings _,
    answer.status_telling id, answer.body_telling id, fun name hname => ?_⟩
  · exact HeaderValue.ofString_of_visible? (h.visible?_eq occasion.freshId)
  · exact answer.all_telling_of_ne hname

/-- The handler sets an id of its own, and the request has two, the first of which cannot be told:
both are replaced by a fresh one. -/
theorem response_tells_fresh_id :
    let handler : Handler Unit := fun id _ _ _ =>
      ⟨(Response.ofText 200 id).withHeader "x-request-id" (.ofString "own"), (), []⟩
    let request : Request := ⟨"GET", "/",
      [("x-request-id", [0xe9]), ("x-request-id", .ofString "second")], ""⟩
    let occasion : Occasion :=
      { (default : Occasion) with freshId := "0f8fad5b-d9cb-469f-a165-70867728950e" }
    IsUuid occasion.freshId ∧
      ((handler.counted fun _ => "/").identified occasion request ()).response.headers.all
        "x-request-id" = [.ofString occasion.freshId] := by
  intro handler request occasion
  have hfresh : IsUuid occasion.freshId :=
    ⟨"0f8fad5b".toList, "d9cb".toList, "69f".toList, "165".toList, "70867728950e".toList, 'a',
      by decide, by decide, by decide, List.all_eq_true.1 (by decide)⟩
  have htold := response_tells_id handler (fun _ => "/") occasion request () hfresh
  refine ⟨hfresh, htold.1.trans ?_⟩
  rw [htold.2.2.1 fun value h => ?_]
  obtain rfl : [0xe9] = value := Option.some.inj h.1
  exact absurd (h.2.2 0xe9 (by simp)) (by decide)

end Handler

end Criteria
