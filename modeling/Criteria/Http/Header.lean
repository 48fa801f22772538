/-!
# Headers

A header has a name in small letters and a value made of bytes. Requests and responses list their
headers in order; a name may occur several times.

## Main definitions

* `HeaderValue`: the bytes of a value; `HeaderValue.ofString`, `HeaderValue.visible?` its text.
* `HeaderValue.ofText?`: the value that a text is, if it can be one.
* `Headers`: headers in order; `Headers.first?`, `Headers.all`, `Headers.set` look them up and
  replace them.

## Main results

* `HeaderValue.ofText?_of_visible?`: the text of a value is read as that value again.
* `Headers.all_set_self`, `Headers.all_set_of_ne`: setting a header leaves just that value under its
  name and changes no other name.
-/

namespace Criteria

/-- The bytes of a header value. -/
abbrev HeaderValue : Type := List UInt8

namespace HeaderValue

/-- The bytes of a text. -/
def ofString (s : String) : HeaderValue := s.toUTF8.toList

/-- A visible ASCII character, a space or a tab. -/
def isVisible (byte : UInt8) : Bool := (decide (32 ≤ byte) && decide (byte < 127)) || byte == 9

/-- A byte that a value may hold: no control character but the tab. -/
def isAllowed (byte : UInt8) : Bool := (decide (32 ≤ byte) && byte != 127) || byte == 9

/-- The value that a text is, if all its bytes may stand in one. -/
def ofText? (s : String) : Option HeaderValue :=
  if (ofString s).all isAllowed then some (ofString s) else none

/-- The text of a value of visible ASCII characters, spaces and tabs. -/
def visible? (value : HeaderValue) : Option String :=
  if value.all isVisible then some (String.ofList (value.map fun byte => Char.ofNat byte.toNat))
  else none

private theorem toList_loop (bytes : ByteArray) (i : Nat) (taken : List UInt8) :
    ByteArray.toList.loop bytes i taken = taken.reverse ++ bytes.data.toList.drop i := by
  fun_induction ByteArray.toList.loop bytes i taken with
  | case1 i taken h ih =>
    have hi : i < bytes.data.toList.length := by simpa using h
    rw [ih, List.drop_eq_getElem_cons hi]
    simp [ByteArray.get!, h]
  | case2 i taken h =>
    rw [List.drop_eq_nil_of_le (by simpa using Nat.le_of_not_lt h), List.append_nil]

private theorem toList_eq (bytes : ByteArray) : bytes.toList = bytes.data.toList := by
  rw [ByteArray.toList, toList_loop, List.reverse_nil, List.nil_append, List.drop_zero]

/-- The bytes of a text are those of its characters, one after the other. -/
theorem ofString_ofList (s : List Char) :
    ofString (String.ofList s) = s.flatMap String.utf8EncodeChar := by
  rw [ofString, String.toUTF8, String.toByteArray_ofList, toList_eq, List.utf8Encode,
    List.toList_data_toByteArray]

/-- Texts with the same bytes are equal. -/
theorem ofString_inj {s t : String} : ofString s = ofString t ↔ s = t := by
  rw [← String.toByteArray_inj, ofString, ofString, toList_eq, toList_eq, Array.toList_inj]
  exact ByteArray.ext_iff.symm

theorem isAllowed_of_isVisible {byte : UInt8} (h : isVisible byte = true) :
    isAllowed byte = true := by
  simp only [isVisible, isAllowed, Bool.or_eq_true, Bool.and_eq_true, decide_eq_true_eq] at h ⊢
  refine h.imp_left fun ⟨hle, hlt⟩ => ⟨hle, ?_⟩
  exact bne_iff_ne.2 (UInt8.ne_of_lt hlt)

theorem toNat_lt_of_isVisible {byte : UInt8} (h : isVisible byte = true) : byte.toNat < 127 := by
  simp only [isVisible, Bool.or_eq_true, Bool.and_eq_true, decide_eq_true_eq, beq_iff_eq] at h
  obtain ⟨-, hlt⟩ | rfl := h
  · exact UInt8.lt_iff_toNat_lt.1 hlt
  · decide

/-- A visible byte is that of the character of its number. -/
theorem utf8EncodeChar_of_isVisible {byte : UInt8} (h : isVisible byte = true) :
    String.utf8EncodeChar (Char.ofNat byte.toNat) = [byte] := by
  have hlt := toNat_lt_of_isVisible h
  have hvalid : byte.toNat.isValidChar := .inl (by omega)
  have hval : (Char.ofNat byte.toNat).val.toNat = byte.toNat := by
    rw [Char.ofNat, dif_pos hvalid]
    rfl
  simp only [String.utf8EncodeChar, hval]
  rw [if_pos (by omega), UInt8.ofNat_toNat]

theorem visible?_eq_some_iff {value : HeaderValue} {s : String} : value.visible? = some s ↔
    value.all isVisible = true ∧
      String.ofList (value.map fun byte => Char.ofNat byte.toNat) = s := by
  rw [visible?]
  cases value.all isVisible <;> simp

/-- A value is made of the bytes of its text. -/
theorem ofString_of_visible? {value : HeaderValue} {s : String} (h : value.visible? = some s) :
    ofString s = value := by
  obtain ⟨hall, rfl⟩ := visible?_eq_some_iff.1 h
  rw [ofString_ofList]
  clear h
  induction value with
  | nil => rfl
  | cons byte value ih =>
    rw [List.all_cons, Bool.and_eq_true] at hall
    rw [List.map_cons, List.flatMap_cons, utf8EncodeChar_of_isVisible hall.1, ih hall.2]
    rfl

/-- The text of a value is read as that value again. -/
theorem ofText?_of_visible? {value : HeaderValue} {s : String} (h : value.visible? = some s) :
    ofText? s = some value := by
  have hall : value.all isAllowed = true := List.all_eq_true.2 fun byte hbyte =>
    isAllowed_of_isVisible (List.all_eq_true.1 (visible?_eq_some_iff.1 h).1 byte hbyte)
  rw [ofText?, ofString_of_visible? h, if_pos hall]

end HeaderValue

/-- Headers in order, their names in small letters. -/
abbrev Headers : Type := List (String × HeaderValue)

namespace Headers

/-- The first value under a name. -/
def first? (headers : Headers) (name : String) : Option HeaderValue := headers.lookup name

/-- All values under a name. -/
def all (headers : Headers) (name : String) : List HeaderValue :=
  (headers.filter (·.1 == name)).map (·.2)

/-- Puts one value under a name in place of any others. -/
def set (headers : Headers) (name : String) (value : HeaderValue) : Headers :=
  headers.filter (·.1 != name) ++ [(name, value)]

@[simp] theorem all_nil (name : String) : all [] name = [] := rfl

@[simp] theorem all_append (a b : Headers) (name : String) :
    all (a ++ b) name = a.all name ++ b.all name := by
  simp [all]

theorem first?_eq_head?_all (headers : Headers) (name : String) :
    headers.first? name = (headers.all name).head? := by
  induction headers with
  | nil => rfl
  | cons header headers ih =>
    obtain ⟨other, value⟩ := header
    by_cases h : other = name
    · simp [first?, all, h]
    · have hne : (name == other) = false := by simpa using Ne.symm h
      simpa [first?, all, List.lookup_cons, h, hne] using ih

@[simp] theorem all_set_self (headers : Headers) (name : String) (value : HeaderValue) :
    (headers.set name value).all name = [value] := by
  simp [set, all, List.filter_filter]

theorem all_set_of_ne (headers : Headers) {name other : String} (h : other ≠ name)
    (value : HeaderValue) : (headers.set name value).all other = headers.all other := by
  have hne : (name == other) = false := by simpa using Ne.symm h
  simp only [set, all, List.filter_append, List.filter_filter, List.map_append]
  have : headers.filter (fun a => a.1 == other && a.1 != name) =
      headers.filter (fun a => a.1 == other) := by
    apply List.filter_congr
    intro a _
    by_cases ha : a.1 = other
    · simp [ha, h]
    · simp [ha]
  simp [this, hne]

end Headers

end Criteria
