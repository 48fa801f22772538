import Criteria.Http.Message
import Criteria.Text.Digits

/-!
# Paths

## Main definitions

* `Path.percentDecoded`: the bytes that a part of a path stands for.
* `Path.natural?`: the 64-bit natural number that a part of a path stands for.
* `Path.segmentBehind?`: the single part of a path behind a fixed beginning.

## Main results

* `Path.segmentBehind?_eq_some_iff`: such a part is not empty and has no slash.
-/

namespace Criteria.Path

/-- The bytes that a text stands for: a percent sign and two hexadecimal digits are one byte, and
everything else stands for itself. -/
def percentDecoded : List UInt8 → List UInt8
  | 0x25 :: high :: low :: rest =>
    match Text.hexValue? (Char.ofNat high.toNat), Text.hexValue? (Char.ofNat low.toNat) with
    | some h, some l => UInt8.ofNat (16 * h + l) :: percentDecoded rest
    | _, _ => 0x25 :: percentDecoded (high :: low :: rest)
  | byte :: rest => byte :: percentDecoded rest
  | [] => []

/-- The 64-bit natural number that a part of a path stands for. Bytes beyond ASCII are no digits. -/
def natural? (segment : String) : Option Nat :=
  Text.natural? wordBound
    ((percentDecoded segment.toUTF8.toList).map fun byte => Char.ofNat byte.toNat)

/-- The single, non-empty part of a path behind a fixed beginning. -/
def segmentBehind? (beginning path : String) : Option String :=
  if beginning.toList.isPrefixOf path.toList then
    let segment := path.toList.drop beginning.length
    if segment.isEmpty || segment.contains '/' then none else some (String.ofList segment)
  else none

theorem segmentBehind?_append (beginning rest : String) :
    segmentBehind? beginning (beginning ++ rest) =
      if rest.isEmpty || rest.toList.contains '/' then none else some rest := by
  have hprefix : beginning.toList.isPrefixOf (beginning.toList ++ rest.toList) = true :=
    List.isPrefixOf_iff_prefix.2 (List.prefix_append ..)
  have hempty : rest.toList.isEmpty = rest.isEmpty := by
    rw [Bool.eq_iff_iff, List.isEmpty_iff, String.isEmpty_iff, String.toList_eq_nil_iff]
  simp only [segmentBehind?, String.toList_append, if_pos hprefix, ← String.length_toList,
    List.drop_left, String.ofList_toList, hempty]

/-- A single part behind a beginning is not empty and has no slash. -/
theorem segmentBehind?_eq_some_iff {beginning path segment : String} :
    segmentBehind? beginning path = some segment ↔
      path = beginning ++ segment ∧ segment ≠ "" ∧ '/' ∉ segment.toList := by
  constructor
  · intro h
    have hprefix : beginning.toList.isPrefixOf path.toList = true := by
      rw [segmentBehind?] at h
      split at h
      case isTrue hprefix => exact hprefix
      case isFalse => cases h
    obtain ⟨rest, hrest⟩ := List.isPrefixOf_iff_prefix.1 hprefix
    obtain rfl : beginning ++ String.ofList rest = path := by
      rw [← String.toList_inj, String.toList_append, String.toList_ofList, hrest]
    rw [segmentBehind?_append] at h
    split at h
    case isTrue => cases h
    case isFalse hsegment =>
      obtain rfl := Option.some.inj h
      exact ⟨rfl, by simpa using hsegment⟩
  · rintro ⟨rfl, hne, hslash⟩
    rw [segmentBehind?_append, if_neg]
    simpa using ⟨hne, hslash⟩

end Criteria.Path
