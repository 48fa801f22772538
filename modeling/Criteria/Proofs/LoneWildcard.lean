import Criteria.Proofs.AdmittedOrigins

/-!
# The wildcard stands alone

The wildcard is looked for in a text as a whole, but the list of origins is made of the entries
between its commas, and no list of origins may have the wildcard in it. So the wildcard must be the
only entry: beside another one, be it empty, it is no text of origins at all.

## Main results

* `AllowedOrigins.lists_append_comma`: the entries of two texts with a comma between them.
* `AllowedOrigins.isTrimmed_iff`: a text is the wildcard if it is its only entry.
* `AllowedOrigins.wildcard_stands_alone`: which texts allow all origins, some, or are refused.
-/

namespace Criteria.AllowedOrigins

variable {s t : String}

/-- The entries of two texts with a comma between them are those of the one and of the other. -/
theorem lists_append_comma {entry : List Char} :
    Lists (s ++ "," ++ t) entry ↔ Lists s entry ∨ Lists t entry := by
  have htext : (s ++ "," ++ t).toList = s.toList ++ ',' :: t.toList := by simp
  simp only [Lists, htext, List.splitOn_append_cons_self, List.mem_append, or_and_right, exists_or]

/-- A text is the wildcard with blanks around it just if the wildcard is its only entry. -/
theorem isTrimmed_iff : Text.IsTrimmed s.toList ['*'] ↔ Lists s ['*'] ∧ ',' ∉ s.toList := by
  constructor
  · intro h
    exact ⟨lists_of_isTrimmed h, comma_not_mem_of_isTrimmed h⟩
  · rintro ⟨⟨part, hpart, htrimmed⟩, hcomma⟩
    rw [List.splitOn_eq_singleton hcomma, List.mem_singleton] at hpart
    exact hpart ▸ htrimmed

/-- A text is the wildcard, or the wildcard is not read from it, just if the wildcard is not one of
several entries. -/
theorem trimmed_or_not_mem_iff :
    Text.trimmed s = "*" ∨ wildcard ∉ entries s ↔ ¬ (Lists s ['*'] ∧ ',' ∈ s.toList) := by
  have htext : Text.trimmed s = "*" ↔ Lists s ['*'] ∧ ',' ∉ s.toList :=
    trimmed_eq_iff.trans isTrimmed_iff
  rw [htext, wildcard_mem_entries_iff]
  by_cases h : Lists s ['*'] <;> simp [h]

theorem ofText?_eq_any_iff : ofText? s = some .any ↔ Text.trimmed s = "*" := by
  rw [ofText?]
  split_ifs with htrimmed hentries <;> simp [htrimmed]

theorem ofText?_eq_listed_iff : ofText? s = some (.listed (entries s)) ↔ wildcard ∉ entries s := by
  constructor
  · intro h hmem
    have hcontains : (entries s).contains wildcard = true := by simpa using hmem
    rw [ofText?, if_pos hcontains] at h
    split_ifs at h
    cases h
  · intro h
    exact ofText?_of_not_lists (wildcard_mem_entries_iff.not.1 h)

/-- A text is refused just if the wildcard is one of several entries. -/
theorem ofText?_eq_none_iff : ofText? s = none ↔ Lists s ['*'] ∧ ',' ∈ s.toList := by
  rw [← not_iff_not, ← trimmed_or_not_mem_iff, ofText?]
  split_ifs with htrimmed hentries <;> simp_all

/-- **The wildcard must stand alone.** A text either is the wildcard with blanks around it, and
allows all origins, or the list of origins that is read from it is without the wildcard, and is
allowed, unless the wildcard is one of several entries. Then it is in the list, and the text is
refused, whatever the other entries are and wherever the wildcard stands among them. -/
theorem wildcard_stands_alone (s : String) :
    (Text.trimmed s = "*" ∨ wildcard ∉ entries s ↔ ¬ (Lists s ['*'] ∧ ',' ∈ s.toList)) ∧
    (ofText? s = some .any ↔ Text.trimmed s = "*") ∧
    (ofText? s = some (.listed (entries s)) ↔ wildcard ∉ entries s) ∧
    (ofText? s = none ↔ Lists s ['*'] ∧ ',' ∈ s.toList) ∧
    ∀ t, ofText? (s ++ "," ++ t) = none ↔ Lists s ['*'] ∨ Lists t ['*'] := by
  refine ⟨trimmed_or_not_mem_iff, ofText?_eq_any_iff, ofText?_eq_listed_iff, ofText?_eq_none_iff,
    fun t => ?_⟩
  rw [ofText?_eq_none_iff, lists_append_comma]
  exact and_iff_left (by simp)

/-- With an origin behind it, the wildcard is in the list of origins. -/
theorem wildcard_mem_entries_of_two :
    ¬ ∀ s, Text.trimmed s = "*" ∨ wildcard ∉ entries s := by
  intro hall
  have htrimmed : Text.trimmed "*, http://example.com" ≠ "*" := by decide +kernel
  have hmem : wildcard ∈ entries "*, http://example.com" := by decide +kernel
  exact (hall _).elim htrimmed fun h => h hmem

-- an empty entry is enough
example : ofText? "*," = none := by decide +kernel

end Criteria.AllowedOrigins
