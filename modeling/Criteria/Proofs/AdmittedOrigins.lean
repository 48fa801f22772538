import Criteria.Http.RuleSite
import Criteria.Proofs.SiteAnswer
import Mathlib.Data.List.TakeWhile

/-!
# Which origins are admitted

The origins that may use a service are written as one text, with commas between them. This file
shows that the text is taken at its word: an origin is admitted just if it is one of the entries,
byte for byte, and an entry that cannot be an origin makes no difference to the others. So it makes
no difference either in which order the entries stand, how often, or with which blanks around them.

## Main definitions

* `Text.IsTrimmed`: a text is another one without the blanks at its ends.
* `AllowedOrigins.Lists`, `AllowedOrigins.Admits`: the entries of a text, and the origins that it
  admits.
* `AllowedOrigins.told`: the origins that a response names as allowed.

## Main results

* `Text.trim_eq_iff`, `Text.cutAt_eq_splitOn`: trimming and cutting.
* `AllowedOrigins.mem_entries_iff`: the entries that are read are those that are admitted.
* `AllowedOrigins.guard_congr`: what a guarded service does depends on the admitted origins only.
* `AllowedOrigins.admits_just_listed`: a text is taken at its word.
-/

namespace Criteria

namespace Text

/-! ### Entries of a text -/

/-- A text is another one without the blanks at its ends. -/
structure IsTrimmed (s t : List Char) : Prop where
  exists_blanks : ∃ left right, s = left ++ (t ++ right) ∧
    (∀ c ∈ left, isBlank c = true) ∧ ∀ c ∈ right, isBlank c = true
  /-- It does not begin with a blank. -/
  head_not_blank : ∀ c, t.head? = some c → isBlank c = false
  /-- It does not end with a blank. -/
  last_not_blank : ∀ c, t.getLast? = some c → isBlank c = false

theorem dropWhile_of_head_not {p : Char → Bool} {s : List Char}
    (h : ∀ c, s.head? = some c → p c = false) : s.dropWhile p = s := by
  cases s with
  | nil => rfl
  | cons c s => exact List.dropWhile_cons_of_neg (by simp [h c rfl])

theorem head_dropWhile_not {p : Char → Bool} {s : List Char} {c : Char}
    (h : (s.dropWhile p).head? = some c) : p c = false := by
  have := List.head?_dropWhile_not p s
  simpa [h] using this

theorem isTrimmed_trim (s : List Char) : IsTrimmed s (trim s) := by
  let right := ((s.dropWhile isBlank).reverse.takeWhile isBlank).reverse
  have hback : s.dropWhile isBlank = trim s ++ right := by
    rw [trim, ← List.reverse_append, List.takeWhile_append_dropWhile, List.reverse_reverse]
  refine ⟨⟨s.takeWhile isBlank, right, ?_, fun c hc => List.mem_takeWhile_imp hc,
    fun c hc => List.mem_takeWhile_imp (List.mem_reverse.1 hc)⟩, fun c hc => ?_, fun c hc => ?_⟩
  · rw [← hback, List.takeWhile_append_dropWhile]
  · refine head_dropWhile_not (s := s) ?_
    rw [hback, List.head?_append, hc, Option.some_or]
  · rw [trim, List.getLast?_reverse] at hc
    exact head_dropWhile_not hc

/-- Trimming takes away the blanks at the ends, and nothing else. -/
theorem trim_eq_iff {s t : List Char} : trim s = t ↔ IsTrimmed s t := by
  constructor
  · rintro rfl
    exact isTrimmed_trim s
  · rintro ⟨⟨left, right, rfl, hleft, hright⟩, hhead, hlast⟩
    rw [trim, List.dropWhile_append_of_pos hleft]
    by_cases ht : t = []
    · subst ht
      rw [List.nil_append, List.dropWhile_eq_nil_iff.2 hright]
      rfl
    · have hfront : (t ++ right).dropWhile isBlank = t ++ right := by
        refine dropWhile_of_head_not fun c hc => hhead c ?_
        rwa [List.head?_append_of_ne_nil _ ht] at hc
      have hback : t.reverse.dropWhile isBlank = t.reverse := by
        refine dropWhile_of_head_not fun c hc => hlast c ?_
        rwa [List.head?_reverse] at hc
      rw [hfront, List.reverse_append, List.dropWhile_append_of_pos, hback, List.reverse_reverse]
      exact fun c hc => hright c (List.mem_reverse.1 hc)

/-- A text is cut at every occurrence of a character. -/
theorem cutAt_eq_splitOn (separator : Char) (s : List Char) :
    cutAt separator s = s.splitOn separator := by
  induction s with
  | nil => rfl
  | cons c s ih =>
    rw [cutAt, ih, List.splitOn_cons_eq_if_modifyHead]
    by_cases h : c = separator
    · rw [if_pos h, if_pos (beq_iff_eq.2 h)]
    · rw [if_neg h, if_neg (by simpa using h)]
      have hne := List.splitOn_ne_nil separator s
      cases hparts : s.splitOn separator with
      | nil => exact absurd hparts hne
      | cons part parts => rfl

end Text

namespace AllowedOrigins

/-- A text has an entry: it stands between commas, without the blanks around it. -/
def Lists (s : String) (entry : List Char) : Prop :=
  ∃ part ∈ s.toList.splitOn ',', Text.IsTrimmed part entry

/-- A text admits an origin: it has an entry of the same bytes, and these may stand in a header. -/
def Admits (s : String) (origin : HeaderValue) : Prop :=
  ∃ entry, Lists s entry ∧ HeaderValue.ofString (String.ofList entry) = origin ∧
    ∀ byte ∈ origin, 32 ≤ byte ∧ byte ≠ 127 ∨ byte = 9

variable {s : String}

theorem lists_iff {entry : List Char} :
    Lists s entry ↔ ∃ part ∈ Text.cutAt ',' s.toList, Text.trim part = entry := by
  simp only [Lists, Text.cutAt_eq_splitOn, Text.trim_eq_iff]

/-- The origins that are read from a text are those that it admits. -/
theorem mem_entries_iff {origin : HeaderValue} : origin ∈ entries s ↔ Admits s origin := by
  have hallowed (value : HeaderValue) : value.all HeaderValue.isAllowed = true ↔
      ∀ byte ∈ value, 32 ≤ byte ∧ byte ≠ 127 ∨ byte = 9 := by
    simp [HeaderValue.isAllowed]
  simp only [entries, List.mem_filterMap, HeaderValue.ofText?, Option.ite_none_right_eq_some,
    Option.some.injEq, Admits, lists_iff, hallowed]
  constructor
  · rintro ⟨part, hpart, hbytes, rfl⟩
    exact ⟨_, ⟨part, hpart, rfl⟩, rfl, hbytes⟩
  · rintro ⟨_, ⟨part, hpart, rfl⟩, rfl, hbytes⟩
    exact ⟨part, hpart, hbytes, rfl⟩

/-- A text that is trimmed to the wildcard has no comma: there are only blanks around it. -/
theorem comma_not_mem_of_isTrimmed (h : Text.IsTrimmed s.toList ['*']) : ',' ∉ s.toList := by
  obtain ⟨left, right, hs, hleft, hright⟩ := h.exists_blanks
  have hblank : ∀ c, Text.isBlank c = true → c ≠ ',' := by
    rintro c hc rfl
    exact absurd hc (by decide)
  rw [hs]
  simp only [List.mem_append, List.mem_singleton, not_or]
  exact ⟨fun hc => hblank _ (hleft _ hc) rfl, by decide, fun hc => hblank _ (hright _ hc) rfl⟩

/-- The wildcard has no comma, so it is the only entry of a text that is trimmed to it. -/
theorem lists_of_isTrimmed (h : Text.IsTrimmed s.toList ['*']) : Lists s ['*'] := by
  refine ⟨s.toList, ?_, h⟩
  rw [List.splitOn_eq_singleton (comma_not_mem_of_isTrimmed h)]
  exact List.mem_singleton_self _

/-- The wildcard is read from a text just if it is one of its entries. -/
theorem wildcard_mem_entries_iff : wildcard ∈ entries s ↔ Lists s ['*'] := by
  rw [mem_entries_iff]
  constructor
  · rintro ⟨entry, hentry, hbytes, -⟩
    obtain rfl : entry = ['*'] := String.ofList_injective (HeaderValue.ofString_inj.1 hbytes)
    exact hentry
  · intro h
    exact ⟨['*'], h, rfl, by decide +kernel⟩

theorem trimmed_eq_iff {t : String} : Text.trimmed s = t ↔ Text.IsTrimmed s.toList t.toList := by
  rw [← Text.trim_eq_iff, Text.trimmed, ← String.toList_inj, String.toList_ofList]

/-- A text that is trimmed to the wildcard allows all origins. -/
theorem ofText?_of_isTrimmed (h : Text.IsTrimmed s.toList ['*']) : ofText? s = some .any := by
  rw [ofText?, if_pos (trimmed_eq_iff.2 h)]

/-- A text without the wildcard allows the origins that it admits. -/
theorem ofText?_of_not_lists (h : ¬ Lists s ['*']) : ofText? s = some (.listed (entries s)) := by
  rw [ofText?, if_neg fun hs => h (lists_of_isTrimmed (trimmed_eq_iff.1 hs)), if_neg]
  simpa using wildcard_mem_entries_iff.not.2 h

/-! ### What is granted -/

end AllowedOrigins

/-- The origin that a request comes from. -/
def Request.origin? (request : Request) : Option HeaderValue :=
  (request.headers.all "origin").head?

/-- The origins that a response names as allowed. -/
def Response.granted (response : Response) : List HeaderValue :=
  response.headers.all "access-control-allow-origin"

/-- The origins that a service names as allowed of its own accord, when it stands behind a guard:
`OPTIONS` does not reach it. -/
def Service.grantedBehind {σ : Type} (service : Service σ) (occasion : Occasion) (request : Request)
    (state : σ) : List HeaderValue :=
  if request.method = "OPTIONS" then [] else (service occasion request state).response.granted

namespace AllowedOrigins

section guard

variable {σ : Type} (origins : AllowedOrigins) (allowed : Request → Option String)
  (service : Service σ) (occasion : Occasion) (request : Request) (state : σ)

theorem granted_leave (methods : Option String) : (leave methods).granted = [] := by
  cases methods <;> rfl

theorem granted_mark (response : Response) : (origins.mark request response).granted =
    match origins.grant? request with
    | some origin => [origin]
    | none => response.granted := by
  rw [mark]
  cases origins.grant? request with
  | some origin => exact Headers.all_set_self ..
  | none => simp [Response.granted, Headers.all]

/-- A guarded service names the origin that is granted, if there is one. -/
theorem granted_guard : (origins.guard allowed service occasion request state).response.granted =
    match origins.grant? request with
    | some origin => [origin]
    | none => service.grantedBehind occasion request state := by
  rw [guard, granted_mark, Service.grantedBehind]
  by_cases h : request.method = "OPTIONS"
  · rw [if_pos h, if_pos h, granted_leave]
  · rw [if_neg h, if_neg h]

end guard

/-- The origin of a request is granted just if the text admits it. -/
theorem grant?_entries_eq_some_iff {request : Request} {origin : HeaderValue} :
    (listed (entries s)).grant? request = some origin ↔
      request.origin? = some origin ∧ Admits s origin := by
  rw [grant?_listed_eq_some_iff, mem_entries_iff, Headers.first?_eq_head?_all, Request.origin?]

theorem grant?_entries_eq_none_iff {request : Request} :
    (listed (entries s)).grant? request = none ↔
      ∀ origin, request.origin? = some origin → ¬ Admits s origin := by
  simp only [Option.eq_none_iff_forall_ne_some, ne_eq, grant?_entries_eq_some_iff, not_and]

/-- What a guarded service does depends on the admitted origins only. -/
theorem guard_congr {t : String} (h : ∀ origin, Admits t origin ↔ Admits s origin) {σ : Type}
    (allowed : Request → Option String) (service : Service σ) :
    (listed (entries t)).guard allowed service = (listed (entries s)).guard allowed service := by
  have hgrant (request : Request) :
      (listed (entries t)).grant? request = (listed (entries s)).grant? request := by
    refine Option.ext fun origin => ?_
    rw [grant?_entries_eq_some_iff, grant?_entries_eq_some_iff, h]
  funext occasion request state
  simp only [guard, mark, hgrant]

end AllowedOrigins

/-! ### The site of the rules -/

namespace RuleSite

variable {occasion : Occasion} {request : Request} {store : Store} {method path : String}

/-- The site of the rules names no origins as allowed. -/
theorem Answer.granted {exchange : Exchange Store}
    (h : Answer occasion request store method path exchange) : exchange.response.granted = [] := by
  induction h with
  | @envelope _ _ _ t h =>
    rw [Transaction.envelope, Transaction.exchange]
    cases t.result <;> rfl
  | plain h => cases h <;> rfl
  | head _ ih => exact ih

theorem grantedBehind_eq_nil (occasion : Occasion) (request : Request) (store : Store) :
    ruleSite.service.grantedBehind occasion request store = [] := by
  rw [Service.grantedBehind]
  split
  · rfl
  · exact (Response.all_telling_of_ne _ (by decide)).trans
      (answer_handle _ occasion request store).granted

end RuleSite

namespace AllowedOrigins

/-- **A text of origins is taken at its word.** If the wildcard is none of its entries, a guarded
service names the origin of a request as allowed just if the text admits it, and nothing else: not
more than the service names of its own accord, which for the site of the rules is nothing. This
depends only on which origins are admitted, not on how the text is written. If the text is the
wildcard with blanks around it, the wildcard is named to all requests. -/
theorem admits_just_listed (s : String) :
    (¬ Lists s ['*'] → ∃ origins, ofText? s = some origins ∧
      (∀ {σ : Type} (allowed : Request → Option String) (service : Service σ) (occasion : Occasion)
          (request : Request) (state : σ),
        let response := (origins.guard allowed service occasion request state).response
        (∀ origin, request.origin? = some origin → Admits s origin →
          response.granted = [origin]) ∧
        ((∀ origin, request.origin? = some origin → ¬ Admits s origin) →
          response.granted = service.grantedBehind occasion request state)) ∧
      (∀ occasion request store,
        (ruleSite.guarded origins occasion request store).response.granted ≠ [] ↔
          ∃ origin, request.origin? = some origin ∧ Admits s origin) ∧
      ∀ t, ¬ Lists t ['*'] → (∀ origin, Admits t origin ↔ Admits s origin) →
        ∃ others, ofText? t = some others ∧ ∀ {σ : Type} (allowed : Request → Option String)
          (service : Service σ), others.guard allowed service = origins.guard allowed service) ∧
    (Text.IsTrimmed s.toList ['*'] → ∃ origins, ofText? s = some origins ∧
      ∀ {σ : Type} (allowed : Request → Option String) (service : Service σ) (occasion : Occasion)
          (request : Request) (state : σ),
        (origins.guard allowed service occasion request state).response.granted =
          [.ofString "*"]) := by
  refine ⟨fun h => ⟨_, ofText?_of_not_lists h, ?listed, ?site, ?alike⟩,
    fun h => ⟨_, ofText?_of_isTrimmed h, ?any⟩⟩
  case listed =>
    intro σ allowed service occasion request state response
    refine ⟨fun origin horigin hadmits => ?_, fun hnone => ?_⟩
    · exact (granted_guard ..).trans (by
        rw [grant?_entries_eq_some_iff.2 ⟨horigin, hadmits⟩])
    · exact (granted_guard ..).trans (by rw [grant?_entries_eq_none_iff.2 hnone])
  case site =>
    intro occasion request store
    rw [Site.guarded, granted_guard, RuleSite.grantedBehind_eq_nil]
    cases hgrant : (listed (entries s)).grant? request with
    | some origin => simpa using ⟨origin, grant?_entries_eq_some_iff.1 hgrant⟩
    | none => simpa using grant?_entries_eq_none_iff.1 hgrant
  case alike =>
    exact fun t ht hadmits => ⟨_, ofText?_of_not_lists ht, guard_congr hadmits⟩
  case any =>
    exact fun _ _ _ _ _ => granted_guard ..

-- what cannot be a header is left out, wherever it stands
example : ofText? " http://b ,\u0000, http://a" =
    some (.listed [.ofString "http://b", .ofString "http://a"]) := by
  decide +kernel

end AllowedOrigins

end Criteria
