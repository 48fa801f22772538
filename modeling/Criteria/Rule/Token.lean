/-!
# Tokens of rule text

Rule text is cut into parentheses, quoted strings, runs of comparison signs and words of ASCII
letters, digits and underscores. Every other character only separates tokens, and so does an
apostrophe without a partner behind it.

## Main definitions

* `Token`: a piece of rule text, `Token.text` its spelling.
* `Token.quote`: a text between apostrophes.
* `Token.scan`: the tokens of a text.

## Main results

* `Token.scan_cons_of_skipped`: a character that begins no token changes nothing.
* `Token.scan_quote`, `Token.scan_symbol`, `Token.scan_word`: the longer tokens.
-/

namespace Criteria

/-- A piece of rule text. -/
inductive Token where
  /-- An opening parenthesis. -/
  | opening
  /-- A closing parenthesis. -/
  | closing
  /-- What stands between two apostrophes, with these. -/
  | quoted (text : String)
  /-- A run of comparison signs. -/
  | symbol (text : String)
  /-- A run of ASCII letters, digits and underscores. -/
  | word (text : String)
deriving DecidableEq, Inhabited, Repr

namespace Token

/-- The spelling of a token. -/
def text : Token → String
  | .opening => "("
  | .closing => ")"
  | .quoted text => text
  | .symbol text => text
  | .word text => text

/-- A comparison sign. -/
def isSymbolChar (c : Char) : Bool := c = '<' || c = '>' || c = '='

/-- An ASCII letter or digit, or an underscore. -/
def isWordChar (c : Char) : Bool := c.isAlphanum || c = '_'

/-- A text between two apostrophes. -/
def quote (content : List Char) : String := String.ofList ('\'' :: (content ++ ['\'']))

@[simp] theorem toList_quote (content : List Char) :
    (quote content).toList = '\'' :: (content ++ ['\'']) := by
  simp [quote]

/-- What stands before the next apostrophe and what follows it, if there is one. -/
def cutAtQuote (s : List Char) : Option (List Char × List Char) :=
  match s.dropWhile (· ≠ '\'') with
  | [] => none
  | _ :: rest => some (s.takeWhile (· ≠ '\''), rest)

private theorem length_dropWhile_le (p : Char → Bool) (s : List Char) :
    (s.dropWhile p).length ≤ s.length := (List.dropWhile_suffix p).length_le

theorem length_lt_of_cutAtQuote {s content rest : List Char}
    (h : cutAtQuote s = some (content, rest)) : rest.length < s.length := by
  unfold cutAtQuote at h
  split at h
  · cases h
  · next hd =>
    cases h
    have := length_dropWhile_le (· ≠ '\'') s
    rw [hd] at this
    exact this

/-- The tokens of a text, from left to right. -/
def scan : List Char → List Token
  | [] => []
  | c :: s =>
    if c = '(' then .opening :: scan s
    else if c = ')' then .closing :: scan s
    else if c = '\'' then
      match h : cutAtQuote s with
      | some (content, rest) =>
        have := length_lt_of_cutAtQuote h
        .quoted (quote content) :: scan rest
      | none => scan s
    else if isSymbolChar c then
      have := length_dropWhile_le isSymbolChar s
      .symbol (String.ofList (c :: s.takeWhile isSymbolChar)) :: scan (s.dropWhile isSymbolChar)
    else if isWordChar c then
      have := length_dropWhile_le isWordChar s
      .word (String.ofList (c :: s.takeWhile isWordChar)) :: scan (s.dropWhile isWordChar)
    else scan s
termination_by s => s.length

/-- The tokens of a string. -/
def ofString (s : String) : List Token := scan s.toList

/-! ### One token at a time -/

@[simp] theorem scan_nil : scan [] = [] := by rw [scan]

@[simp] theorem scan_opening (s : List Char) : scan ('(' :: s) = .opening :: scan s := by
  rw [scan]
  simp

@[simp] theorem scan_closing (s : List Char) : scan (')' :: s) = .closing :: scan s := by
  rw [scan]
  simp

theorem scan_quote (s : List Char) :
    scan ('\'' :: s) = match cutAtQuote s with
      | some (content, rest) => .quoted (quote content) :: scan rest
      | none => scan s := by
  rw [scan]
  simp only [Char.reduceEq, ↓reduceIte]
  split <;> simp_all

theorem scan_symbol {c : Char} (h : isSymbolChar c = true) (s : List Char) :
    scan (c :: s) = .symbol (String.ofList (c :: s.takeWhile isSymbolChar)) ::
      scan (s.dropWhile isSymbolChar) := by
  have h' := h
  simp only [isSymbolChar, Bool.or_eq_true, decide_eq_true_eq] at h'
  rw [scan]
  rcases h' with (rfl | rfl) | rfl <;> simp [h]

theorem scan_word {c : Char} (h : isWordChar c = true) (s : List Char) :
    scan (c :: s) = .word (String.ofList (c :: s.takeWhile isWordChar)) ::
      scan (s.dropWhile isWordChar) := by
  have h₁ : c ≠ '(' := by rintro rfl; exact absurd h (by decide)
  have h₂ : c ≠ ')' := by rintro rfl; exact absurd h (by decide)
  have h₃ : c ≠ '\'' := by rintro rfl; exact absurd h (by decide)
  have h₄ : isSymbolChar c = false := by
    simp only [isSymbolChar, Bool.or_eq_false_iff, decide_eq_false_iff_not]
    refine ⟨⟨?_, ?_⟩, ?_⟩ <;> · rintro rfl; exact absurd h (by decide)
  rw [scan]
  simp [h₁, h₂, h₃, h₄, h]

theorem scan_cons_of_skipped {c : Char} (h₁ : c ≠ '(') (h₂ : c ≠ ')') (h₃ : c ≠ '\'')
    (h₄ : isSymbolChar c = false) (h₅ : isWordChar c = false) (s : List Char) :
    scan (c :: s) = scan s := by
  rw [scan]
  simp [h₁, h₂, h₃, h₄, h₅]

end Token

end Criteria
