import JsxAudit.Proofs.Data.JsonReading

/-!
White space between the tokens of a document.

Two texts are the same up to white space (`Respaced`) if they differ only in how much of it stands
where some stands, and outside of strings. Such texts denote the same values (`Denotes.respaced`),
by induction on the value.
-/

namespace JsxAudit.Data.Json

/-- What a place in a document is part of. -/
inductive Part where
  | code | string
  deriving DecidableEq

/-- Two texts that go on from a place in a document, the same up to white space outside of strings.
-/
inductive Respaced : Part → List Char → List Char → Prop
  | finish {bs bs' : List Char} : (∀ c ∈ bs, isSpace c = true) → (∀ c ∈ bs', isSpace c = true) →
    Respaced .code bs bs'
  | space {b b' : Char} {bs bs' cs cs' : List Char} : (∀ c ∈ b :: bs, isSpace c = true) →
    (∀ c ∈ b' :: bs', isSpace c = true) → Respaced .code cs cs' →
    Respaced .code (b :: (bs ++ cs)) (b' :: (bs' ++ cs'))
  | char {c : Char} {cs cs' : List Char} : c ≠ '"' → Respaced .code cs cs' →
    Respaced .code (c :: cs) (c :: cs')
  | opening {cs cs' : List Char} : Respaced .string cs cs' →
    Respaced .code ('"' :: cs) ('"' :: cs')
  | closing {cs cs' : List Char} : Respaced .code cs cs' →
    Respaced .string ('"' :: cs) ('"' :: cs')
  | escape {c : Char} {cs cs' : List Char} : Respaced .string cs cs' →
    Respaced .string ('\\' :: c :: cs) ('\\' :: c :: cs')
  | inside {c : Char} {cs cs' : List Char} : c ≠ '"' → c ≠ '\\' → Respaced .string cs cs' →
    Respaced .string (c :: cs) (c :: cs')
  | cut : Respaced .string [] []
  | cutEscape : Respaced .string ['\\'] ['\\']

namespace Respaced

variable {part : Part} {c : Char} {cs cs' rest : List Char} {v : Value}

theorem symm (h : Respaced part cs cs') : Respaced part cs' cs := by
  induction h with
  | finish blank blank' => exact .finish blank' blank
  | space blank blank' _ ih => exact .space blank' blank ih
  | char plain _ ih => exact .char plain ih
  | opening _ ih => exact .opening ih
  | closing _ ih => exact .closing ih
  | escape _ ih => exact .escape ih
  | inside plain plain' _ ih => exact .inside plain plain' ih
  | cut => exact .cut
  | cutEscape => exact .cutEscape

/-! ### What comes first -/

/-- A character that is no white space stands in both texts. -/
theorem of_visible (h : Respaced .code (c :: cs) cs') (visible : isSpace c = false)
    (plain : c ≠ '"') : ∃ more, cs' = c :: more ∧ Respaced .code cs more := by
  cases h with
  | finish blank =>
    rw [blank c List.mem_cons_self] at visible
    cases visible
  | space blank =>
    rw [blank c List.mem_cons_self] at visible
    cases visible
  | char _ after => exact ⟨_, rfl, after⟩
  | opening => exact absurd rfl plain

theorem of_quote (h : Respaced .code ('"' :: cs) cs') :
    ∃ more, cs' = '"' :: more ∧ Respaced .string cs more := by
  cases h with
  | finish blank => cases blank '"' List.mem_cons_self
  | space blank => cases blank '"' List.mem_cons_self
  | char plain => exact absurd rfl plain
  | opening after => exact ⟨_, rfl, after⟩

/-- A word of such characters stands in both texts. -/
theorem of_word {word : List Char} (visible : ∀ c ∈ word, isSpace c = false ∧ c ≠ '"')
    (h : Respaced .code (word ++ cs) cs') : ∃ more, cs' = word ++ more ∧ Respaced .code cs more := by
  induction word generalizing cs' with
  | nil => exact ⟨cs', rfl, h⟩
  | cons c word ih =>
    obtain ⟨seen, others⟩ := List.forall_mem_cons.mp visible
    rw [List.cons_append] at h
    obtain ⟨_, rfl, next⟩ := h.of_visible seen.1 seen.2
    obtain ⟨more, rfl, after⟩ := ih others next
    exact ⟨more, rfl, after⟩

/-- The texts without white space in front. -/
theorem skipSpace (h : Respaced .code cs cs') : Respaced .code (skipSpace cs) (skipSpace cs') := by
  have none {bs : List Char} (blank : ∀ c ∈ bs, isSpace c = true) : bs.dropWhile isSpace = [] :=
    List.dropWhile_eq_nil_iff.mpr blank
  have skip {bs : List Char} (blank : ∀ c ∈ bs, isSpace c = true) (cs : List Char) :
      (bs ++ cs).dropWhile isSpace = cs.dropWhile isSpace := by
    rw [List.dropWhile_append_of_pos blank]
  unfold Json.skipSpace
  generalize part_eq : Part.code = part at h
  induction h with
  | finish blank blank' =>
    rw [none blank, none blank']
    exact finish (fun _ mem => nomatch mem) (fun _ mem => nomatch mem)
  | space blank blank' _ ih =>
    rw [← List.cons_append, skip blank, ← List.cons_append, skip blank']
    exact ih rfl
  | @char c _ _ plain after ih =>
    cases seen : isSpace c with
    | true => simpa [seen] using ih rfl
    | false => simpa [seen] using char plain after
  | opening after => exact opening after
  | _ => cases part_eq

theorem skipSpace_cons (h : Respaced .code cs cs') (found : Json.skipSpace cs = c :: rest)
    (visible : isSpace c = false) (plain : c ≠ '"') :
    ∃ more, Json.skipSpace cs' = c :: more ∧ Respaced .code rest more :=
  of_visible (found ▸ h.skipSpace) visible plain

/-- Where one text has only white space left, so has the other. -/
theorem skipSpace_eq_nil (h : Respaced .code cs cs') (blank : Json.skipSpace cs = []) :
    Json.skipSpace cs' = [] := by
  have none : Respaced .code [] (Json.skipSpace cs') := blank ▸ h.skipSpace
  cases left : Json.skipSpace cs' with
  | nil => rfl
  | cons c more =>
    have visible : isSpace c = false := by
      have front := List.head?_dropWhile_not isSpace cs'
      rw [show cs'.dropWhile isSpace = c :: more from left] at front
      exact front
    rw [left] at none
    cases none with
    | finish _ blank' =>
      rw [blank' c List.mem_cons_self] at visible
      cases visible

/-! ### Strings -/

theorem of_escape (h : Respaced .string ('\\' :: c :: cs) cs') :
    ∃ more, cs' = '\\' :: c :: more ∧ Respaced .string cs more := by
  cases h with
  | escape after => exact ⟨_, rfl, after⟩
  | inside _ plain => exact absurd rfl plain

theorem of_inside (h : Respaced .string (c :: cs) cs') (quote : c ≠ '"') (slash : c ≠ '\\') :
    ∃ more, cs' = c :: more ∧ Respaced .string cs more := by
  cases h with
  | closing => exact absurd rfl quote
  | escape => exact absurd rfl slash
  | inside _ _ after => exact ⟨_, rfl, after⟩
  | cutEscape => exact absurd rfl slash

theorem of_hexUnit? {a b c d : Char} {n : Nat} (unit : hexUnit? a b c d = some n)
    (h : Respaced .string (a :: b :: c :: d :: cs) cs') :
    ∃ more, cs' = a :: b :: c :: d :: more ∧ Respaced .string cs more := by
  have digit {c : Char} {n : Nat} (value : hexValue? c = some n) : c ≠ '"' ∧ c ≠ '\\' := by
    constructor <;> rintro rfl <;> cases value
  simp only [hexUnit?, Option.bind_eq_bind, Option.bind_eq_some_iff] at unit
  obtain ⟨_, first, _, second, _, third, _, fourth, -⟩ := unit
  obtain ⟨_, rfl, h₁⟩ := h.of_inside (digit first).1 (digit first).2
  obtain ⟨_, rfl, h₂⟩ := h₁.of_inside (digit second).1 (digit second).2
  obtain ⟨_, rfl, h₃⟩ := h₂.of_inside (digit third).1 (digit third).2
  obtain ⟨more, rfl, h₄⟩ := h₃.of_inside (digit fourth).1 (digit fourth).2
  exact ⟨more, rfl, h₄⟩

/-- A code unit stands in both texts. -/
theorem of_unit {a b c d : Char} {n : Nat} (unit : hexUnit? a b c d = some n)
    (h : Respaced .string ('\\' :: 'u' :: a :: b :: c :: d :: cs) cs') :
    ∃ more, cs' = '\\' :: 'u' :: a :: b :: c :: d :: more ∧ Respaced .string cs more := by
  obtain ⟨_, rfl, named⟩ := h.of_escape
  obtain ⟨more, rfl, after⟩ := named.of_hexUnit? unit
  exact ⟨more, rfl, after⟩

theorem alone {n : Nat} (h : Respaced .string cs cs') (alone : Alone n cs) : Alone n cs' := by
  rintro a b c d more low rfl unit
  obtain ⟨more', rfl, -⟩ := h.symm.of_unit unit
  exact alone a b c d more' low rfl unit

/-- Strings are the same. -/
theorem readChars {text : List Char} (h : Respaced .string cs cs')
    (read : readChars cs = some (text, rest)) :
    ∃ rest', Json.readChars cs' = some (text, rest') ∧ Respaced .code rest rest' := by
  simp only [readChars_eq_some_iff] at read ⊢
  induction read generalizing cs' with
  | closing rest =>
    cases h with
    | closing after => exact ⟨_, .closing _, after⟩
    | inside quote => exact absurd rfl quote
  | plain control quote slash _ ih =>
    obtain ⟨_, rfl, next⟩ := h.of_inside quote slash
    obtain ⟨rest', left, after⟩ := ih next
    exact ⟨rest', .plain control quote slash left, after⟩
  | letter known _ ih =>
    obtain ⟨_, rfl, next⟩ := h.of_escape
    obtain ⟨rest', left, after⟩ := ih next
    exact ⟨rest', .letter known left, after⟩
  | unit unit alone _ ih =>
    obtain ⟨_, rfl, next⟩ := h.of_unit unit
    obtain ⟨rest', left, after⟩ := ih next
    exact ⟨rest', .unit unit (next.alone alone) left, after⟩
  | pair first second pair _ ih =>
    obtain ⟨_, rfl, between⟩ := h.of_unit first
    obtain ⟨_, rfl, next⟩ := between.of_unit second
    obtain ⟨rest', left, after⟩ := ih next
    exact ⟨rest', .pair first second pair left, after⟩

/-! ### Numbers -/

/-- A number goes on in both texts, or in none. -/
theorem front (h : Respaced .code cs cs') :
    (∃ c more more', cs = c :: more ∧ cs' = c :: more' ∧ Respaced .code more more') ∨
      (Ends cs ∧ Ends cs') := by
  cases h with
  | finish blank blank' => exact .inr ⟨ends_of_blank blank, ends_of_blank blank'⟩
  | space blank blank' =>
    exact .inr ⟨fun c first => ends_of_blank blank c first,
      fun c first => ends_of_blank blank' c first⟩
  | char _ after => exact .inl ⟨_, _, _, rfl, rfl, after⟩
  | opening =>
    have quote (cs : List Char) : Ends ('"' :: cs) := fun c first => by
      cases first
      decide
    exact .inr ⟨quote _, quote _⟩

theorem takeDigits (h : Respaced .code cs cs') : (takeDigits cs').1 = (takeDigits cs).1 ∧
    Respaced .code (takeDigits cs).2 (takeDigits cs').2 := by
  induction cs generalizing cs' with
  | nil =>
    rcases h.front with ⟨_, _, _, eq, -⟩ | ⟨-, ends⟩
    · cases eq
    · rw [takeDigits_of_ends ends]
      exact ⟨rfl, h⟩
  | cons c cs ih =>
    rcases h.front with ⟨_, _, _, eq, rfl, after⟩ | ⟨ends, ends'⟩
    · cases eq
      cases digit : c.isDigit with
      | true => simpa [Json.takeDigits, digit] using ih after
      | false => simpa [Json.takeDigits, digit] using h
    · rw [takeDigits_of_ends ends, takeDigits_of_ends ends']
      exact ⟨rfl, h⟩

theorem takeWhole (h : Respaced .code cs cs') : (takeWhole cs').1 = (takeWhole cs).1 ∧
    Respaced .code (takeWhole cs).2 (takeWhole cs').2 := by
  rcases h.front with ⟨c, more, more', rfl, rfl, after⟩ | ⟨ends, ends'⟩
  · by_cases zero : c = '0'
    · rw [zero]
      exact ⟨rfl, after⟩
    · have other (cs : List Char) : Json.takeWhole (c :: cs) = Json.takeDigits (c :: cs) := by
        simp [Json.takeWhole, zero]
      rw [other, other]
      exact h.takeDigits
  · rw [takeWhole_of_ends ends, takeWhole_of_ends ends']
    exact ⟨rfl, h⟩

theorem takeFraction (h : Respaced .code cs cs') : (takeFraction cs').1 = (takeFraction cs).1 ∧
    Respaced .code (takeFraction cs).2 (takeFraction cs').2 := by
  rcases h.front with ⟨c, more, more', rfl, rfl, after⟩ | ⟨ends, ends'⟩
  · by_cases point : c = '.'
    · obtain ⟨digits, left⟩ := after.takeDigits
      subst point
      cases read : Json.takeDigits more with
      | mk ds rest =>
      cases read' : Json.takeDigits more' with
      | mk ds' rest' =>
      rw [read, read'] at digits left
      cases digits
      cases ds with
      | nil => simpa [Json.takeFraction, read, read'] using h
      | cons d ds => simpa [Json.takeFraction, read, read'] using left
    · have other (cs : List Char) : Json.takeFraction (c :: cs) = ([], c :: cs) := by
        simp [Json.takeFraction, point]
      rw [other, other]
      exact ⟨rfl, h⟩
  · rw [takeFraction_of_ends ends, takeFraction_of_ends ends']
    exact ⟨rfl, h⟩

theorem takeSign (h : Respaced .code cs cs') : (takeSign cs').1 = (takeSign cs).1 ∧
    Respaced .code (takeSign cs).2 (takeSign cs').2 := by
  rcases h.front with ⟨c, more, more', rfl, rfl, after⟩ | ⟨ends, ends'⟩
  · by_cases minus : c = '-'
    · rw [minus]
      exact ⟨rfl, after⟩
    · by_cases plus : c = '+'
      · rw [plus]
        exact ⟨rfl, after⟩
      · have other (cs : List Char) : Json.takeSign (c :: cs) = (false, c :: cs) := by
          simp [Json.takeSign, minus, plus]
        rw [other, other]
        exact ⟨rfl, h⟩
  · rw [takeSign_of_ends ends, takeSign_of_ends ends']
    exact ⟨rfl, h⟩

theorem takeExponent (h : Respaced .code cs cs') : (takeExponent cs').1 = (takeExponent cs).1 ∧
    Respaced .code (takeExponent cs).2 (takeExponent cs').2 := by
  rcases h.front with ⟨c, more, more', rfl, rfl, after⟩ | ⟨ends, ends'⟩
  · cases mark : c == 'e' || c == 'E' with
    | true =>
      obtain ⟨sign, signed⟩ := after.takeSign
      obtain ⟨digits, left⟩ := signed.takeDigits
      cases read : Json.takeDigits (Json.takeSign more).2 with
      | mk ds rest =>
      cases read' : Json.takeDigits (Json.takeSign more').2 with
      | mk ds' rest' =>
      rw [read, read'] at digits left
      cases digits
      cases ds with
      | nil => simpa [Json.takeExponent, mark, read, read'] using h
      | cons d ds => simpa [Json.takeExponent, mark, read, read', sign] using left
    | false =>
      have other (cs : List Char) : Json.takeExponent (c :: cs) = (none, c :: cs) := by
        simp [Json.takeExponent, mark]
      rw [other, other]
      exact ⟨rfl, h⟩
  · rw [takeExponent_of_ends ends, takeExponent_of_ends ends']
    exact ⟨rfl, h⟩

theorem magnitude? {negative : Bool} (h : Respaced .code cs cs')
    (read : magnitude? negative cs = some (v, rest)) :
    ∃ rest', Json.magnitude? negative cs' = some (v, rest') ∧ Respaced .code rest rest' := by
  obtain ⟨whole, after, taken, some, rfl, rfl⟩ := magnitude?_parts read
  obtain ⟨same, left⟩ := h.takeWhole
  rw [taken] at same left
  obtain ⟨fraction, left⟩ := left.takeFraction
  obtain ⟨exponent, left⟩ := left.takeExponent
  refine ⟨_, ?_, left⟩
  cases taken' : Json.takeWhole cs' with
  | mk whole' after' =>
    rw [taken'] at same fraction exponent
    cases same
    unfold Json.magnitude?
    rw [taken']
    split
    · rename_i none
      exact absurd (Prod.mk.inj none).1 some
    · rename_i eq
      cases eq
      rw [← fraction, ← exponent]

end Respaced

mutual

/-- A value stands in both texts. -/
theorem ValueAt.respaced {cs rest cs' : List Char} {v : Value} : ValueAt cs v rest →
    Respaced .code cs cs' → ∃ rest', ValueAt cs' v rest' ∧ Respaced .code rest rest'
  | .null rest, h => by
    have word : Respaced .code (['n', 'u', 'l', 'l'] ++ rest) cs' := h
    obtain ⟨more, rfl, after⟩ := word.of_word (by simp [isSpace])
    exact ⟨more, .null more, after⟩
  | .true rest, h => by
    have word : Respaced .code (['t', 'r', 'u', 'e'] ++ rest) cs' := h
    obtain ⟨more, rfl, after⟩ := word.of_word (by simp [isSpace])
    exact ⟨more, .true more, after⟩
  | .false rest, h => by
    have word : Respaced .code (['f', 'a', 'l', 's', 'e'] ++ rest) cs' := h
    obtain ⟨more, rfl, after⟩ := word.of_word (by simp [isSpace])
    exact ⟨more, .false more, after⟩
  | .number read, h => by
    obtain ⟨rest', read', after⟩ := h.magnitude? read
    exact ⟨rest', .number read', after⟩
  | .negative read, h => by
    obtain ⟨more, rfl, signed⟩ := h.of_visible rfl (by decide)
    obtain ⟨rest', read', after⟩ := signed.magnitude? read
    exact ⟨rest', .negative read', after⟩
  | .string read, h => by
    obtain ⟨more, rfl, opened⟩ := h.of_quote
    obtain ⟨rest', read', after⟩ := opened.readChars read
    exact ⟨rest', .string read', after⟩
  | .emptyList closed, h => by
    obtain ⟨more, rfl, opened⟩ := h.of_visible rfl (by decide)
    obtain ⟨rest', closed', after⟩ := opened.skipSpace_cons closed rfl (by decide)
    exact ⟨rest', .emptyList closed', after⟩
  | .list items, h => by
    obtain ⟨more, rfl, opened⟩ := h.of_visible rfl (by decide)
    obtain ⟨rest', items', after⟩ := items.respaced opened.skipSpace
    exact ⟨rest', .list items', after⟩
  | .emptyTable closed, h => by
    obtain ⟨more, rfl, opened⟩ := h.of_visible rfl (by decide)
    obtain ⟨rest', closed', after⟩ := opened.skipSpace_cons closed rfl (by decide)
    exact ⟨rest', .emptyTable closed', after⟩
  | .table fields, h => by
    obtain ⟨more, rfl, opened⟩ := h.of_visible rfl (by decide)
    obtain ⟨rest', fields', after⟩ := fields.respaced opened.skipSpace
    exact ⟨rest', .table fields', after⟩

theorem ItemsAt.respaced {cs rest cs' : List Char} {items : List Value} : ItemsAt cs items rest →
    Respaced .code cs cs' → ∃ rest', ItemsAt cs' items rest' ∧ Respaced .code rest rest'
  | .last first closed, h => by
    obtain ⟨mid, first', left⟩ := first.respaced h
    obtain ⟨rest', closed', after⟩ := left.skipSpace_cons closed rfl (by decide)
    exact ⟨rest', .last first' closed', after⟩
  | .more first comma others, h => by
    obtain ⟨mid, first', left⟩ := first.respaced h
    obtain ⟨next, comma', left⟩ := left.skipSpace_cons comma rfl (by decide)
    obtain ⟨rest', others', after⟩ := others.respaced left.skipSpace
    exact ⟨rest', .more first' comma' others', after⟩

theorem FieldsAt.respaced {cs rest cs' : List Char} {fields : List (String × Value)} :
    FieldsAt cs fields rest → Respaced .code cs cs' →
    ∃ rest', FieldsAt cs' fields rest' ∧ Respaced .code rest rest'
  | .last name colon first closed, h => by
    obtain ⟨more, rfl, opened⟩ := h.of_quote
    obtain ⟨named, name', left⟩ := opened.readChars name
    obtain ⟨valued, colon', left⟩ := left.skipSpace_cons colon rfl (by decide)
    obtain ⟨mid, first', left⟩ := first.respaced left.skipSpace
    obtain ⟨rest', closed', after⟩ := left.skipSpace_cons closed rfl (by decide)
    exact ⟨rest', .last name' colon' first' closed', after⟩
  | .more name colon first comma others, h => by
    obtain ⟨more, rfl, opened⟩ := h.of_quote
    obtain ⟨named, name', left⟩ := opened.readChars name
    obtain ⟨valued, colon', left⟩ := left.skipSpace_cons colon rfl (by decide)
    obtain ⟨mid, first', left⟩ := first.respaced left.skipSpace
    obtain ⟨next, comma', left⟩ := left.skipSpace_cons comma rfl (by decide)
    obtain ⟨rest', others', after⟩ := others.respaced left.skipSpace
    exact ⟨rest', .more name' colon' first' comma' others', after⟩

end

/-- Documents that are the same up to white space denote the same value. -/
theorem Denotes.respaced {s s' : String} {v : Value} (h : Denotes s v)
    (same : Respaced .code s.toList s'.toList) : Denotes s' v := by
  obtain ⟨rest, found, blank⟩ := h
  obtain ⟨rest', found', after⟩ := found.respaced same.skipSpace
  exact ⟨rest', found', after.skipSpace_eq_nil blank⟩

end JsxAudit.Data.Json
