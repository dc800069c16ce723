import JsxAudit.Proofs.Data.JsonSpacing
import JsxAudit.Text.Blank

/-!
The characters that a document is made of.

Outside of strings there is no slash in a document, its blanks are white space of JSON, and no comma
stands in front of a closing bracket; its strings end on the line on which they begin. `Tidy` says
so of a text from a place on, and `Denotes.tidy` that it holds of every document, by induction on
its value.
-/

namespace JsxAudit.Data.Json

variable {cs rest : List Char} {c : Char} {v : Value} {strict : Bool}

/-- A character that may stand outside of strings. -/
def isCode (c : Char) : Bool :=
  c != '"' && c != '/' && (!Text.isBlank c || isSpace c)

theorem isCode_iff : isCode c = true ↔
    c ≠ '"' ∧ c ≠ '/' ∧ (Text.isBlank c = true → isSpace c = true) := by
  cases blank : Text.isBlank c <;> simp [isCode, blank, and_assoc]

/-- The text, white space apart, does not begin with a closing bracket. -/
def GoesOn (cs : List Char) : Prop :=
  ∀ c ∈ (skipSpace cs).head?, c ≠ ']' ∧ c ≠ '}'

/-- A text that may go on from a place of a document. Commas in front of closing brackets are left
out of account unless it is `strict`. -/
inductive Tidy (strict : Bool) : Part → List Char → Prop
  | finish : Tidy strict .code []
  | char {c : Char} {cs : List Char} : isCode c = true →
    (strict = true → c = ',' → GoesOn cs) → Tidy strict .code cs → Tidy strict .code (c :: cs)
  | opening {cs : List Char} : Tidy strict .string cs → Tidy strict .code ('"' :: cs)
  | closing {cs : List Char} : Tidy strict .code cs → Tidy strict .string ('"' :: cs)
  | escape {c : Char} {cs : List Char} : c ≠ '\n' → Tidy strict .string cs →
    Tidy strict .string ('\\' :: c :: cs)
  | inside {c : Char} {cs : List Char} : c ≠ '"' → c ≠ '\\' → c ≠ '\n' → Tidy strict .string cs →
    Tidy strict .string (c :: cs)

namespace Tidy

/-! ### Words and white space -/

theorem cons (code : isCode c = true) (other : c ≠ ',') (h : Tidy strict .code cs) :
    Tidy strict .code (c :: cs) :=
  .char code (fun _ eq => absurd eq other) h

theorem append {word : List Char} (code : ∀ c ∈ word, isCode c = true ∧ c ≠ ',')
    (h : Tidy strict .code cs) : Tidy strict .code (word ++ cs) := by
  induction word with
  | nil => exact h
  | cons c word ih =>
    obtain ⟨first, others⟩ := List.forall_mem_cons.mp code
    exact cons first.1 first.2 (ih others)

theorem of_skipSpace (h : Tidy strict .code (skipSpace cs)) : Tidy strict .code cs := by
  rw [← List.takeWhile_append_dropWhile (p := isSpace) (l := cs)]
  refine append (fun c mem => ?_) h
  have blank := List.mem_takeWhile_imp mem
  simp only [isSpace, Bool.or_eq_true, beq_iff_eq] at blank
  rcases blank with ((rfl | rfl) | rfl) | rfl <;> decide

/-- White space, and a character after it. -/
theorem of_skipSpace_cons (found : skipSpace cs = c :: rest) (code : isCode c = true)
    (other : c ≠ ',') (h : Tidy strict .code rest) : Tidy strict .code cs :=
  of_skipSpace (found ▸ cons code other h)

theorem of_skipSpace_comma (found : skipSpace cs = ',' :: rest) (goes : GoesOn rest)
    (h : Tidy strict .code rest) : Tidy strict .code cs :=
  of_skipSpace (found ▸ char rfl (fun _ _ => goes) h)

/-! ### Strings -/

/-- In a string, what begins no escape stands for itself. -/
theorem of_inside (h : Tidy strict .string (c :: cs)) (quote : c ≠ '"')
    (single : c = '\\' → cs = []) : c ≠ '\\' ∧ c ≠ '\n' ∧ Tidy strict .string cs := by
  cases h with
  | closing => exact absurd rfl quote
  | escape => cases single rfl
  | inside _ slash line h => exact ⟨slash, line, h⟩

theorem of_hexUnit? {a b c d : Char} {n : Nat} (unit : hexUnit? a b c d = some n)
    (h : Tidy strict .string cs) : Tidy strict .string (a :: b :: c :: d :: cs) := by
  have digit {c : Char} {n : Nat} (value : hexValue? c = some n) :
      c ≠ '"' ∧ c ≠ '\\' ∧ c ≠ '\n' := by
    refine ⟨?_, ?_, ?_⟩ <;> rintro rfl <;> cases value
  have cons {c : Char} {n : Nat} {cs : List Char} (value : hexValue? c = some n)
      (h : Tidy strict .string cs) : Tidy strict .string (c :: cs) :=
    .inside (digit value).1 (digit value).2.1 (digit value).2.2 h
  simp only [hexUnit?, Option.bind_eq_bind, Option.bind_eq_some_iff] at unit
  obtain ⟨_, first, _, second, _, third, _, fourth, -⟩ := unit
  exact cons first (cons second (cons third (cons fourth h)))

theorem of_unit {a b c d : Char} {n : Nat} (unit : hexUnit? a b c d = some n)
    (h : Tidy strict .string cs) :
    Tidy strict .string ('\\' :: 'u' :: a :: b :: c :: d :: cs) :=
  .escape (by decide) (of_hexUnit? unit h)

theorem of_readChars {text : List Char} (read : readChars cs = some (text, rest))
    (h : Tidy strict .code rest) : Tidy strict .string cs := by
  rw [readChars_eq_some_iff] at read
  induction read with
  | closing => exact .closing h
  | @plain c _ _ _ control quote slash _ ih =>
    have line : c ≠ '\n' := by
      rintro rfl
      exact control (by decide)
    exact .inside quote slash line (ih h)
  | @letter c _ _ _ _ known _ ih =>
    have line : c ≠ '\n' := by
      rintro rfl
      cases known
    exact .escape line (ih h)
  | unit unit _ _ ih => exact of_unit unit (ih h)
  | pair first second _ _ ih => exact of_unit first (of_unit second (ih h))

/-! ### Numbers -/

theorem of_takeDigits (h : Tidy strict .code (takeDigits cs).2) : Tidy strict .code cs := by
  rw [← List.takeWhile_append_dropWhile (p := Char.isDigit) (l := cs)]
  refine append (fun c mem => ?_) h
  have digit := List.mem_takeWhile_imp mem
  have range : 48 ≤ c.toNat ∧ c.toNat ≤ 57 := Char.isDigit_iff_toNat.mp digit
  have other : c ≠ '"' ∧ c ≠ '/' ∧ c ≠ ',' := by
    refine ⟨?_, ?_, ?_⟩ <;> rintro rfl <;> cases digit
  have seen : Text.isBlank c = false := by
    simp only [Text.isBlank, Bool.or_eq_false_iff, Bool.and_eq_false_iff, decide_eq_false_iff_not,
      beq_eq_false_iff_ne]
    omega
  exact ⟨by simp [isCode, other.1, other.2.1, seen], other.2.2⟩

theorem of_takeWhole (h : Tidy strict .code (takeWhole cs).2) : Tidy strict .code cs := by
  unfold takeWhole at h
  split at h
  · exact cons rfl (by decide) h
  · exact of_takeDigits h

theorem of_takeFraction (h : Tidy strict .code (takeFraction cs).2) : Tidy strict .code cs := by
  unfold takeFraction at h
  split at h
  · split at h
    · exact h
    · rename_i eq
      refine cons rfl (by decide) (of_takeDigits ?_)
      rw [eq]
      exact h
  · exact h

theorem of_takeSign (h : Tidy strict .code (takeSign cs).2) : Tidy strict .code cs := by
  unfold takeSign at h
  split at h
  · exact cons rfl (by decide) h
  · exact cons rfl (by decide) h
  · exact h

theorem of_takeExponent (h : Tidy strict .code (takeExponent cs).2) : Tidy strict .code cs := by
  unfold takeExponent at h
  split at h
  · rename_i mark more
    split at h
    · rename_i known
      dsimp only at h
      split at h
      · exact h
      · rename_i eq
        have code : isCode mark = true ∧ mark ≠ ',' := by
          rw [Bool.or_eq_true, beq_iff_eq, beq_iff_eq] at known
          rcases known with rfl | rfl <;> decide
        refine cons code.1 code.2 (of_takeSign (of_takeDigits ?_))
        rw [eq]
        exact h
    · exact h
  · exact h

theorem of_magnitude? {negative : Bool} (read : magnitude? negative cs = some (v, rest))
    (h : Tidy strict .code rest) : Tidy strict .code cs := by
  obtain ⟨whole, after, taken, some, rfl, rfl⟩ := magnitude?_parts read
  refine of_takeWhole ?_
  rw [taken]
  exact of_takeFraction (of_takeExponent h)

end Tidy

/-! ### Values -/

theorem ValueAt.opens (h : ValueAt cs v rest) : ∀ c ∈ cs.head?, c ≠ ']' ∧ c ≠ '}' := by
  have brace {cs rest : List Char} {v : Value} (h : ValueAt ('}' :: cs) v rest) : False := by
    cases h with
    | number h => exact absurd_number rfl h
  intro c first
  cases cs with
  | nil => cases first
  | cons d cs =>
    cases first
    constructor <;> rintro rfl
    · exact h.not_closing
    · exact brace h

theorem ItemsAt.opens {items : List Value} (h : ItemsAt cs items rest) :
    ∀ c ∈ cs.head?, c ≠ ']' ∧ c ≠ '}' := by
  cases h with
  | last first => exact first.opens
  | more first => exact first.opens

theorem FieldsAt.opens {fields : List (String × Value)} (h : FieldsAt cs fields rest) :
    ∀ c ∈ cs.head?, c ≠ ']' ∧ c ≠ '}' := by
  intro c first
  cases h <;> cases first <;> decide

mutual

theorem ValueAt.tidy {cs rest : List Char} {v : Value} : ValueAt cs v rest →
    Tidy strict .code rest → Tidy strict .code cs
  | .null rest, h => by
    have word : Tidy strict .code (['n', 'u', 'l', 'l'] ++ rest) :=
      Tidy.append (by simp [isCode, Text.isBlank]) h
    exact word
  | .true rest, h => by
    have word : Tidy strict .code (['t', 'r', 'u', 'e'] ++ rest) :=
      Tidy.append (by simp [isCode, Text.isBlank]) h
    exact word
  | .false rest, h => by
    have word : Tidy strict .code (['f', 'a', 'l', 's', 'e'] ++ rest) :=
      Tidy.append (by simp [isCode, Text.isBlank]) h
    exact word
  | .number read, h => h.of_magnitude? read
  | .negative read, h => .cons rfl (by decide) (h.of_magnitude? read)
  | .string read, h => .opening (h.of_readChars read)
  | .emptyList closed, h => .cons rfl (by decide) (h.of_skipSpace_cons closed rfl (by decide))
  | .list items, h => .cons rfl (by decide) (items.tidy h).of_skipSpace
  | .emptyTable closed, h => .cons rfl (by decide) (h.of_skipSpace_cons closed rfl (by decide))
  | .table fields, h => .cons rfl (by decide) (fields.tidy h).of_skipSpace

theorem ItemsAt.tidy {cs rest : List Char} {items : List Value} : ItemsAt cs items rest →
    Tidy strict .code rest → Tidy strict .code cs
  | .last first closed, h => first.tidy (h.of_skipSpace_cons closed rfl (by decide))
  | .more first comma others, h =>
    first.tidy ((others.tidy h).of_skipSpace.of_skipSpace_comma comma others.opens)

theorem FieldsAt.tidy {cs rest : List Char} {fields : List (String × Value)} :
    FieldsAt cs fields rest → Tidy strict .code rest → Tidy strict .code cs
  | .last name colon first closed, h => by
    have value := first.tidy (h.of_skipSpace_cons closed rfl (by decide))
    have named := value.of_skipSpace.of_skipSpace_cons colon rfl (by decide)
    exact .opening (named.of_readChars name)
  | .more name colon first comma others, h => by
    have value := first.tidy ((others.tidy h).of_skipSpace.of_skipSpace_comma comma others.opens)
    have named := value.of_skipSpace.of_skipSpace_cons colon rfl (by decide)
    exact .opening (named.of_readChars name)

end

/-- Every document is tidy. -/
theorem Denotes.tidy {s : String} (h : Denotes s v) : Tidy strict .code s.toList := by
  obtain ⟨rest, found, blank⟩ := h
  have after : Tidy strict .code rest := by
    refine Tidy.of_skipSpace ?_
    rw [blank]
    exact .finish
  exact (found.tidy after).of_skipSpace

end JsxAudit.Data.Json
