import JsxAudit.Data.JsonReader

/-!
The grammar of JSON, as the standard has it.

`ValueAt cs v rest` says that a value stands at the front of a text, and what follows it; around the
value of a document there is nothing but white space (`Denotes`). Numbers may have any length, and
the words for what is no number are no values. A table is the list of its fields as they are
written.

A text denotes at most one value (`Denotes.unique`).
-/

namespace JsxAudit.Data.Json

variable {cs rest rest' : List Char} {v w : Value}

/-! ### Numbers -/

/-- The value of a number, which is whole if it has neither a fraction nor an exponent. -/
def numberOf (negative : Bool) (whole fraction : List Char) (exponent? : Option Int) : Value :=
  if fraction.isEmpty && exponent?.isNone then
    .int (if negative then -digitsValue whole else digitsValue whole)
  else
    .float (nearestFloat negative (digitsValue (whole ++ fraction))
      (exponent?.getD 0 - fraction.length))

/-- The number without its sign at the front of a text. -/
def magnitude? (negative : Bool) (cs : List Char) : Option (Value × List Char) :=
  match takeWhole cs with
  | ([], _) => none
  | (whole, afterWhole) =>
    let (fraction, afterFraction) := takeFraction afterWhole
    let (exponent?, rest) := takeExponent afterFraction
    some (numberOf negative whole fraction exponent?, rest)

/-- The parts of a number. -/
theorem magnitude?_parts {negative : Bool} (h : magnitude? negative cs = some (v, rest)) :
    ∃ whole after, takeWhole cs = (whole, after) ∧ whole ≠ [] ∧
      v = numberOf negative whole (takeFraction after).1 (takeExponent (takeFraction after).2).1 ∧
      rest = (takeExponent (takeFraction after).2).2 := by
  unfold magnitude? at h
  split at h
  · cases h
  · rename_i whole after some read
    have both := Prod.mk.inj (Option.some.inj h)
    exact ⟨whole, after, read, fun nil => some (by rw [nil]), both.1.symm, both.2.symm⟩

/-- A text that does not go on with a number. -/
def Ends (rest : List Char) : Prop :=
  ∀ c ∈ rest.head?, c.isDigit = false ∧ c ∉ ['.', 'e', 'E', '+', '-']

theorem ends_of_blank (blank : ∀ c ∈ rest, isSpace c = true) : Ends rest := by
  intro c first
  have space := blank c (List.mem_of_mem_head? first)
  simp only [isSpace, Bool.or_eq_true, beq_iff_eq] at space
  rcases space with ((rfl | rfl) | rfl) | rfl <;> decide

theorem takeDigits_of_ends (ends : Ends rest) : takeDigits rest = ([], rest) := by
  cases rest with
  | nil => rfl
  | cons c more => simp [takeDigits, (ends c rfl).1]

theorem takeWhole_of_ends (ends : Ends rest) : takeWhole rest = ([], rest) := by
  unfold takeWhole
  split
  · cases (ends '0' rfl).1
  · exact takeDigits_of_ends ends

theorem takeFraction_of_ends (ends : Ends rest) : takeFraction rest = ([], rest) := by
  unfold takeFraction
  split
  · exact absurd (by decide) (ends '.' rfl).2
  · rfl

theorem takeSign_of_ends (ends : Ends rest) : takeSign rest = (false, rest) := by
  unfold takeSign
  split
  · exact absurd (by decide) (ends '-' rfl).2
  · exact absurd (by decide) (ends '+' rfl).2
  · rfl

theorem takeExponent_of_ends (ends : Ends rest) : takeExponent rest = (none, rest) := by
  cases rest with
  | nil => rfl
  | cons c more =>
    have other := (ends c rfl).2
    simp only [List.mem_cons, not_or] at other
    simp [takeExponent, other.2.1, other.2.2.1]

/-- A number begins with a digit. -/
theorem magnitude?_eq_none {c : Char} {negative : Bool} (other : c.isDigit = false) :
    magnitude? negative (c :: cs) = none := by
  have notZero : c ≠ '0' := by
    rintro rfl
    cases other
  simp [magnitude?, takeWhole, takeDigits, notZero, other]

theorem isDigit_of_magnitude? {negative : Bool} (h : magnitude? negative cs = some (v, rest)) :
    ∃ c more, cs = c :: more ∧ c.isDigit = true := by
  cases cs with
  | nil => cases h
  | cons c more =>
    refine ⟨c, more, rfl, ?_⟩
    rw [← Bool.not_eq_false]
    intro other
    rw [magnitude?_eq_none other] at h
    cases h

/-! ### Values -/

mutual

/-- A value stands at the front of a text, and the rest follows it. -/
inductive ValueAt : List Char → Value → List Char → Prop
  | null (rest : List Char) : ValueAt ('n' :: 'u' :: 'l' :: 'l' :: rest) .null rest
  | true (rest : List Char) : ValueAt ('t' :: 'r' :: 'u' :: 'e' :: rest) (.bool true) rest
  | false (rest : List Char) : ValueAt ('f' :: 'a' :: 'l' :: 's' :: 'e' :: rest) (.bool false) rest
  | number {cs rest : List Char} {v : Value} :
    magnitude? false cs = some (v, rest) → ValueAt cs v rest
  | negative {cs rest : List Char} {v : Value} :
    magnitude? true cs = some (v, rest) → ValueAt ('-' :: cs) v rest
  | string {cs text rest : List Char} :
    readChars cs = some (text, rest) → ValueAt ('"' :: cs) (.str (String.ofList text)) rest
  | emptyList {cs rest : List Char} :
    skipSpace cs = ']' :: rest → ValueAt ('[' :: cs) (.list []) rest
  | list {cs rest : List Char} {items : List Value} :
    ItemsAt (skipSpace cs) items rest → ValueAt ('[' :: cs) (.list items) rest
  | emptyTable {cs rest : List Char} :
    skipSpace cs = '}' :: rest → ValueAt ('{' :: cs) (.table []) rest
  | table {cs rest : List Char} {fields : List (String × Value)} :
    FieldsAt (skipSpace cs) fields rest → ValueAt ('{' :: cs) (.table fields) rest

/-- The items of a list up to its closing bracket. -/
inductive ItemsAt : List Char → List Value → List Char → Prop
  | last {cs mid rest : List Char} {v : Value} :
    ValueAt cs v mid → skipSpace mid = ']' :: rest → ItemsAt cs [v] rest
  | more {cs mid next rest : List Char} {v : Value} {items : List Value} :
    ValueAt cs v mid → skipSpace mid = ',' :: next → ItemsAt (skipSpace next) items rest →
    ItemsAt cs (v :: items) rest

/-- The fields of a table up to its closing brace. -/
inductive FieldsAt : List Char → List (String × Value) → List Char → Prop
  | last {cs name named after mid rest : List Char} {v : Value} :
    readChars cs = some (name, named) → skipSpace named = ':' :: after →
    ValueAt (skipSpace after) v mid → skipSpace mid = '}' :: rest →
    FieldsAt ('"' :: cs) [(String.ofList name, v)] rest
  | more {cs name named after mid next rest : List Char} {v : Value}
    {fields : List (String × Value)} :
    readChars cs = some (name, named) → skipSpace named = ':' :: after →
    ValueAt (skipSpace after) v mid → skipSpace mid = ',' :: next →
    FieldsAt (skipSpace next) fields rest →
    FieldsAt ('"' :: cs) ((String.ofList name, v) :: fields) rest

end

/-- A document says a value: there is white space around it and nothing else. -/
def Denotes (s : String) (v : Value) : Prop :=
  ∃ rest, ValueAt (skipSpace s.toList) v rest ∧ skipSpace rest = []

/-! ### One text, one value -/

/-- What does not begin with a digit is no number. -/
theorem absurd_number {c : Char} {negative : Bool} (other : c.isDigit = false)
    (h : magnitude? negative (c :: cs) = some (v, rest)) {p : Prop} : p := by
  rw [magnitude?_eq_none other] at h
  cases h

/-- No value begins with a closing bracket. -/
theorem ValueAt.not_closing (h : ValueAt (']' :: cs) v rest) : False := by
  cases h with
  | number h => exact absurd_number rfl h

theorem ItemsAt.not_closing {items : List Value} (h : ItemsAt (']' :: cs) items rest) : False := by
  cases h with
  | last first => exact first.not_closing
  | more first => exact first.not_closing

mutual

theorem ValueAt.unique {cs rest rest' : List Char} {v w : Value} :
    ValueAt cs v rest → ValueAt cs w rest' → v = w ∧ rest = rest'
  | .null _, h' => by
    cases h' with
    | null => exact ⟨rfl, rfl⟩
    | number h' => exact absurd_number rfl h'
  | .true _, h' => by
    cases h' with
    | true => exact ⟨rfl, rfl⟩
    | number h' => exact absurd_number rfl h'
  | .false _, h' => by
    cases h' with
    | false => exact ⟨rfl, rfl⟩
    | number h' => exact absurd_number rfl h'
  | .number h, h' => by
    obtain ⟨c, more, rfl, digit⟩ := isDigit_of_magnitude? h
    cases h' with
    | number h' =>
      cases h.symm.trans h'
      exact ⟨rfl, rfl⟩
    | _ => cases digit
  | .negative h, h' => by
    cases h' with
    | negative h' =>
      cases h.symm.trans h'
      exact ⟨rfl, rfl⟩
    | number h' => exact absurd_number rfl h'
  | .string h, h' => by
    cases h' with
    | string h' =>
      cases h.symm.trans h'
      exact ⟨rfl, rfl⟩
    | number h' => exact absurd_number rfl h'
  | .emptyList h, h' => by
    cases h' with
    | emptyList h' =>
      cases h.symm.trans h'
      exact ⟨rfl, rfl⟩
    | list items =>
      rw [h] at items
      exact items.not_closing.elim
    | number h' => exact absurd_number rfl h'
  | .list items, h' => by
    cases h' with
    | emptyList h' =>
      rw [h'] at items
      exact items.not_closing.elim
    | list items' =>
      obtain ⟨rfl, rfl⟩ := items.unique items'
      exact ⟨rfl, rfl⟩
    | number h' => exact absurd_number rfl h'
  | .emptyTable h, h' => by
    cases h' with
    | emptyTable h' =>
      cases h.symm.trans h'
      exact ⟨rfl, rfl⟩
    | table fields =>
      rw [h] at fields
      cases fields
    | number h' => exact absurd_number rfl h'
  | .table fields, h' => by
    cases h' with
    | emptyTable h' =>
      rw [h'] at fields
      cases fields
    | table fields' =>
      obtain ⟨rfl, rfl⟩ := fields.unique fields'
      exact ⟨rfl, rfl⟩
    | number h' => exact absurd_number rfl h'

theorem ItemsAt.unique {cs rest rest' : List Char} {items items' : List Value} :
    ItemsAt cs items rest → ItemsAt cs items' rest' → items = items' ∧ rest = rest'
  | .last first closed, .last first' closed' => by
    obtain ⟨rfl, rfl⟩ := first.unique first'
    cases closed.symm.trans closed'
    exact ⟨rfl, rfl⟩
  | .last first closed, .more first' comma _ => by
    obtain ⟨rfl, rfl⟩ := first.unique first'
    cases closed.symm.trans comma
  | .more first comma _, .last first' closed => by
    obtain ⟨rfl, rfl⟩ := first.unique first'
    cases comma.symm.trans closed
  | .more first comma others, .more first' comma' others' => by
    obtain ⟨rfl, rfl⟩ := first.unique first'
    cases comma.symm.trans comma'
    obtain ⟨rfl, rfl⟩ := others.unique others'
    exact ⟨rfl, rfl⟩

theorem FieldsAt.unique {cs rest rest' : List Char} {fields fields' : List (String × Value)} :
    FieldsAt cs fields rest → FieldsAt cs fields' rest' → fields = fields' ∧ rest = rest'
  | .last name colon first closed, .last name' colon' first' closed' => by
    cases name.symm.trans name'
    cases colon.symm.trans colon'
    obtain ⟨rfl, rfl⟩ := first.unique first'
    cases closed.symm.trans closed'
    exact ⟨rfl, rfl⟩
  | .last name colon first closed, .more name' colon' first' comma _ => by
    cases name.symm.trans name'
    cases colon.symm.trans colon'
    obtain ⟨rfl, rfl⟩ := first.unique first'
    cases closed.symm.trans comma
  | .more name colon first comma _, .last name' colon' first' closed => by
    cases name.symm.trans name'
    cases colon.symm.trans colon'
    obtain ⟨rfl, rfl⟩ := first.unique first'
    cases comma.symm.trans closed
  | .more name colon first comma others, .more name' colon' first' comma' others' => by
    cases name.symm.trans name'
    cases colon.symm.trans colon'
    obtain ⟨rfl, rfl⟩ := first.unique first'
    cases comma.symm.trans comma'
    obtain ⟨rfl, rfl⟩ := others.unique others'
    exact ⟨rfl, rfl⟩

end

/-- A text denotes at most one value. -/
theorem Denotes.unique {s : String} (h : Denotes s v) (h' : Denotes s w) : v = w := by
  obtain ⟨rest, found, -⟩ := h
  obtain ⟨rest', found', -⟩ := h'
  exact (found.unique found').1

end JsxAudit.Data.Json
