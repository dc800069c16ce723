import JsxAudit.Proofs.Data.JsonGrammar
import JsxAudit.Proofs.Data.JsonString
import Mathlib.Data.List.Nodup
import Mathlib.Data.List.TakeWhile
import Mathlib.Tactic.Ring

/-!
The reader of JSON follows the grammar.

It takes a document for what it denotes (`read?_of_denotes`) unless a whole number is too long for
it. Of fields with one name it keeps the last one (`settled`). Its fuel is enough because every
value, item and field takes away some of the text. Whether a document is nested too deeply is told by
the levels of what it denotes (`tooDeep_of_denotes`).
-/

namespace JsxAudit.Data.Json

variable {cs rest : List Char} {v : Value}

/-! ### What is left -/

theorem length_skipSpace_le (cs : List Char) : (skipSpace cs).length ≤ cs.length :=
  (List.dropWhile_suffix _).length_le

theorem length_of_readChars {text : List Char} (read : readChars cs = some (text, rest)) :
    rest.length < cs.length := by
  rw [readChars_eq_some_iff] at read
  induction read with
  | closing => exact Nat.lt_succ_self _
  | _ =>
    simp only [List.length_cons]
    omega

theorem length_takeDigits_le (cs : List Char) : (takeDigits cs).2.length ≤ cs.length :=
  (List.dropWhile_suffix _).length_le

theorem length_takeFraction_le (cs : List Char) : (takeFraction cs).2.length ≤ cs.length := by
  unfold takeFraction
  split
  · rename_i after
    have left := length_takeDigits_le after
    split
    · exact Nat.le_refl _
    · rename_i eq
      rw [eq] at left
      exact Nat.le_succ_of_le left
  · exact Nat.le_refl _

theorem length_takeSign_le (cs : List Char) : (takeSign cs).2.length ≤ cs.length := by
  unfold takeSign
  split <;> simp

theorem length_takeExponent_le (cs : List Char) : (takeExponent cs).2.length ≤ cs.length := by
  unfold takeExponent
  split
  · rename_i mark after
    split
    · have sign := length_takeSign_le after
      have left := length_takeDigits_le (takeSign after).2
      dsimp only
      split
      · exact Nat.le_refl _
      · rename_i eq
        rw [eq] at left
        exact Nat.le_succ_of_le (Nat.le_trans left sign)
    · exact Nat.le_refl _
  · exact Nat.le_refl _

/-! ### Numbers -/

theorem digitsValue_cons (c : Char) (cs : List Char) :
    digitsValue (c :: cs) = (c.toNat - 48) * 10 ^ cs.length + digitsValue cs := by
  have after (n : Nat) : cs.foldl (fun n c => 10 * n + (c.toNat - 48)) n =
      n * 10 ^ cs.length + digitsValue cs := by
    induction cs generalizing n with
    | nil => simp [digitsValue]
    | cons d cs ih =>
      rw [digitsValue, List.foldl_cons, List.foldl_cons, ih, ih (10 * 0 + _), List.length_cons,
        Nat.pow_succ]
      ring
  rw [digitsValue, List.foldl_cons, after, Nat.mul_zero, Nat.zero_add]

/-- Digits without a zero in front are as many as their number has. -/
theorem length_whole_le {whole : List Char} (read : takeWhole cs = (whole, rest)) {k : Nat}
    (pos : 0 < k) (short : (Nat.toDigits 10 (digitsValue whole)).length ≤ k) : whole.length ≤ k := by
  unfold takeWhole at read
  split at read
  · cases read
    exact pos
  · rename_i other
    obtain ⟨rfl, -⟩ := Prod.mk.inj read
    cases cs with
    | nil => exact Nat.zero_le k
    | cons c more =>
      by_cases digit : c.isDigit = true
      · have visible : c ≠ '0' := fun zero => other more (by rw [zero])
        rw [List.takeWhile_cons_of_pos digit] at short ⊢
        rw [Nat.length_toDigits_le_iff (by decide) pos, digitsValue_cons] at short
        have first : 1 ≤ c.toNat - 48 := by
          have range : 48 ≤ c.toNat := (Char.isDigit_iff_toNat.mp digit).1
          have other : c.toNat ≠ 48 := fun eq => visible (by rw [← Char.ofNat_toNat c, eq])
          omega
        have power : 10 ^ (more.takeWhile Char.isDigit).length < 10 ^ k :=
          Nat.lt_of_le_of_lt (Nat.le_trans (Nat.le_mul_of_pos_left _ first) (Nat.le_add_right _ _))
            short
        exact (Nat.pow_lt_pow_iff_right (by decide)).mp power
      · rw [List.takeWhile_cons_of_neg digit]
        exact Nat.zero_le k

theorem number_of_magnitude? {negative : Bool} (h : magnitude? negative cs = some (v, rest)) :
    (∃ n, v = .int n) ∨ ∃ x, v = .float x := by
  obtain ⟨whole, after, -, -, rfl, -⟩ := magnitude?_parts h
  unfold numberOf
  split
  · exact .inl ⟨_, rfl⟩
  · exact .inr ⟨_, rfl⟩

/-! ### What a reader keeps -/

/-- Whole numbers in the value are not too long for a reader. -/
inductive Short : Value → Prop
  | null : Short .null
  | bool (b : Bool) : Short (.bool b)
  | int {n : Int} : (Nat.toDigits 10 n.natAbs).length ≤ maxDigits → Short (.int n)
  | float (x : Float) : Short (.float x)
  | str (s : String) : Short (.str s)
  | list {items : List Value} : (∀ v ∈ items, Short v) → Short (.list items)
  | table {fields : List (String × Value)} : (∀ field ∈ fields, Short field.2) →
      Short (.table fields)

mutual

/-- The value with the last one of the fields that have one name, at the place of the first. -/
def settled : Value → Value
  | .list items => .list (settledItems items)
  | .table fields => .table (Keyed.ofList (settledFields fields))
  | .null => .null
  | .bool b => .bool b
  | .int n => .int n
  | .float x => .float x
  | .str s => .str s

def settledItems : List Value → List Value
  | [] => []
  | v :: rest => settled v :: settledItems rest

def settledFields : List (String × Value) → List (String × Value)
  | [] => []
  | (name, v) :: rest => (name, settled v) :: settledFields rest

end

/-- A number that is not too long is read. -/
theorem readMagnitude_of_magnitude? {negative : Bool} (h : magnitude? negative cs = some (v, rest))
    (short : Short v) : readMagnitude negative cs = some (v, rest) := by
  obtain ⟨whole, after, read, some, value, rfl⟩ := magnitude?_parts h
  have fits : (takeFraction after).1.isEmpty && (takeExponent (takeFraction after).2).1.isNone →
      whole.length ≤ maxDigits := by
    intro simple
    have int : v = .int (if negative then -digitsValue whole else digitsValue whole) := by
      rw [value, numberOf, if_pos simple]
    rw [int] at short
    cases short with
    | int short =>
      refine length_whole_le read (by decide) ?_
      split at short
      · rwa [Int.natAbs_neg, Int.natAbs_natCast] at short
      · rwa [Int.natAbs_natCast] at short
  unfold readMagnitude
  rw [read]
  split
  · rename_i none
    exact absurd (Prod.mk.inj none).1 some
  · rename_i same
    cases same
    dsimp only
    rw [value, numberOf]
    split
    · rename_i simple
      rw [if_pos (fits simple)]
    · rfl

theorem length_takeWhole (cs : List Char) :
    (takeWhole cs).1.length + (takeWhole cs).2.length = cs.length := by
  unfold takeWhole
  split
  · exact Nat.add_comm _ _
  · rw [takeDigits, ← List.length_append, List.takeWhile_append_dropWhile]

theorem length_of_magnitude? {negative : Bool} (h : magnitude? negative cs = some (v, rest)) :
    rest.length < cs.length := by
  obtain ⟨whole, after, read, some, -, rfl⟩ := magnitude?_parts h
  have all := length_takeWhole cs
  rw [read] at all
  have pos : 0 < whole.length := List.length_pos_iff.mpr some
  have fraction := length_takeFraction_le after
  have exponent := length_takeExponent_le (takeFraction after).2
  dsimp only at all
  omega

theorem settled_of_magnitude? {negative : Bool} (h : magnitude? negative cs = some (v, rest)) :
    settled v = v := by
  rcases number_of_magnitude? h with ⟨n, rfl⟩ | ⟨x, rfl⟩
  · rw [settled]
  · rw [settled]

theorem readValue_of_isDigit {c : Char} (fuel : Nat) (h : c.isDigit = true) :
    readValue (fuel + 1) (c :: cs) = readMagnitude false (c :: cs) := by
  rw [readValue]
  all_goals
    intros
    rename_i eq
    obtain ⟨rfl, -⟩ := List.cons.inj eq
    cases h

theorem readValue_minus {c : Char} (fuel : Nat) (h : c.isDigit = true) :
    readValue (fuel + 1) ('-' :: c :: cs) = readMagnitude true (c :: cs) := by
  rw [readValue]
  intro rest eq
  cases eq
  cases h

/-- What stands behind a separator is shorter than what the separator follows. -/
theorem length_of_separator {c : Char} {mid next : List Char}
    (separator : skipSpace mid = c :: next) : next.length < mid.length := by
  have left := length_skipSpace_le mid
  rwa [separator, List.length_cons, Nat.succ_le_iff] at left

/-- The value of a field is shorter than the field behind its opening quote. -/
theorem length_of_named {name named after : List Char} (read : readChars cs = some (name, named))
    (colon : skipSpace named = ':' :: after) : (skipSpace after).length < cs.length := by
  have front := length_of_readChars read
  have behind := length_of_separator colon
  have space := length_skipSpace_le after
  omega

mutual

/-- A value takes at least one character. -/
theorem ValueAt.length_lt {cs rest : List Char} {v : Value} :
    ValueAt cs v rest → rest.length < cs.length
  | .null _ => by simp only [List.length_cons]; omega
  | .true _ => by simp only [List.length_cons]; omega
  | .false _ => by simp only [List.length_cons]; omega
  | .number h => length_of_magnitude? h
  | .negative h => Nat.lt_succ_of_lt (length_of_magnitude? h)
  | .string h => Nat.lt_succ_of_lt (length_of_readChars h)
  | @ValueAt.emptyList cs _ h => by
    have left := length_skipSpace_le cs
    rw [h, List.length_cons] at left
    exact Nat.lt_succ_of_lt left
  | @ValueAt.list cs _ _ items =>
    Nat.lt_succ_of_lt (Nat.lt_of_lt_of_le items.length_lt (length_skipSpace_le cs))
  | @ValueAt.emptyTable cs _ h => by
    have left := length_skipSpace_le cs
    rw [h, List.length_cons] at left
    exact Nat.lt_succ_of_lt left
  | @ValueAt.table cs _ _ fields =>
    Nat.lt_succ_of_lt (Nat.lt_of_lt_of_le fields.length_lt (length_skipSpace_le cs))

theorem ItemsAt.length_lt {cs rest : List Char} {items : List Value} :
    ItemsAt cs items rest → rest.length < cs.length
  | .last first closed => Nat.lt_trans (length_of_separator closed) first.length_lt
  | @ItemsAt.more _ _ next _ _ _ first comma others => by
    have behind := length_of_separator comma
    have value := first.length_lt
    have more := others.length_lt
    have space := length_skipSpace_le next
    omega

theorem FieldsAt.length_lt {cs rest : List Char} {fields : List (String × Value)} :
    FieldsAt cs fields rest → rest.length < cs.length
  | .last name colon first closed => by
    have named := length_of_named name colon
    have value := first.length_lt
    have behind := length_of_separator closed
    simp only [List.length_cons]
    omega
  | @FieldsAt.more _ _ _ _ _ next _ _ _ name colon first comma others => by
    have named := length_of_named name colon
    have value := first.length_lt
    have behind := length_of_separator comma
    have more := others.length_lt
    have space := length_skipSpace_le next
    simp only [List.length_cons]
    omega

end

/-- Fuel for a list or a table is fuel for its first part. -/
theorem fuel_first {c : Char} {mid next : List Char} {fuel n : Nat}
    (separator : skipSpace mid = c :: next) (left : rest.length ≤ next.length)
    (enough : n < fuel + 1 + rest.length) : n < fuel + mid.length := by
  have behind := length_of_separator separator
  omega

/-- Fuel for a list or a table is fuel for the other parts. -/
theorem fuel_others {c : Char} {mid next : List Char} {fuel n : Nat} (first : mid.length < n)
    (separator : skipSpace mid = c :: next) (enough : n < fuel + 1 + rest.length) :
    (skipSpace next).length < fuel + rest.length := by
  have behind := length_of_separator separator
  have space := length_skipSpace_le next
  omega

/-- What follows the parts behind a separator is no longer than they are. -/
theorem ItemsAt.rest_le {next rest : List Char} {items : List Value}
    (others : ItemsAt (skipSpace next) items rest) : rest.length ≤ next.length :=
  (others.length_lt.trans_le (length_skipSpace_le next)).le

theorem FieldsAt.rest_le {next rest : List Char} {fields : List (String × Value)}
    (others : FieldsAt (skipSpace next) fields rest) : rest.length ≤ next.length :=
  (others.length_lt.trans_le (length_skipSpace_le next)).le

mutual

/-- The reader takes a value for what it is, if there is fuel for its characters. -/
theorem ValueAt.readValue_eq {cs rest : List Char} {v : Value} : ValueAt cs v rest → Short v →
    ∀ {fuel : Nat}, cs.length < fuel + rest.length → readValue fuel cs = some (settled v, rest)
  | h, _, 0, enough => by
    have := h.length_lt
    omega
  | .null _, _, _ + 1, _ => by simp [readValue, settled]
  | .true _, _, _ + 1, _ => by simp [readValue, settled]
  | .false _, _, _ + 1, _ => by simp [readValue, settled]
  | .number h, short, fuel + 1, _ => by
    obtain ⟨c, more, rfl, digit⟩ := isDigit_of_magnitude? h
    rw [readValue_of_isDigit fuel digit, readMagnitude_of_magnitude? h short,
      settled_of_magnitude? h]
  | .negative h, short, fuel + 1, _ => by
    obtain ⟨c, more, rfl, digit⟩ := isDigit_of_magnitude? h
    rw [readValue_minus fuel digit, readMagnitude_of_magnitude? h short, settled_of_magnitude? h]
  | .string h, _, _ + 1, _ => by simp [readValue, h, settled]
  | .emptyList h, _, _ + 1, _ => by simp [readValue, h, settled, settledItems]
  | @ValueAt.list cs _ _ items, .list short, fuel + 1, enough => by
    have space := length_skipSpace_le cs
    simp only [List.length_cons] at enough
    have read := items.readItems_eq short (show (skipSpace cs).length < fuel + rest.length by omega)
    rw [readValue]
    split
    · rename_i closed
      rw [closed] at items
      exact items.not_closing.elim
    · rw [read, settled]
      rfl
  | .emptyTable h, _, _ + 1, _ => by simp [readValue, h, settled, settledFields, Keyed.ofList]
  | @ValueAt.table cs _ _ fields, .table short, fuel + 1, enough => by
    have space := length_skipSpace_le cs
    simp only [List.length_cons] at enough
    have read := fields.readFields_eq short
      (show (skipSpace cs).length < fuel + rest.length by omega)
    rw [readValue]
    split
    · rename_i closed
      rw [closed] at fields
      cases fields
    · rw [read, settled]
      rfl

theorem ItemsAt.readItems_eq {cs rest : List Char} {items : List Value} : ItemsAt cs items rest →
    (∀ v ∈ items, Short v) → ∀ {fuel : Nat}, cs.length < fuel + rest.length →
    readItems fuel cs = some (settledItems items, rest)
  | h, _, 0, enough => by
    have := h.length_lt
    omega
  | .last first closed, short, fuel + 1, enough => by
    have read := first.readValue_eq (short _ List.mem_cons_self)
      (fuel_first closed (Nat.le_refl _) enough)
    simp [readItems, read, closed, settledItems]
  | .more first comma others, short, fuel + 1, enough => by
    have read := first.readValue_eq (short _ List.mem_cons_self)
      (fuel_first comma others.rest_le enough)
    have readMore := others.readItems_eq (List.forall_mem_cons.mp short).2
      (fuel_others first.length_lt comma enough)
    simp [readItems, read, comma, readMore, settledItems]

theorem FieldsAt.readFields_eq {cs rest : List Char} {fields : List (String × Value)} :
    FieldsAt cs fields rest → (∀ field ∈ fields, Short field.2) → ∀ {fuel : Nat},
    cs.length < fuel + rest.length → readFields fuel cs = some (settledFields fields, rest)
  | h, _, 0, enough => by
    have := h.length_lt
    omega
  | .last name colon first closed, short, fuel + 1, enough => by
    have enough' := Nat.lt_trans (Nat.lt_succ_of_lt (length_of_named name colon)) enough
    have value := first.readValue_eq (short _ List.mem_cons_self)
      (fuel_first closed (Nat.le_refl _) enough')
    simp [readFields, name, colon, value, closed, settledFields]
  | .more name colon first comma others, short, fuel + 1, enough => by
    have enough' := Nat.lt_trans (Nat.lt_succ_of_lt (length_of_named name colon)) enough
    have value := first.readValue_eq (short _ List.mem_cons_self)
      (fuel_first comma others.rest_le enough')
    have readMore := others.readFields_eq (List.forall_mem_cons.mp short).2
      (fuel_others first.length_lt comma enough')
    simp [readFields, name, colon, value, comma, readMore, settledFields]

end

/-- The reader takes a document for the value that it denotes. -/
theorem read?_of_denotes {s : String} (h : Denotes s v) (short : Short v) :
    read? s = some (settled v) := by
  obtain ⟨rest, found, blank⟩ := h
  have space := length_skipSpace_le s.toList
  have read := found.readValue_eq short
    (show (skipSpace s.toList).length < s.toList.length + 1 + rest.length by omega)
  simp [read?, read, blank]

/-! ### Nesting -/

mutual

/-- How many brackets stand inside each other. -/
def depth : Value → Nat
  | .list items => depthItems items + 1
  | .table fields => depthFields fields + 1
  | .null | .bool _ | .int _ | .float _ | .str _ => 0

def depthItems : List Value → Nat
  | [] => 0
  | v :: rest => max (depth v) (depthItems rest)

def depthFields : List (String × Value) → Nat
  | [] => 0
  | (_, v) :: rest => max (depth v) (depthFields rest)

end

theorem depth_of_magnitude? {negative : Bool} (h : magnitude? negative cs = some (v, rest)) :
    depth v = 0 := by
  rcases number_of_magnitude? h with ⟨n, rfl⟩ | ⟨x, rfl⟩
  · rw [depth]
  · rw [depth]

theorem valueTooDeep_of_isDigit {c : Char} (fuel room : Nat) (h : c.isDigit = true) :
    valueTooDeep fuel room (c :: cs) = false := by
  cases fuel with
  | zero => rfl
  | succ fuel =>
    rw [valueTooDeep]
    all_goals
      rintro more eq
      obtain ⟨rfl, -⟩ := List.cons.inj eq
      cases h

mutual

/-- A value is too deep for the room if it has more levels than that. -/
theorem ValueAt.tooDeep_eq {cs rest : List Char} {v : Value} : ValueAt cs v rest → Short v →
    ∀ {fuel : Nat} (room : Nat), cs.length < fuel + rest.length →
    valueTooDeep fuel room cs = decide (room < depth v)
  | h, _, 0, _, enough => by
    have := h.length_lt
    omega
  | .null _, _, _ + 1, _, _ => by simp [valueTooDeep, depth]
  | .true _, _, _ + 1, _, _ => by simp [valueTooDeep, depth]
  | .false _, _, _ + 1, _, _ => by simp [valueTooDeep, depth]
  | .number h, _, _ + 1, _, _ => by
    obtain ⟨c, more, rfl, digit⟩ := isDigit_of_magnitude? h
    rw [valueTooDeep_of_isDigit _ _ digit, depth_of_magnitude? h]
    simp
  | .negative h, _, _ + 1, _, _ => by simp [valueTooDeep, depth_of_magnitude? h]
  | .string h, _, _ + 1, _, _ => by simp [valueTooDeep, depth]
  | .emptyList h, _, _ + 1, 0, _ => by simp [valueTooDeep, depth]
  | .emptyList h, _, _ + 1, _ + 1, _ => by simp [valueTooDeep, h, depth, depthItems]
  | .list _, _, _ + 1, 0, _ => by simp [valueTooDeep, depth]
  | @ValueAt.list cs _ _ items, .list short, fuel + 1, room + 1, enough => by
    have space := length_skipSpace_le cs
    simp only [List.length_cons] at enough
    have inside := items.tooDeep_eq short room
      (show (skipSpace cs).length < fuel + rest.length by omega)
    rw [valueTooDeep]
    split
    · rename_i closed
      rw [closed] at items
      exact items.not_closing.elim
    · simp [inside, depth]
  | .emptyTable h, _, _ + 1, 0, _ => by simp [valueTooDeep, depth]
  | .emptyTable h, _, _ + 1, _ + 1, _ => by simp [valueTooDeep, h, depth, depthFields]
  | .table _, _, _ + 1, 0, _ => by simp [valueTooDeep, depth]
  | @ValueAt.table cs _ _ fields, .table short, fuel + 1, room + 1, enough => by
    have space := length_skipSpace_le cs
    simp only [List.length_cons] at enough
    have inside := fields.tooDeep_eq short room
      (show (skipSpace cs).length < fuel + rest.length by omega)
    rw [valueTooDeep]
    split
    · rename_i closed
      rw [closed] at fields
      cases fields
    · simp [inside, depth]

theorem ItemsAt.tooDeep_eq {cs rest : List Char} {items : List Value} : ItemsAt cs items rest →
    (∀ v ∈ items, Short v) → ∀ {fuel : Nat} (room : Nat), cs.length < fuel + rest.length →
    itemsTooDeep fuel room cs = decide (room < depthItems items)
  | h, _, 0, _, enough => by
    have := h.length_lt
    omega
  | .last first closed, short, fuel + 1, room, enough => by
    have own := short _ List.mem_cons_self
    have enough' := fuel_first closed (Nat.le_refl _) enough
    simp [itemsTooDeep, first.tooDeep_eq own room enough', first.readValue_eq own enough', closed,
      depthItems]
  | .more first comma others, short, fuel + 1, room, enough => by
    have own := short _ List.mem_cons_self
    have enough' := fuel_first comma others.rest_le enough
    have after := others.tooDeep_eq (List.forall_mem_cons.mp short).2 room
      (fuel_others first.length_lt comma enough)
    simp [itemsTooDeep, first.tooDeep_eq own room enough', first.readValue_eq own enough', comma,
      after, depthItems]

theorem FieldsAt.tooDeep_eq {cs rest : List Char} {fields : List (String × Value)} :
    FieldsAt cs fields rest → (∀ field ∈ fields, Short field.2) → ∀ {fuel : Nat} (room : Nat),
    cs.length < fuel + rest.length →
    fieldsTooDeep fuel room cs = decide (room < depthFields fields)
  | h, _, 0, _, enough => by
    have := h.length_lt
    omega
  | .last name colon first closed, short, fuel + 1, room, enough => by
    have own := short _ List.mem_cons_self
    have inside := Nat.lt_trans (Nat.lt_succ_of_lt (length_of_named name colon)) enough
    have enough' := fuel_first closed (Nat.le_refl _) inside
    simp [fieldsTooDeep, name, colon, first.tooDeep_eq own room enough',
      first.readValue_eq own enough', closed, depthFields]
  | .more name colon first comma others, short, fuel + 1, room, enough => by
    have own := short _ List.mem_cons_self
    have inside := Nat.lt_trans (Nat.lt_succ_of_lt (length_of_named name colon)) enough
    have enough' := fuel_first comma others.rest_le inside
    have after := others.tooDeep_eq (List.forall_mem_cons.mp short).2 room
      (fuel_others first.length_lt comma inside)
    simp [fieldsTooDeep, name, colon, first.tooDeep_eq own room enough',
      first.readValue_eq own enough', comma, after, depthFields]

end

/-- A document is too deep for the room if its value has more levels than that, and one more. -/
theorem tooDeep_of_denotes {s : String} (h : Denotes s v) (short : Short v) (room : Nat) :
    tooDeep room s = decide (room + 1 < depth v) := by
  obtain ⟨rest, found, -⟩ := h
  have space := length_skipSpace_le s.toList
  exact found.tooDeep_eq short (room + 1) (by omega)

/-! ### Plain values -/

/-- Values that the reader takes as they are: no floating-point numbers, no whole numbers that are
too long for it, and tables that name each field once. -/
inductive Plain : Value → Prop
  | null : Plain .null
  | bool (b : Bool) : Plain (.bool b)
  | int {n : Int} : (Nat.toDigits 10 n.natAbs).length ≤ maxDigits → Plain (.int n)
  | str (s : String) : Plain (.str s)
  | list {items : List Value} : (∀ v ∈ items, Plain v) → Plain (.list items)
  | table {fields : List (String × Value)} : (∀ field ∈ fields, Plain field.2) →
      (fields.map (·.1)).Nodup → Plain (.table fields)

theorem Plain.short (h : Plain v) : Short v := by
  induction h with
  | null => exact .null
  | bool b => exact .bool b
  | int short => exact .int short
  | str s => exact .str s
  | list _ ih => exact .list ih
  | table _ _ ih => exact .table ih

/-- Fields of different names are kept as they come. -/
theorem foldl_set {fields : List (String × Value)} (before : Fields)
    (nodup : ((before ++ fields).map (·.1)).Nodup) :
    fields.foldl (fun acc pair => Keyed.set pair.1 pair.2 acc) before = before ++ fields := by
  have set_new (acc : Fields) {name : String} (v : Value) (new : name ∉ acc.map (·.1)) :
      Keyed.set name v acc = acc ++ [(name, v)] := by
    induction acc with
    | nil => rfl
    | cons pair rest ih =>
      rw [List.map_cons, List.mem_cons, not_or] at new
      rw [Keyed.set, if_neg (Ne.symm new.1), ih new.2, List.cons_append]
  induction fields generalizing before with
  | nil => simp
  | cons field rest ih =>
    have new : field.1 ∉ before.map (·.1) := by
      rw [List.map_append, List.map_cons] at nodup
      exact fun mem => (List.nodup_append.mp nodup).2.2 _ mem _ List.mem_cons_self rfl
    rw [List.foldl_cons, set_new before field.2 new, ih]
    · simp
    · simpa using nodup

theorem settledItems_eq {items : List Value} (each : ∀ v ∈ items, settled v = v) :
    settledItems items = items := by
  induction items with
  | nil => rfl
  | cons v rest ih =>
    obtain ⟨first, others⟩ := List.forall_mem_cons.mp each
    rw [settledItems, first, ih others]

theorem settledFields_eq {fields : List (String × Value)}
    (each : ∀ field ∈ fields, settled field.2 = field.2) : settledFields fields = fields := by
  induction fields with
  | nil => rfl
  | cons field rest ih =>
    obtain ⟨first, others⟩ := List.forall_mem_cons.mp each
    rw [settledFields, first, ih others]

theorem Plain.settled_eq (h : Plain v) : settled v = v := by
  induction h with
  | null | bool | int | str => rw [settled]
  | list _ ih => rw [settled, settledItems_eq ih]
  | table _ nodup ih =>
    have kept : Keyed.ofList _ = _ := foldl_set [] nodup
    rw [settled, settledFields_eq ih, kept, List.nil_append]

end JsxAudit.Data.Json
