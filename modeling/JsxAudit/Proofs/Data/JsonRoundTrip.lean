import JsxAudit.Proofs.Data.JsonReading

/-!
Reading a JSON document undoes writing it.

A value is written exactly if it holds no floating-point numbers (`Exact`). What is written for it
stands for it by the grammar, at the front of any text (`valueAt_writeAt`, by induction on the
value) and as a whole document (`denotes_write`). The reader therefore takes it back
(`read?_write`), unless a number is too long for it or a table repeats a field.
-/

namespace JsxAudit.Data.Json

variable {charset : Charset} {rest : List Char}

/-! ### Numbers -/

theorem digitsValue_toDigits (n : Nat) : digitsValue (Nat.toDigits 10 n) = n :=
  Nat.ofDigitChars_ten_toDigits

/-- Only zero is written with a zero in front. -/
theorem eq_zero_of_head {n : Nat} {cs : List Char} (h : Nat.toDigits 10 n = '0' :: cs) : n = 0 := by
  induction n using Nat.strongRecOn generalizing cs with
  | ind n ih =>
    by_cases small : n < 10
    · rw [Nat.toDigits_of_lt_base small] at h
      have all : ∀ n < 10, n.digitChar = '0' → n = 0 := by decide
      exact all n small (List.cons.inj h).1
    · rw [Nat.toDigits_of_base_le (by decide) (by omega)] at h
      cases front : Nat.toDigits 10 (n / 10) with
      | nil => exact absurd front Nat.toDigits_ne_nil
      | cons c more =>
        rw [front, List.cons_append] at h
        obtain ⟨rfl, -⟩ := List.cons.inj h
        have := ih (n / 10) (by omega) front
        omega

theorem takeDigits_toDigits {n : Nat} (ends : Ends rest) :
    takeDigits (Nat.toDigits 10 n ++ rest) = (Nat.toDigits 10 n, rest) := by
  have digits : ∀ c ∈ Nat.toDigits 10 n, c.isDigit = true := fun c mem =>
    Nat.isDigit_of_mem_toDigits (by decide) (by decide) mem
  have stop := takeDigits_of_ends ends
  obtain ⟨none, left⟩ := Prod.mk.inj stop
  rw [takeDigits, List.takeWhile_append_of_pos digits, List.dropWhile_append_of_pos digits, none,
    left, List.append_nil]

/-- The text of a whole number is that number. -/
theorem magnitude?_toDigits (n : Nat) (negative : Bool) (ends : Ends rest) :
    magnitude? negative (Nat.toDigits 10 n ++ rest) =
      some (.int (if negative then -n else n), rest) := by
  have whole : takeWhole (Nat.toDigits 10 n ++ rest) = (Nat.toDigits 10 n, rest) := by
    have digits := @takeDigits_toDigits rest n ends
    unfold takeWhole
    split
    · rename_i front
      cases text : Nat.toDigits 10 n with
      | nil => exact absurd text Nat.toDigits_ne_nil
      | cons c cs =>
        rw [text, List.cons_append] at front
        obtain ⟨rfl, rfl⟩ := List.cons.inj front
        have zero := eq_zero_of_head text
        rw [zero, Nat.toDigits_zero] at text
        obtain ⟨-, rfl⟩ := List.cons.inj text
        rfl
    · exact digits
  have value := digitsValue_toDigits n
  have some : Nat.toDigits 10 n ≠ [] := Nat.toDigits_ne_nil
  generalize Nat.toDigits 10 n = digits at whole value some ⊢
  cases digits with
  | nil => exact absurd rfl some
  | cons c cs =>
    rw [magnitude?, whole]
    simp [takeFraction_of_ends ends, takeExponent_of_ends ends, numberOf, value]

/-! ### Values -/

/-- Values without floating-point numbers. -/
inductive Exact : Value → Prop
  | null : Exact .null
  | bool (b : Bool) : Exact (.bool b)
  | int (n : Int) : Exact (.int n)
  | str (s : String) : Exact (.str s)
  | list {items : List Value} : (∀ v ∈ items, Exact v) → Exact (.list items)
  | table {fields : List (String × Value)} : (∀ field ∈ fields, Exact field.2) →
    Exact (.table fields)

theorem Plain.exact {v : Value} (h : Plain v) : Exact v := by
  induction h with
  | null => exact .null
  | bool b => exact .bool b
  | int => exact .int _
  | str s => exact .str s
  | list _ ih => exact .list ih
  | table _ _ ih => exact .table ih

theorem toList_toString_int (n : Int) :
    (toString n).toList = (if n < 0 then ['-'] else []) ++ Nat.toDigits 10 n.natAbs := by
  cases n with
  | ofNat m =>
    have nonneg : ¬ (Int.ofNat m < 0) := Int.not_lt.mpr (Int.natCast_nonneg m)
    rw [if_neg nonneg]
    exact Nat.toList_repr
  | negSucc m =>
    rw [if_pos (Int.negSucc_lt_zero m)]
    change ("-" ++ (m + 1).repr).toList = _
    rw [String.toList_append, Nat.toList_repr]
    rfl

/-- The text of a whole number is that number, with its sign. -/
theorem valueAt_toString (n : Int) (ends : Ends rest) :
    ValueAt ((toString n).toList ++ rest) (.int n) rest := by
  rw [toList_toString_int]
  by_cases negative : n < 0
  · have number := magnitude?_toDigits n.natAbs true ends
    rw [if_pos rfl, Int.ofNat_natAbs_of_nonpos (Int.le_of_lt negative), Int.neg_neg] at number
    rw [if_pos negative]
    exact .negative number
  · have number := magnitude?_toDigits n.natAbs false ends
    rw [if_neg (by decide), Int.natAbs_of_nonneg (Int.not_lt.mp negative)] at number
    rw [if_neg negative]
    exact .number number

/-! ### Blanks -/

theorem skipSpace_cons {c : Char} (h : isSpace c = false) : skipSpace (c :: rest) = c :: rest := by
  simp [skipSpace, h]

theorem skipSpace_newline (depth : Nat) (rest : List Char) :
    skipSpace ((newline depth).toList ++ rest) = skipSpace rest := by
  have blank : ∀ c ∈ (newline depth).toList, isSpace c = true := by
    intro c mem
    rw [newline, String.toList_ofList, List.mem_cons, List.mem_replicate] at mem
    rcases mem with rfl | ⟨-, rfl⟩ <;> rfl
  rw [skipSpace, List.dropWhile_append_of_pos blank]
  rfl

theorem ends_newline (depth : Nat) (rest : List Char) : Ends ((newline depth).toList ++ rest) := by
  intro c front
  rw [newline, String.toList_ofList] at front
  cases front
  decide

theorem ends_comma (rest : List Char) : Ends (',' :: rest) := by
  intro c front
  cases front
  decide

/-- The text starts with a character that neither is blank nor closes a list. -/
def Opens (cs : List Char) : Prop :=
  ∃ c more, cs = c :: more ∧ isSpace c = false ∧ c ≠ ']'

theorem Opens.append {cs : List Char} (h : Opens cs) (rest : List Char) : Opens (cs ++ rest) := by
  obtain ⟨c, more, rfl, front⟩ := h
  exact ⟨c, more ++ rest, rfl, front⟩

theorem opens_digit {c : Char} {cs : List Char} (h : c.isDigit = true) : Opens (c :: cs) := by
  refine ⟨c, cs, rfl, ?_, ?_⟩
  · rw [← Bool.not_eq_true]
    intro blank
    simp only [isSpace, Bool.or_eq_true, beq_iff_eq] at blank
    rcases blank with ((rfl | rfl) | rfl) | rfl <;> cases h
  · rintro rfl
    cases h

theorem opens_writeAt {v : Value} (exact : Exact v) (depth : Nat) :
    Opens (writeAt charset depth v).toList := by
  cases exact with
  | null => exact ⟨'n', _, by simp [writeAt]; rfl, by decide, by decide⟩
  | bool b => cases b <;> simp [writeAt, Opens, isSpace]
  | int n =>
    rw [writeAt, toList_toString_int]
    cases digits : Nat.toDigits 10 n.natAbs with
    | nil => exact absurd digits Nat.toDigits_ne_nil
    | cons c cs =>
      have front : c.isDigit = true :=
        Nat.isDigit_of_mem_toDigits (by decide) (by decide) (digits ▸ List.mem_cons_self)
      split
      · exact ⟨'-', _, rfl, by decide, by decide⟩
      · exact opens_digit front
  | str s => simp [writeAt, writeString, Opens, isSpace]
  | @list items _ => cases items <;> simp [writeAt, Opens, isSpace]
  | @table fields _ => cases fields <;> simp [writeAt, Opens, isSpace]

/-! ### Lists and tables -/

/-- The text of the value stands for it, at any depth and whatever follows. -/
def Stands (charset : Charset) (v : Value) : Prop :=
  ∀ depth rest, Ends rest → ValueAt ((writeAt charset depth v).toList ++ rest) v rest

/-- The items of a list, each on a line of its own. -/
def itemsText (charset : Charset) (depth : Nat) (items : List Value) : List Char :=
  (("," ++ newline depth).intercalate (writeItems charset depth items)).toList

theorem itemsText_singleton (depth : Nat) (v : Value) :
    itemsText charset depth [v] = (writeAt charset depth v).toList := by
  simp [itemsText, writeItems]

theorem itemsText_cons (depth : Nat) (v w : Value) (more : List Value) :
    itemsText charset depth (v :: w :: more) = (writeAt charset depth v).toList ++
      ',' :: (newline depth).toList ++ itemsText charset depth (w :: more) := by
  rw [itemsText, writeItems, writeItems, String.intercalate_cons_cons, itemsText, writeItems]
  simp

theorem opens_itemsText {depth : Nat} {v : Value} {more : List Value} (exact : Exact v) :
    Opens (itemsText charset depth (v :: more)) := by
  cases more with
  | nil =>
    rw [itemsText_singleton]
    exact opens_writeAt exact depth
  | cons w more =>
    rw [itemsText_cons, List.append_assoc]
    exact (opens_writeAt exact depth).append _

theorem Opens.skipSpace_eq {cs : List Char} (h : Opens cs) : skipSpace cs = cs := by
  obtain ⟨c, more, rfl, visible, -⟩ := h
  exact skipSpace_cons visible

/-- The text of items stands for them, up to the bracket that closes their list. -/
theorem itemsAt_itemsText {items : List Value} (some_items : items ≠ [])
    (each : ∀ v ∈ items, Exact v ∧ Stands charset v) (depth outer : Nat) (rest : List Char) :
    ItemsAt (itemsText charset depth items ++ ((newline outer).toList ++ ']' :: rest)) items rest := by
  induction items with
  | nil => exact absurd rfl some_items
  | cons v more ih =>
    obtain ⟨exact', stands⟩ := each v List.mem_cons_self
    cases more with
    | nil =>
      rw [itemsText_singleton]
      refine .last (stands depth _ (ends_newline _ _)) ?_
      rw [skipSpace_newline, skipSpace_cons (by decide)]
    | cons w more =>
      have others := ih (by simp) fun x mem => each x (List.mem_cons_of_mem _ mem)
      have next : Opens (itemsText charset depth (w :: more) ++
          ((newline outer).toList ++ ']' :: rest)) :=
        (opens_itemsText (each w (by simp)).1).append _
      rw [itemsText_cons]
      simp only [List.append_assoc, List.cons_append]
      refine .more (stands depth _ (ends_comma _)) (skipSpace_cons (by decide)) ?_
      rw [skipSpace_newline, next.skipSpace_eq]
      exact others

/-- The fields of a table, each on a line of its own. -/
def fieldsText (charset : Charset) (depth : Nat) (fields : List (String × Value)) : List Char :=
  (("," ++ newline depth).intercalate (writeFields charset depth fields)).toList

/-- A field: its name in quotes, a colon and a blank, and its value. -/
def fieldText (charset : Charset) (depth : Nat) (field : String × Value) : List Char :=
  '"' :: (field.1.toList.flatMap (escapeChar charset) ++
    '"' :: ':' :: ' ' :: (writeAt charset depth field.2).toList)

theorem fieldsText_singleton (depth : Nat) (field : String × Value) :
    fieldsText charset depth [field] = fieldText charset depth field := by
  simp [fieldsText, writeFields, fieldText, writeString]

theorem fieldsText_cons (depth : Nat) (field next : String × Value)
    (more : List (String × Value)) :
    fieldsText charset depth (field :: next :: more) = fieldText charset depth field ++
      ',' :: (newline depth).toList ++ fieldsText charset depth (next :: more) := by
  rw [fieldsText, writeFields, writeFields, String.intercalate_cons_cons, fieldsText, writeFields]
  simp [fieldText, writeString]

theorem opens_fieldsText {depth : Nat} {field : String × Value} {more : List (String × Value)} :
    ∃ cs, fieldsText charset depth (field :: more) = '"' :: cs := by
  cases more with
  | nil => exact ⟨_, fieldsText_singleton depth field⟩
  | cons next more => exact ⟨_, fieldsText_cons depth field next more⟩

/-- The text of fields stands for them, up to the brace that closes their table. -/
theorem fieldsAt_fieldsText {fields : List (String × Value)} (some_fields : fields ≠ [])
    (each : ∀ field ∈ fields, Exact field.2 ∧ Stands charset field.2) (depth outer : Nat)
    (rest : List Char) :
    FieldsAt (fieldsText charset depth fields ++ ((newline outer).toList ++ '}' :: rest))
      fields rest := by
  induction fields with
  | nil => exact absurd rfl some_fields
  | cons field more ih =>
    obtain ⟨name, v⟩ := field
    obtain ⟨exact', stands⟩ := each _ List.mem_cons_self
    have value (after : List Char) : skipSpace (' ' :: ((writeAt charset depth v).toList ++ after)) =
        (writeAt charset depth v).toList ++ after :=
      ((opens_writeAt exact' depth).append after).skipSpace_eq
    have named (after : List Char) := @readChars_escape charset (':' :: ' ' :: after) name.toList
    cases more with
    | nil =>
      rw [fieldsText_singleton]
      simp only [fieldText, List.append_assoc, List.cons_append]
      have last := stands depth ((newline outer).toList ++ '}' :: rest) (ends_newline _ _)
      rw [← value] at last
      have single := FieldsAt.last (named _) (skipSpace_cons (by decide)) last
        ((skipSpace_newline outer _).trans (skipSpace_cons (by decide)))
      rwa [String.ofList_toList] at single
    | cons next more =>
      have others := ih (by simp) fun x mem => each x (List.mem_cons_of_mem _ mem)
      obtain ⟨cs, front⟩ := @opens_fieldsText charset depth next more
      rw [fieldsText_cons]
      simp only [fieldText, List.append_assoc, List.cons_append]
      have first := stands depth (',' :: ((newline depth).toList ++
        (fieldsText charset depth (next :: more) ++ ((newline outer).toList ++ '}' :: rest))))
        (ends_comma _)
      rw [← value] at first
      have space : skipSpace ((newline depth).toList ++ (fieldsText charset depth (next :: more) ++
          ((newline outer).toList ++ '}' :: rest))) =
          fieldsText charset depth (next :: more) ++ ((newline outer).toList ++ '}' :: rest) := by
        rw [skipSpace_newline, front, List.cons_append, skipSpace_cons (by decide)]
      rw [← space] at others
      have both := FieldsAt.more (named _) (skipSpace_cons (by decide)) first
        (skipSpace_cons (by decide)) others
      rwa [String.ofList_toList] at both

theorem stands_list {items : List Value} (each : ∀ v ∈ items, Exact v ∧ Stands charset v) :
    Stands charset (.list items) := by
  intro depth rest ends
  cases items with
  | nil =>
    rw [writeAt]
    exact .emptyList (skipSpace_cons (by decide))
  | cons v more =>
    have text : (writeAt charset depth (.list (v :: more))).toList =
        '[' :: ((newline (depth + 1)).toList ++ (itemsText charset (depth + 1) (v :: more) ++
          ((newline depth).toList ++ [']']))) := by
      simp [writeAt, itemsText]
    have items := itemsAt_itemsText (by simp) each (depth + 1) depth rest
    have front : Opens (itemsText charset (depth + 1) (v :: more) ++
        ((newline depth).toList ++ ']' :: rest)) :=
      (opens_itemsText (each v List.mem_cons_self).1).append _
    rw [text]
    simp only [List.cons_append, List.append_assoc, List.nil_append]
    refine .list ?_
    rw [skipSpace_newline, front.skipSpace_eq]
    exact items

theorem stands_table {fields : List (String × Value)}
    (each : ∀ field ∈ fields, Exact field.2 ∧ Stands charset field.2) :
    Stands charset (.table fields) := by
  intro depth rest ends
  cases fields with
  | nil =>
    rw [writeAt]
    exact .emptyTable (skipSpace_cons (by decide))
  | cons field more =>
    have text : (writeAt charset depth (.table (field :: more))).toList =
        '{' :: ((newline (depth + 1)).toList ++ (fieldsText charset (depth + 1) (field :: more) ++
          ((newline depth).toList ++ ['}']))) := by
      simp [writeAt, fieldsText]
    have fields := fieldsAt_fieldsText (by simp) each (depth + 1) depth rest
    obtain ⟨cs, front⟩ := @opens_fieldsText charset (depth + 1) field more
    rw [text]
    simp only [List.cons_append, List.append_assoc, List.nil_append]
    refine .table ?_
    rw [skipSpace_newline, front, List.cons_append, skipSpace_cons (by decide), ← List.cons_append,
      ← front]
    exact fields

/-- The text of a value stands for it. -/
theorem valueAt_writeAt {v : Value} (exact : Exact v) : Stands charset v := by
  induction exact with
  | null =>
    intro depth rest _
    rw [writeAt]
    exact .null rest
  | bool b =>
    intro depth rest _
    cases b with
    | true =>
      rw [writeAt]
      exact .true rest
    | false =>
      rw [writeAt]
      exact .false rest
  | int n =>
    intro depth rest ends
    rw [writeAt]
    exact valueAt_toString n ends
  | str s =>
    intro depth rest _
    have read := @readChars_escape charset rest s.toList
    have string := ValueAt.string read
    rw [String.ofList_toList] at string
    simpa [writeAt, writeString] using string
  | list exact ih => exact stands_list fun v mem => ⟨exact v mem, ih v mem⟩
  | table exact ih => exact stands_table fun field mem => ⟨exact field mem, ih field mem⟩

/-- A written value with white space around it denotes the value. -/
theorem denotes_padded {s : String} {v : Value} {before after : List Char} (exact : Exact v)
    (blank : ∀ c ∈ before, isSpace c = true) (blank' : ∀ c ∈ after, isSpace c = true)
    (text : s.toList = before ++ ((write charset v).toList ++ after)) : Denotes s v := by
  refine ⟨after, ?_, List.dropWhile_eq_nil_iff.mpr blank'⟩
  rw [text, skipSpace, List.dropWhile_append_of_pos blank, write]
  have front : ValueAt ((writeAt charset 0 v).toList ++ after) v after :=
    valueAt_writeAt exact 0 after (ends_of_blank blank')
  rwa [← ((opens_writeAt exact 0).append after).skipSpace_eq] at front

/-- A written document denotes the value that was written. -/
theorem denotes_write {v : Value} (exact : Exact v) : Denotes (write charset v) v :=
  @denotes_padded charset _ v [] [] exact nofun nofun (by simp)

/-- Reading a document undoes writing it. -/
theorem read?_write {v : Value} (plain : Plain v) : read? (write charset v) = some v := by
  rw [read?_of_denotes (denotes_write plain.exact) plain.short, plain.settled_eq]

/-! ### Line breaks -/

theorem not_mem_newline (depth : Nat) : '\r' ∉ (newline depth).toList := by
  simp [newline]

theorem not_mem_itemsText {items : List Value} {depth : Nat}
    (each : ∀ v ∈ items, '\r' ∉ (writeAt charset depth v).toList) :
    '\r' ∉ itemsText charset depth items := by
  induction items with
  | nil => simp [itemsText, writeItems]
  | cons v more ih =>
    have first := each v List.mem_cons_self
    cases more with
    | nil => rwa [itemsText_singleton]
    | cons w more =>
      have others := ih fun x mem => each x (List.mem_cons_of_mem _ mem)
      rw [itemsText_cons]
      simp [first, others, not_mem_newline]

theorem not_mem_fieldsText {fields : List (String × Value)} {depth : Nat}
    (each : ∀ field ∈ fields, '\r' ∉ (writeAt charset depth field.2).toList) :
    '\r' ∉ fieldsText charset depth fields := by
  have whole (field : String × Value) (value : '\r' ∉ (writeAt charset depth field.2).toList) :
      '\r' ∉ fieldText charset depth field := by
    have name := @not_mem_writeString charset field.1
    rw [writeString, String.toList_ofList] at name
    simp only [List.cons_append, List.mem_cons, List.mem_append, not_or] at name
    simp [fieldText, value, name.2.1]
  induction fields with
  | nil => simp [fieldsText, writeFields]
  | cons field more ih =>
    have first := whole field (each field List.mem_cons_self)
    cases more with
    | nil => rwa [fieldsText_singleton]
    | cons next more =>
      have others := ih fun x mem => each x (List.mem_cons_of_mem _ mem)
      rw [fieldsText_cons]
      simp [first, others, not_mem_newline]

/-- A written value holds no carriage returns. -/
theorem not_mem_writeAt {v : Value} (plain : Plain v) (depth : Nat) :
    '\r' ∉ (writeAt charset depth v).toList := by
  induction plain generalizing depth with
  | null => simp [writeAt]
  | bool b => cases b <;> simp [writeAt]
  | @int n short =>
    rw [writeAt, toList_toString_int, List.mem_append, not_or]
    constructor
    · split <;> simp
    · intro mem
      cases Nat.isDigit_of_mem_toDigits (by decide) (by decide) mem
  | str s =>
    rw [writeAt]
    exact not_mem_writeString s
  | @list items plain ih =>
    cases items with
    | nil => simp [writeAt]
    | cons v more =>
      have inside := not_mem_itemsText fun x mem => ih x mem (depth + 1)
      simpa [writeAt, not_mem_newline, itemsText] using inside
  | @table fields plain nodup ih =>
    cases fields with
    | nil => simp [writeAt]
    | cons field more =>
      have inside := not_mem_fieldsText fun x mem => ih x mem (depth + 1)
      simpa [writeAt, not_mem_newline, fieldsText] using inside

end JsxAudit.Data.Json
