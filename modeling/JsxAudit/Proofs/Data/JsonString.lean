import JsxAudit.Data.JsonPrinter
import JsxAudit.Data.JsonReader

/-!
The strings of JSON.

`StringAt cs text rest` says that a string, without its opening quote, stands at the front of a
text; the reader reads just these (`readChars_eq_some_iff`). The one subtle case is a `\u` escape,
which the reader may take together with the next one.

Reading a string undoes writing it (`readChars_escape`), whatever its characters are and whichever
of them are escaped: no character is half a pair, so that two escapes are read together exactly for
the pairs that have been written.
-/

namespace JsxAudit.Data.Json

variable {charset : Charset} {cs text rest : List Char}

/-! ### The characters of a string -/

/-- A code unit that makes no pair with what follows it. -/
def Alone (n : Nat) (rest : List Char) : Prop :=
  ∀ a b c d more low, rest = '\\' :: 'u' :: a :: b :: c :: d :: more →
    hexUnit? a b c d = some low → (isHighSurrogate n && isLowSurrogate low) = false

/-- The characters of a string up to its closing quote, which the rest follows. -/
inductive StringAt : List Char → List Char → List Char → Prop
  | closing (rest : List Char) : StringAt ('"' :: rest) [] rest
  | plain {c : Char} {cs text rest : List Char} : ¬ c.toNat < 0x20 → c ≠ '"' → c ≠ '\\' →
    StringAt cs text rest → StringAt (c :: cs) (c :: text) rest
  | letter {c e : Char} {cs text rest : List Char} : simpleEscape? c = some e →
    StringAt cs text rest → StringAt ('\\' :: c :: cs) (e :: text) rest
  | unit {a b c d : Char} {n : Nat} {cs text rest : List Char} : hexUnit? a b c d = some n →
    Alone n cs → StringAt cs text rest →
    StringAt ('\\' :: 'u' :: a :: b :: c :: d :: cs) (charOfUnit n :: text) rest
  | pair {a b c d e f g h : Char} {high low : Nat} {cs text rest : List Char} :
    hexUnit? a b c d = some high → hexUnit? e f g h = some low →
    (isHighSurrogate high && isLowSurrogate low) = true → StringAt cs text rest →
    StringAt ('\\' :: 'u' :: a :: b :: c :: d :: '\\' :: 'u' :: e :: f :: g :: h :: cs)
      (joinSurrogates high low :: text) rest

/-- One more character of a string leaves what the others leave. -/
theorem chars_of_cons {c : Char} {read : Option (List Char × List Char)}
    (h : (do let (cs, rest) ← read; return (c :: cs, rest)) = some (text, rest)) :
    ∃ cs, read = some (cs, rest) ∧ text = c :: cs := by
  cases read with
  | none => cases h
  | some read =>
    cases h
    exact ⟨_, rfl, rfl⟩

theorem stringAt_of_readChars (read : readChars cs = some (text, rest)) : StringAt cs text rest := by
  fun_induction readChars cs generalizing text with
  | case1 => cases read
  | case2 =>
    cases read
    exact .closing _
  | case3 a b c d e f g k after ih ih' =>
    cases first : hexUnit? a b c d with
    | none => simp [first] at read
    | some high =>
      simp only [first, Option.bind_eq_bind, Option.bind_some] at read
      split at read
      · rename_i low second
        split at read
        · rename_i pair
          obtain ⟨chars, left, rfl⟩ := chars_of_cons read
          exact .pair first second pair (ih left)
        · rename_i alone
          obtain ⟨chars, left, rfl⟩ := chars_of_cons read
          refine .unit first ?_ (ih' left)
          intro _ _ _ _ _ low' eq second'
          cases eq
          cases second.symm.trans second'
          exact Bool.eq_false_iff.mpr alone
      · cases read
  | case4 a b c d after single ih =>
    obtain ⟨n, unit, read⟩ := Option.bind_eq_some_iff.mp read
    obtain ⟨chars, left, rfl⟩ := chars_of_cons read
    exact .unit unit (fun _ _ _ _ _ _ eq _ => (single _ _ _ _ _ eq).elim) (ih left)
  | case5 c after _ _ ih =>
    obtain ⟨escaped, known, read⟩ := Option.bind_eq_some_iff.mp read
    obtain ⟨chars, left, rfl⟩ := chars_of_cons read
    exact .letter known (ih left)
  | case6 => cases read
  | case7 c after quote _ _ _ seen ih =>
    rw [Bool.or_eq_true, not_or, decide_eq_true_eq, beq_iff_eq] at seen
    obtain ⟨chars, left, rfl⟩ := chars_of_cons read
    exact .plain seen.1 quote seen.2 (ih left)

theorem StringAt.readChars (h : StringAt cs text rest) : readChars cs = some (text, rest) := by
  induction h with
  | closing rest => exact readChars_quote rest
  | @plain c cs _ _ control quote slash _ ih =>
    have kept : (decide (c.toNat < 0x20) || c == '\\') = false := by simp [control, slash]
    rw [Json.readChars]
    · simp only [kept, ih, Bool.false_eq_true, if_false]
      rfl
    all_goals simp_all
  | @letter c e cs _ _ known _ ih =>
    have named : c ≠ 'u' := by
      rintro rfl
      cases known
    rw [Json.readChars]
    · rw [known, ih]
      rfl
    all_goals
      intros
      simp_all
  | @unit a b c d n cs text rest unit alone left ih =>
    by_cases again : ∃ e f g k more, cs = '\\' :: 'u' :: e :: f :: g :: k :: more
    · obtain ⟨e, f, g, k, more, rfl⟩ := again
      rw [Json.readChars, unit, Option.bind_eq_bind, Option.bind_some]
      obtain ⟨low, second⟩ : ∃ low, hexUnit? e f g k = some low := by
        cases left with
        | plain _ _ slash => exact absurd rfl slash
        | letter known => cases known
        | unit second => exact ⟨_, second⟩
        | pair second => exact ⟨_, second⟩
      simp only [second, alone _ _ _ _ _ _ rfl second, ih, Bool.false_eq_true, if_false]
      rfl
    · rw [Json.readChars, unit]
      · rw [ih]
        rfl
      · intro e f g k more eq
        exact again ⟨e, f, g, k, more, eq⟩
  | pair first second pair _ ih =>
    rw [Json.readChars, first, second]
    simp only [Option.bind_eq_bind, Option.bind_some, pair, if_true, ih]
    rfl

/-- The reader reads the strings. -/
theorem readChars_eq_some_iff : readChars cs = some (text, rest) ↔ StringAt cs text rest :=
  ⟨stringAt_of_readChars, StringAt.readChars⟩

/-! ### Code units -/

theorem hexValue?_digitChar {n : Nat} (h : n < 16) : hexValue? n.digitChar = some n := by
  have all : ∀ n < 16, hexValue? n.digitChar = some n := by decide
  exact all n h

/-- The four digits of a code unit write it. -/
theorem hexUnit?_digitChars {n : Nat} (h : n < 0x10000) :
    hexUnit? (n / 4096 % 16).digitChar (n / 256 % 16).digitChar (n / 16 % 16).digitChar
      (n % 16).digitChar = some n := by
  unfold hexUnit?
  rw [hexValue?_digitChar (by omega), hexValue?_digitChar (by omega),
    hexValue?_digitChar (by omega), hexValue?_digitChar (by omega)]
  simp only [Option.bind_eq_bind, Option.bind_some, Option.pure_def, Option.some.injEq]
  omega

/-! ### Characters -/

/-- No character is half a pair. -/
theorem not_surrogate (c : Char) :
    isHighSurrogate c.toNat = false ∧ isLowSurrogate c.toNat = false := by
  have valid : c.toNat < 0xD800 ∨ 0xDFFF < c.toNat ∧ c.toNat < 0x110000 := c.valid
  simp only [isHighSurrogate, isLowSurrogate, Bool.and_eq_false_iff, decide_eq_false_iff_not]
  omega

theorem charOfUnit_toNat (c : Char) : charOfUnit c.toNat = c := by
  obtain ⟨high, low⟩ := not_surrogate c
  simp [charOfUnit, high, low]

theorem StringAt.unitEscape {c : Char} (small : c.toNat < 0x10000) (h : StringAt cs text rest) :
    StringAt (unitEscape c.toNat ++ cs) (c :: text) rest := by
  have unit := StringAt.unit (hexUnit?_digitChars small)
    (fun _ _ _ _ _ _ _ _ => by rw [(not_surrogate c).1, Bool.false_and]) h
  rw [charOfUnit_toNat] at unit
  exact unit

theorem StringAt.unitsEscape (c : Char) (h : StringAt cs text rest) :
    StringAt (unitsEscape c ++ cs) (c :: text) rest := by
  unfold Json.unitsEscape
  dsimp only
  split
  · rename_i small
    exact h.unitEscape small
  · rename_i large
    have valid : c.toNat < 0xD800 ∨ 0xDFFF < c.toNat ∧ c.toNat < 0x110000 := c.valid
    have pair : isHighSurrogate (0xD800 + (c.toNat - 0x10000) / 0x400) &&
        isLowSurrogate (0xDC00 + (c.toNat - 0x10000) % 0x400) := by
      simp only [isHighSurrogate, isLowSurrogate, Bool.and_eq_true, decide_eq_true_eq]
      omega
    have joined : joinSurrogates (0xD800 + (c.toNat - 0x10000) / 0x400)
        (0xDC00 + (c.toNat - 0x10000) % 0x400) = c := by
      have sum : 0x10000 + (0xD800 + (c.toNat - 0x10000) / 0x400 - 0xD800) * 0x400 +
          (0xDC00 + (c.toNat - 0x10000) % 0x400 - 0xDC00) = c.toNat := by
        omega
      rw [joinSurrogates, sum, Char.ofNat_toNat]
    have units := StringAt.pair (hexUnit?_digitChars (by omega)) (hexUnit?_digitChars (by omega))
      pair h
    rw [joined] at units
    simpa [Json.unitEscape] using units

/-- A character is written with a backslash and a letter, with its code units, or as it is. -/
theorem escapeChar_cases (charset : Charset) (c : Char) :
    (∃ letter, simpleEscape? letter = some c ∧ escapeChar charset c = ['\\', letter]) ∨
      escapeChar charset c = unitsEscape c ∨
      (¬ c.toNat < 0x20 ∧ c ≠ '"' ∧ c ≠ '\\' ∧ escapeChar charset c = [c]) := by
  by_cases named : c ∈ ['"', '\\', '\n', '\r', '\t', Char.ofNat 8, Char.ofNat 12]
  · refine .inl ?_
    simp only [List.mem_cons, List.not_mem_nil, or_false] at named
    rcases named with rfl | rfl | rfl | rfl | rfl | rfl | rfl
    · exact ⟨'"', rfl, rfl⟩
    · exact ⟨'\\', rfl, rfl⟩
    · exact ⟨'n', rfl, rfl⟩
    · exact ⟨'r', rfl, rfl⟩
    · exact ⟨'t', rfl, rfl⟩
    · exact ⟨'b', rfl, rfl⟩
    · exact ⟨'f', rfl, rfl⟩
  · refine .inr ?_
    simp only [List.mem_cons, List.not_mem_nil, or_false, not_or] at named
    obtain ⟨quote, slash, feed, ret, tab, back, form⟩ := named
    have other {n : Nat} (h : c ≠ Char.ofNat n) : c.toNat ≠ n := by
      rintro rfl
      exact h (Char.ofNat_toNat c).symm
    simp only [escapeChar, beq_iff_eq, quote, slash, feed, ret, tab, other back, other form, if_false]
    split
    · rename_i control
      have small : c.toNat < 0x10000 := by omega
      exact .inl (by simp only [unitsEscape, if_pos small])
    split
    · exact .inl rfl
    · rename_i printable _
      exact .inr ⟨printable, quote, slash, rfl⟩

/-- A character is one more of the string, however it is written. -/
theorem StringAt.escapeChar (c : Char) (h : StringAt cs text rest) :
    StringAt (escapeChar charset c ++ cs) (c :: text) rest := by
  obtain ⟨letter, known, eq⟩ | eq | ⟨printable, quote, slash, eq⟩ := escapeChar_cases charset c
  · rw [eq]
    exact .letter known h
  · rw [eq]
    exact h.unitsEscape c
  · rw [eq]
    exact .plain printable quote slash h

/-- A string is read back. -/
theorem readChars_escape (cs : List Char) :
    readChars (cs.flatMap (escapeChar charset) ++ '"' :: rest) = some (cs, rest) := by
  rw [readChars_eq_some_iff]
  induction cs with
  | nil => exact .closing rest
  | cons c more ih =>
    rw [List.flatMap_cons, List.append_assoc]
    exact ih.escapeChar c

/-! ### Line breaks -/

theorem not_mem_unitEscape (n : Nat) : '\r' ∉ unitEscape n := by
  have digit (m : Nat) : (m % 16).digitChar ≠ '\r' := by
    have all : ∀ k < 16, k.digitChar ≠ '\r' := by decide
    exact all _ (Nat.mod_lt _ (by decide))
  simp [unitEscape, (digit _).symm]

theorem not_mem_unitsEscape (c : Char) : '\r' ∉ unitsEscape c := by
  unfold unitsEscape
  dsimp only
  split
  · exact not_mem_unitEscape _
  · rw [List.mem_append]
    rintro (first | second)
    · exact not_mem_unitEscape _ first
    · exact not_mem_unitEscape _ second

theorem not_mem_escapeChar (c : Char) : '\r' ∉ escapeChar charset c := by
  obtain ⟨letter, known, eq⟩ | eq | ⟨printable, -, -, eq⟩ := escapeChar_cases charset c
  · rw [eq, List.mem_cons, List.mem_singleton]
    rintro (slash | rfl)
    · cases slash
    · cases known
  · rw [eq]
    exact not_mem_unitsEscape c
  · rw [eq, List.mem_singleton]
    rintro rfl
    exact printable (by decide)

theorem not_mem_writeString (s : String) : '\r' ∉ (writeString charset s).toList := by
  have inside : '\r' ∉ s.toList.flatMap (escapeChar charset) := by
    rw [List.mem_flatMap]
    rintro ⟨c, -, escaped⟩
    exact not_mem_escapeChar c escaped
  simpa [writeString] using inside

end JsxAudit.Data.Json
