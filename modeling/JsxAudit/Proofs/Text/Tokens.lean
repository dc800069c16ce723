import JsxAudit.Text.Glob

/-!
Patterns without groups, side by side.

Two rows of tokens match what is cut in two, one piece for each of them (`matchesTokens_append`).
The tokens of two parts are those of the whole unless a set begins in the first part and ends
behind it (`tokensFrom_append`), so a pattern can be read part by part
(`matchesPlain_append`).
-/

namespace JsxAudit.Text.Glob

/-! ### Rows of tokens -/

theorem anySuffix_iff {p : List Char → Bool} {cs : List Char} :
    anySuffix p cs = true ↔ ∃ front back, cs = front ++ back ∧ p back = true := by
  induction cs with
  | nil =>
    constructor
    · exact fun h => ⟨[], [], rfl, h⟩
    · rintro ⟨front, back, cut, h⟩
      rwa [(List.append_eq_nil_iff.mp cut.symm).2] at h
  | cons c rest ih =>
    rw [anySuffix, Bool.or_eq_true, ih]
    constructor
    · rintro (h | ⟨front, back, rfl, h⟩)
      · exact ⟨[], c :: rest, rfl, h⟩
      · exact ⟨c :: front, back, rfl, h⟩
    · rintro ⟨front, back, cut, h⟩
      rcases List.cons_eq_append_iff.mp cut with ⟨rfl, rfl⟩ | ⟨more, rfl, later⟩
      · exact .inl h
      · exact .inr ⟨more, back, later, h⟩

/-- What a token makes of one character; a star is not about one. -/
def Token.takes : Token → Char → Bool
  | .anything, _ => false
  | .one, _ => true
  | .literal l, c => l = c
  | .set s, c => s.has c

theorem matchesTokens_cons {t : Token} (ts : List Token) (cs : List Char) (one : t ≠ .anything) :
    matchesTokens (t :: ts) cs = true ↔
      ∃ c rest, cs = c :: rest ∧ t.takes c = true ∧ matchesTokens ts rest = true := by
  cases cs with
  | nil => cases t <;> simp_all [matchesTokens]
  | cons c rest =>
    have head : matchesTokens (t :: ts) (c :: rest) = (t.takes c && matchesTokens ts rest) := by
      cases t with
      | anything => exact absurd rfl one
      | one | literal _ | set _ => rfl
    rw [head, Bool.and_eq_true]
    constructor
    · exact fun h => ⟨c, rest, rfl, h⟩
    · rintro ⟨_, _, same, h⟩
      obtain ⟨rfl, rfl⟩ := List.cons.inj same
      exact h

/-- Rows of tokens match side by side what each of them matches. -/
theorem matchesTokens_append {ts us : List Token} {cs : List Char} :
    matchesTokens (ts ++ us) cs = true ↔ ∃ front back, cs = front ++ back ∧
      matchesTokens ts front = true ∧ matchesTokens us back = true := by
  induction ts generalizing cs with
  | nil =>
    constructor
    · exact fun h => ⟨[], cs, rfl, rfl, h⟩
    · rintro ⟨front, back, rfl, none, h⟩
      obtain rfl := List.isEmpty_iff.mp none
      exact h
  | cons t ts ih =>
    by_cases star : t = .anything
    · subst star
      rw [List.cons_append, matchesTokens, anySuffix_iff]
      simp only [ih]
      constructor
      · rintro ⟨skipped, _, rfl, front, back, rfl, first, second⟩
        refine ⟨skipped ++ front, back, (List.append_assoc ..).symm, ?_, second⟩
        exact anySuffix_iff.mpr ⟨skipped, front, rfl, first⟩
      · rintro ⟨_, back, rfl, some, second⟩
        obtain ⟨skipped, front, rfl, first⟩ := anySuffix_iff.mp some
        exact ⟨skipped, front ++ back, List.append_assoc .., front, back, rfl, first, second⟩
    · rw [List.cons_append, matchesTokens_cons _ _ star]
      simp only [ih, matchesTokens_cons ts _ star]
      constructor
      · rintro ⟨c, _, rfl, head, front, back, rfl, first, second⟩
        exact ⟨c :: front, back, rfl, ⟨c, front, rfl, head, first⟩, second⟩
      · rintro ⟨_, back, rfl, ⟨c, front, rfl, head, first⟩, second⟩
        exact ⟨c, front ++ back, rfl, head, front, back, rfl, first, second⟩

/-! ### Sets between brackets -/

/-- The characters up to a closing bracket, and those behind it. -/
def closing? (cs : List Char) : Option (List Char × List Char) :=
  match cs.drop (cs.takeWhile (· != ']')).length with
  | _ :: after => some (cs.takeWhile (· != ']'), after)
  | [] => none

/-- The same if a closing bracket in the first place does not count. -/
def secondClosing? : List Char → Option (List Char × List Char)
  | ']' :: rest => (closing? rest).map fun (inside, after) => (']' :: inside, after)
  | cs => closing? cs

theorem closing?_eq_some_iff {cs inside after : List Char} :
    closing? cs = some (inside, after) ↔ cs = inside ++ ']' :: after ∧ ']' ∉ inside := by
  have cut : (cs.takeWhile (· != ']') ++ cs.dropWhile (· != ']')).drop
      (cs.takeWhile (· != ']')).length = cs.dropWhile (· != ']') := List.drop_left
  rw [List.takeWhile_append_dropWhile] at cut
  rw [closing?, cut]
  constructor
  · intro found
    split at found
    · rename_i c after' behind
      simp only [Option.some.injEq, Prod.mk.injEq] at found
      obtain ⟨rfl, rfl⟩ := found
      have closing : c = ']' := by
        have := List.head?_dropWhile_not (· != ']') cs
        simpa [behind] using this
      subst closing
      refine ⟨?_, fun mem => ?_⟩
      · rw [← behind, List.takeWhile_append_dropWhile]
      · simpa using of_mem_takeWhile mem
    · cases found
  · rintro ⟨rfl, none⟩
    have front : ∀ c ∈ inside, (c != ']') = true := fun c mem =>
      bne_iff_ne.mpr fun same => none (same ▸ mem)
    rw [List.takeWhile_append_of_pos front, List.dropWhile_append_of_pos front]
    simp

theorem secondClosing?_eq_some_iff {cs inside after : List Char} :
    secondClosing? cs = some (inside, after) ↔
      cs = inside ++ ']' :: after ∧ ∃ c rest, inside = c :: rest ∧ ']' ∉ rest := by
  unfold secondClosing?
  split
  · rename_i rest
    simp only [Option.map_eq_some_iff, Prod.exists, closing?_eq_some_iff, Prod.mk.injEq]
    constructor
    · rintro ⟨inside, _, ⟨rfl, none⟩, rfl, rfl⟩
      exact ⟨rfl, _, _, rfl, none⟩
    · rintro ⟨whole, c, rest, rfl, none⟩
      obtain ⟨rfl, rfl⟩ := List.cons.inj whole
      exact ⟨rest, after, ⟨rfl, none⟩, rfl, rfl⟩
  · rename_i other
    rw [closing?_eq_some_iff]
    refine and_congr_right fun whole => ⟨fun none => ?_, ?_⟩
    · cases inside with
      | nil => exact absurd whole (other after)
      | cons c rest => exact ⟨c, rest, rfl, fun mem => none (List.mem_cons_of_mem c mem)⟩
    · rintro ⟨c, rest, rfl, none⟩ mem
      rcases List.mem_cons.mp mem with rfl | mem
      · exact other _ whole
      · exact none mem

/-- The characters behind the mark of an inverted set. -/
def unmarked : List Char → List Char
  | '!' :: rest => rest
  | cs => cs

/-- What can stand between brackets: there is a character, and no closing bracket behind it. -/
def IsSetBody (body : List Char) : Prop :=
  ∃ c rest, unmarked body = c :: rest ∧ ']' ∉ rest

/-- A set is read in two steps: its mark, and then the rest of it. -/
theorem bracketBody?_eq (cs : List Char) :
    bracketBody? cs = match cs with
      | '!' :: rest => (secondClosing? rest).map fun (inside, after) => ('!' :: inside, after)
      | cs => secondClosing? cs := by
  have closes (front rest : List Char) :
      (match rest.drop (rest.takeWhile (· != ']')).length with
        | _ :: after => some (front ++ rest.takeWhile (· != ']'), after)
        | [] => none) = (closing? rest).map fun (inside, after) => (front ++ inside, after) := by
    unfold closing?
    split <;> rfl
  unfold bracketBody?
  split
  rename_i mark rest marked
  split
  rename_i first rest' second
  refine (closes (mark ++ first) rest').trans ?_
  have inner : ((closing? rest').map fun (inside, after) => (mark ++ first ++ inside, after)) =
      (secondClosing? rest).map fun (inside, after) => (mark ++ inside, after) := by
    unfold secondClosing?
    split at second <;> obtain ⟨rfl, rfl⟩ := Prod.mk.inj second
    · simp [Function.comp_def]
    · simp
  rw [inner]
  split at marked <;> obtain ⟨rfl, rfl⟩ := Prod.mk.inj marked
  · rfl
  · simp

/-- What stands between brackets is found where it stands, and nowhere else. -/
theorem bracketBody?_eq_some_iff {cs body after : List Char} :
    bracketBody? cs = some (body, after) ↔ cs = body ++ ']' :: after ∧ IsSetBody body := by
  rw [bracketBody?_eq]
  split
  · rename_i rest
    simp only [Option.map_eq_some_iff, Prod.exists, secondClosing?_eq_some_iff, Prod.mk.injEq]
    constructor
    · rintro ⟨inside, _, ⟨rfl, filled⟩, rfl, rfl⟩
      exact ⟨rfl, filled⟩
    · rintro ⟨whole, filled⟩
      cases body with
      | nil => exact absurd (List.cons.inj whole).1 (by decide)
      | cons c inside =>
        obtain ⟨rfl, rfl⟩ := List.cons.inj whole
        exact ⟨inside, after, ⟨rfl, filled⟩, rfl, rfl⟩
  · rename_i other
    rw [secondClosing?_eq_some_iff]
    refine and_congr_right fun whole => ?_
    have same : unmarked body = body := by
      unfold unmarked
      split
      · exact absurd whole (other _)
      · rfl
    rw [IsSetBody, same]

theorem bracketBody?_append {cs body after : List Char} (h : bracketBody? cs = some (body, after))
    (tail : List Char) : bracketBody? (cs ++ tail) = some (body, after ++ tail) := by
  obtain ⟨rfl, inside⟩ := bracketBody?_eq_some_iff.mp h
  exact bracketBody?_eq_some_iff.mpr ⟨by simp, inside⟩

/-- A set that ends in front of a tail does not need it. -/
theorem bracketBody?_of_append {cs tail body after : List Char}
    (h : bracketBody? (cs ++ tail) = some (body, after)) (before : body.length < cs.length) :
    ∃ after, bracketBody? cs = some (body, after) := by
  obtain ⟨whole, inside⟩ := bracketBody?_eq_some_iff.mp h
  rcases List.append_eq_append_iff.mp whole with ⟨more, rfl, -⟩ | ⟨more, rfl, rest⟩
  · rw [List.length_append] at before
    omega
  · cases more with
    | nil =>
      rw [List.append_nil] at before
      exact absurd before (Nat.lt_irrefl _)
    | cons c more =>
      obtain ⟨rfl, -⟩ := List.cons.inj rest
      exact ⟨more, bracketBody?_eq_some_iff.mpr ⟨rfl, inside⟩⟩

/-! ### Tokens in front of a tail -/

/-- No set begins in the characters and ends in the tail behind them; `skip` characters belong to a
set already read. -/
def setsEnd (tail : List Char) (skip : Nat) : List Char → Bool
  | [] => skip == 0
  | c :: rest =>
    match skip with
    | skip + 1 => setsEnd tail skip rest
    | 0 =>
      match if c = '[' then bracketBody? (rest ++ tail) else none with
      | some (body, _) => setsEnd tail (body.length + 1) rest
      | none => setsEnd tail 0 rest

theorem le_length_of_setsEnd {tail cs : List Char} {skip : Nat} (h : setsEnd tail skip cs = true) :
    skip ≤ cs.length := by
  induction cs generalizing skip with
  | nil => exact Nat.le_of_eq (beq_iff_eq.mp h)
  | cons c rest ih =>
    cases skip with
    | zero => exact Nat.zero_le _
    | succ skip => exact Nat.succ_le_succ (ih h)

theorem tokensFrom_append {tail cs : List Char} {skip : Nat} (h : setsEnd tail skip cs = true) :
    tokensFrom skip (cs ++ tail) = tokensFrom skip cs ++ tokensFrom 0 tail := by
  induction cs generalizing skip with
  | nil =>
    obtain rfl := beq_iff_eq.mp h
    rfl
  | cons c rest ih =>
    cases skip with
    | succ skip => exact ih h
    | zero =>
      rw [setsEnd] at h
      rw [List.cons_append]
      by_cases opening : c = '['
      · subst opening
        rw [if_pos rfl] at h
        cases found : bracketBody? (rest ++ tail) with
        | some parts =>
          obtain ⟨body, after⟩ := parts
          rw [found] at h
          obtain ⟨_, here⟩ := bracketBody?_of_append found (le_length_of_setsEnd h)
          simp [tokensFrom, found, here, ih h]
        | none =>
          rw [found] at h
          have here : bracketBody? rest = none := by
            cases some : bracketBody? rest with
            | none => rfl
            | some parts =>
              rw [bracketBody?_append some tail] at found
              cases found
          simp [tokensFrom, found, here, ih h]
      · rw [if_neg opening] at h
        by_cases star : c = '*'
        · simp [tokensFrom, star, ih h]
        · by_cases mark : c = '?'
          · simp [tokensFrom, mark, ih h]
          · simp [tokensFrom, star, mark, opening, ih h]

/-- A pattern of two parts matches what is cut in two, one piece for each part. -/
theorem matchesPlain_append {front back path : List Char} (h : setsEnd back 0 front = true) :
    matchesPlain (front ++ back) path = true ↔ ∃ first second, path = first ++ second ∧
      matchesPlain front first = true ∧ matchesPlain back second = true := by
  simp only [matchesPlain, tokensFrom_append h, matchesTokens_append]

end JsxAudit.Text.Glob
