import JsxAudit.Text.Blank
import JsxAudit.Text.Casing

/-!
The case of letters and blanks.

A change of case takes no blank for a letter and makes none of one, so that a text of blanks stays
one and every other text keeps a character that can be seen (`isBlankText_lower`,
`isBlankText_capitalize`).
-/

namespace JsxAudit.Text

variable {c : Char}

/-! ### Tables -/

/-- The code points of blanks, in inclusive ranges. -/
def blankRanges : List (Nat × Nat) :=
  [(0x09, 0x0D), (0x1C, 0x20), (0x85, 0x85), (0xA0, 0xA0), (0x1680, 0x1680), (0x2000, 0x200A),
    (0x2028, 0x2029), (0x202F, 0x202F), (0x205F, 0x205F), (0x3000, 0x3000)]

theorem isBlank_iff :
    isBlank c = true ↔ ∃ r ∈ blankRanges, r.1 ≤ c.toNat ∧ c.toNat ≤ r.2 := by
  simp only [isBlank, blankRanges, Bool.or_eq_true, Bool.and_eq_true, decide_eq_true_eq, beq_iff_eq,
    List.mem_cons, List.not_mem_nil, or_false, or_and_right, exists_or, exists_eq_left]
  omega

/-- The run maps no blank, and nothing to a blank. -/
def AvoidsBlanks (run : Nat × Nat × Nat × Int) : Prop :=
  ∀ r ∈ blankRanges, (run.2.1 < r.1 ∨ r.2 < run.1) ∧
    (run.2.1 + run.2.2.2 < (r.1 : Int) ∨ (r.2 : Int) < run.1 + run.2.2.2)

instance (run : Nat × Nat × Nat × Int) : Decidable (AvoidsBlanks run) :=
  inferInstanceAs (Decidable (∀ r ∈ blankRanges, _))

/-- The tables leave blanks alone. A blank has no expansion either, and an expansion has no blank. -/
theorem tables_avoidBlanks :
    (∀ run ∈ upperRuns.toList, AvoidsBlanks run) ∧ (∀ run ∈ lowerRuns.toList, AvoidsBlanks run) ∧
      ∀ e ∈ upperExpansions.toList, (∀ r ∈ blankRanges, e.1 < r.1 ∨ r.2 < e.1) ∧ e.2 ≠ [] ∧
        ∀ n ∈ e.2, isBlank (Char.ofNat n) = false := by
  decide +kernel

/-! ### Characters -/

theorem forall_ascii {p : Char → Prop} (h : ∀ n < 0x80, p (Char.ofNat n)) (small : c.toNat < 0x80) :
    p c := by
  have here := h c.toNat small
  rwa [Char.ofNat_toNat] at here

/-- Among the basic characters no change of case makes or takes away a blank, or makes an
underscore of another character. -/
theorem ascii_case (small : c.toNat < 0x80) :
    ([c.toLower].all isBlank = isBlank c ∧ isBlank c.toUpper = isBlank c) ∧
      (c.toLower = '_' → c = '_') ∧ ('_' ∈ [c.toUpper] → c = '_') := by
  refine forall_ascii (p := fun c => ([c.toLower].all isBlank = isBlank c ∧
    isBlank c.toUpper = isBlank c) ∧ (c.toLower = '_' → c = '_') ∧
      ('_' ∈ [c.toUpper] → c = '_')) ?_ small
  decide +kernel

/-- The code point of a character is the number that the character is made of, if it is not the one
that stands for numbers without a character. -/
theorem toNat_ofNat_of_ne {n : Nat} (h : Char.ofNat n ≠ Char.ofNat 0) :
    (Char.ofNat n).toNat = n := by
  by_cases valid : n.isValidChar
  · rw [Char.ofNat, dif_pos valid]
    rfl
  · rw [Char.ofNat, dif_neg valid] at h
    exact absurd rfl h

theorem toNat_ofNat_of_isBlank {n : Nat} (h : isBlank (Char.ofNat n) = true) :
    (Char.ofNat n).toNat = n := by
  refine toNat_ofNat_of_ne fun zero => ?_
  rw [zero] at h
  exact absurd h (by decide)

/-- What a table that avoids blanks makes of a character is blank if the character is. -/
theorem isBlank_mapThrough {runs : Array (Nat × Nat × Nat × Int)}
    (avoids : ∀ run ∈ runs.toList, AvoidsBlanks run) (c : Char) :
    isBlank (((mapThrough runs c.toNat).map Char.ofNat).getD c) = isBlank c := by
  cases mapped : mapThrough runs c.toNat with
  | none => rfl
  | some n =>
    obtain ⟨run, found, eq⟩ := Option.map_eq_some_iff.mp mapped
    have avoids := avoids run (Array.mem_toList_iff.mpr (Array.mem_of_find?_eq_some found))
    have within := Array.find?_some found
    simp only [Bool.and_eq_true, decide_eq_true_eq] at within
    have source : isBlank c = false := by
      refine Bool.eq_false_iff.mpr fun blank => ?_
      obtain ⟨r, mem, here⟩ := isBlank_iff.mp blank
      have apart := (avoids r mem).1
      omega
    have target : isBlank (Char.ofNat n) = false := by
      refine Bool.eq_false_iff.mpr fun blank => ?_
      obtain ⟨r, mem, here⟩ := isBlank_iff.mp blank
      rw [toNat_ofNat_of_isBlank blank] at here
      have apart := (avoids r mem).2
      have positive : ∀ r ∈ blankRanges, 0 < r.1 := by decide
      have positive := positive r mem
      omega
    exact target.trans source.symm

theorem all_isBlank_lowerChar (c : Char) : (lowerChar c).all isBlank = isBlank c := by
  unfold lowerChar
  split
  next small => exact (ascii_case small).1.1
  next =>
    split
    next dotted =>
      have code : c = Char.ofNat 0x130 := by
        rw [← Char.ofNat_toNat c, eq_of_beq dotted]
      rw [code]
      decide
    next =>
      rw [List.all_cons, List.all_nil, Bool.and_true]
      exact isBlank_mapThrough tables_avoidBlanks.2.1 c

/-- The upper case of a character is a blank, or has one, exactly if the character is a blank. -/
theorem isBlank_of_mem_upperChar {x : Char} (h : x ∈ upperChar c) : isBlank x = isBlank c := by
  unfold upperChar at h
  split at h
  next small =>
    rw [List.mem_singleton.mp h]
    exact (ascii_case small).1.2
  next =>
    split at h
    next code expansion found =>
      obtain ⟨apart, -, plain⟩ := tables_avoidBlanks.2.2 _
        (Array.mem_toList_iff.mpr (Array.mem_of_find?_eq_some found))
      have here : code = c.toNat := by simpa using Array.find?_some found
      obtain ⟨n, mem, rfl⟩ := List.mem_map.mp h
      have source : isBlank c = false := by
        refine Bool.eq_false_iff.mpr fun blank => ?_
        obtain ⟨r, mem, within⟩ := isBlank_iff.mp blank
        have apart := apart r mem
        simp only [here] at apart
        omega
      exact (plain n mem).trans source.symm
    next =>
      rw [List.mem_singleton.mp h]
      exact isBlank_mapThrough tables_avoidBlanks.1 c

theorem upperChar_ne_nil (c : Char) : upperChar c ≠ [] := by
  unfold upperChar
  split
  next => nofun
  next =>
    split
    next code expansion found =>
      obtain ⟨-, some, -⟩ := tables_avoidBlanks.2.2 _
        (Array.mem_toList_iff.mpr (Array.mem_of_find?_eq_some found))
      exact fun none => some (List.map_eq_nil_iff.mp none)
    next => nofun

theorem all_isBlank_upperChar (c : Char) : (upperChar c).all isBlank = isBlank c := by
  rw [Bool.eq_iff_iff, List.all_eq_true]
  constructor
  · intro blanks
    obtain ⟨x, mem⟩ := List.exists_mem_of_ne_nil _ (upperChar_ne_nil c)
    rw [← isBlank_of_mem_upperChar mem]
    exact blanks x mem
  · intro blank x mem
    rw [isBlank_of_mem_upperChar mem]
    exact blank

/-- Only the underscore has an underscore in its upper case. -/
theorem eq_underscore_of_mem_upperChar (h : '_' ∈ upperChar c) : c = '_' := by
  have tables : (∀ e ∈ upperExpansions.toList, '_' ∉ e.2.map Char.ofNat) ∧
      ∀ run ∈ upperRuns.toList,
        run.2.1 + run.2.2.2 < (0x5F : Int) ∨ (0x5F : Int) < run.1 + run.2.2.2 := by
    decide +kernel
  obtain ⟨none_expands, apart⟩ := tables
  unfold upperChar at h
  split at h
  next small => exact (ascii_case small).2.2 h
  next =>
    split at h
    next code expansion found =>
      exact absurd h (none_expands _
        (Array.mem_toList_iff.mpr (Array.mem_of_find?_eq_some found)))
    next =>
      rw [List.mem_singleton] at h
      cases mapped : mapThrough upperRuns c.toNat with
      | none =>
        rw [mapped] at h
        exact h.symm
      | some n =>
        rw [mapped] at h
        obtain ⟨run, found, eq⟩ := Option.map_eq_some_iff.mp mapped
        have apart := apart run (Array.mem_toList_iff.mpr (Array.mem_of_find?_eq_some found))
        have within := Array.find?_some found
        simp only [Bool.and_eq_true, decide_eq_true_eq] at within
        have code : n = 0x5F := by
          have made : '_' = Char.ofNat n := h
          rw [← toNat_ofNat_of_ne (n := n) (by rw [← made]; decide), ← made]
          rfl
        omega

/-! ### Texts -/

theorem all_isBlank_lowerFrom (before cs : List Char) :
    (lowerFrom before cs).all isBlank = cs.all isBlank := by
  induction cs generalizing before with
  | nil => rfl
  | cons c rest ih =>
    rw [lowerFrom, List.all_append, ih, List.all_cons]
    congr 1
    split
    next sigma =>
      have code : c = Char.ofNat 0x3A3 := by
        rw [← Char.ofNat_toNat c, eq_of_beq sigma]
      rw [code]
      split <;> decide
    next => exact all_isBlank_lowerChar c

theorem isBlankText_lower (s : String) : isBlankText (lower s) = isBlankText s := by
  rw [isBlankText, lower, String.toList_ofList, all_isBlank_lowerFrom, isBlankText]

theorem isBlankText_capitalize (s : String) : isBlankText (capitalize s) = isBlankText s := by
  rw [isBlankText, capitalize, String.toList_ofList, isBlankText]
  cases s.toList with
  | nil => rfl
  | cons c rest => rw [capitalizeChars, List.all_append, all_isBlank_upperChar, List.all_cons]

end JsxAudit.Text
