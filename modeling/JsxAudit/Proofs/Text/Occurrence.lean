import JsxAudit.Proofs.Text.Renaming

/-!
Words that are looked for in a text without regard to case.

What is made of letters is found in a text if and only if it is found in one of its words
(`occursIgnoringCase_eq_any`).
-/

namespace JsxAudit.Text

open Syntax (isNameChar)

variable {literal cs rest : List Char}

/-! ### Letters -/

theorem isNameChar_of_isAlpha {c : Char} (alpha : c.isAlpha = true) : isNameChar c = true := by
  have range : 65 ≤ c.toNat ∧ c.toNat ≤ 90 ∨ 97 ≤ c.toNat ∧ c.toNat ≤ 122 := by
    have letter : (c.isUpper || c.isLower) = true := alpha
    rw [Bool.or_eq_true] at letter
    rcases letter with upper | lower
    · exact .inl (of_decide_eq_true upper)
    · have range := Bool.and_eq_true_iff.mp lower
      exact .inr ⟨of_decide_eq_true range.1, of_decide_eq_true range.2⟩
  have space : Syntax.isSpace c = false := by
    simp only [Syntax.isSpace, Bool.or_eq_false_iff, Bool.and_eq_false_iff, decide_eq_false_iff_not,
      beq_eq_false_iff_ne]
    omega
  have mark : Syntax.isMark c = false := by
    by_contra is
    simp only [Syntax.isMark, Bool.not_eq_false, Bool.or_eq_true, List.contains_iff_mem,
      beq_iff_eq] at is
    have none : (":;\"@#.,|^&<=>+-*/\\%?!~()[]\x7b\x7d".toList.all fun m => !m.isAlpha) = true := by
      decide
    rcases is with (listed | rfl) | rfl
    · simpa [alpha] using List.all_eq_true.mp none c listed
    · exact absurd alpha (by decide)
    · exact absurd alpha (by decide)
  rw [isNameChar, space, mark]
  simp only [Bool.not_false, Bool.and_true, decide_eq_true_eq]
  omega

/-- What becomes a small letter is a letter. -/
theorem isAlpha_of_isLower_toLower {c : Char} (small : c.toLower.isLower = true) :
    c.isAlpha = true := by
  change (c.isUpper || c.isLower) = true
  rw [Bool.or_eq_true]
  by_cases capital : c.isUpper = true
  · exact .inl capital
  · have kept : c.toLower = c := dif_neg fun range => capital (decide_eq_true range)
    rw [kept] at small
    exact .inr small

theorem isNameChar_of_sameLetter {l c : Char} (small : l.toLower.isLower = true)
    (same : sameLetter l c = true) : isNameChar c = true := by
  simp only [sameLetter, Bool.or_eq_true, Bool.and_eq_true, beq_iff_eq] at same
  rcases same with ((ascii | ⟨-, dotted | dotless⟩) | ⟨-, long⟩) | ⟨-, kelvin⟩
  · exact isNameChar_of_isAlpha (isAlpha_of_isLower_toLower (ascii ▸ small))
  · rw [← Char.ofNat_toNat c, dotted]
    decide
  · rw [← Char.ofNat_toNat c, dotless]
    decide
  · rw [← Char.ofNat_toNat c, long]
    decide
  · rw [← Char.ofNat_toNat c, kelvin]
    decide

/-! ### Occurrences -/

/-- The characters are those of a literal, letters compared without case. -/
def Matches (literal cs : List Char) : Prop :=
  List.Forall₂ (fun l c => sameLetter l c = true) literal cs

theorem Matches.names (h : Matches literal cs)
    (letters : ∀ l ∈ literal, l.toLower.isLower = true) : ∀ c ∈ cs, isNameChar c = true := by
  induction h with
  | nil => exact fun c mem => absurd mem List.not_mem_nil
  | @cons l c literal cs same _ ih =>
    obtain ⟨first, others⟩ := List.forall_mem_cons.mp letters
    exact List.forall_mem_cons.mpr ⟨isNameChar_of_sameLetter first same, ih others⟩

theorem dropLiteral_eq_some_iff :
    dropLiteral literal cs = some rest ↔ ∃ w, Matches literal w ∧ cs = w ++ rest := by
  induction literal generalizing cs with
  | nil =>
    rw [dropLiteral, Option.some_inj]
    constructor
    · rintro rfl
      exact ⟨[], .nil, rfl⟩
    · rintro ⟨w, found, rfl⟩
      cases found
      rfl
  | cons l literal ih =>
    cases cs with
    | nil =>
      constructor
      · intro h
        cases h
      · rintro ⟨w, found, eq⟩
        cases found
        cases eq
    | cons c cs =>
      rw [dropLiteral]
      constructor
      · intro h
        split at h
        · rename_i same
          obtain ⟨w, found, rfl⟩ := ih.mp h
          exact ⟨c :: w, .cons same found, rfl⟩
        · cases h
      · rintro ⟨w, found, eq⟩
        cases found with
        | @cons _ d _ w same found =>
          obtain ⟨rfl, rfl⟩ := List.cons.inj eq
          rw [if_pos same]
          exact ih.mpr ⟨w, found, rfl⟩

theorem occursIgnoringCase_iff :
    occursIgnoringCase literal cs = true ↔ ∃ w, Matches literal w ∧ w <:+: cs := by
  induction cs with
  | nil =>
    rw [occursIgnoringCase, List.isEmpty_iff]
    constructor
    · rintro rfl
      exact ⟨[], .nil, List.infix_rfl⟩
    · rintro ⟨w, found, inside⟩
      rw [List.infix_nil.mp inside] at found
      cases found
      rfl
  | cons c cs ih =>
    rw [occursIgnoringCase, Bool.or_eq_true, ih, Option.isSome_iff_exists]
    constructor
    · rintro (⟨rest, here⟩ | ⟨w, found, inside⟩)
      · obtain ⟨w, found, eq⟩ := dropLiteral_eq_some_iff.mp here
        exact ⟨w, found, eq ▸ (List.prefix_append w rest).isInfix⟩
      · exact ⟨w, found, List.infix_cons inside⟩
    · rintro ⟨w, found, inside⟩
      rcases List.infix_cons_iff.mp inside with ⟨rest, eq⟩ | inside
      · exact .inl ⟨rest, dropLiteral_eq_some_iff.mpr ⟨w, found, eq.symm⟩⟩
      · exact .inr ⟨w, found, inside⟩

/-- A literal of letters is found in a text if and only if a word of the text has it. -/
theorem occursIgnoringCase_eq_any (ne : literal ≠ [])
    (letters : ∀ l ∈ literal, l.toLower.isLower = true) (cs : List Char) :
    occursIgnoringCase literal cs = (pieces cs).any (occursIgnoringCase literal) := by
  rw [Bool.eq_iff_iff, occursIgnoringCase_iff, List.any_eq_true]
  constructor
  · rintro ⟨w, found, before, after, rfl⟩
    have names := found.names letters
    have some' : w ≠ [] := by
      rintro rfl
      cases found
      exact ne rfl
    obtain ⟨piece, mem, inside⟩ := exists_piece_of_infix some' names before after
    exact ⟨piece, mem, occursIgnoringCase_iff.mpr ⟨w, found, inside⟩⟩
  · rintro ⟨piece, mem, inside⟩
    obtain ⟨w, found, inside⟩ := occursIgnoringCase_iff.mp inside
    exact ⟨w, found, inside.trans (infix_of_mem_pieces mem)⟩

/-- A literal of letters is found in both of two texts that read alike, or in neither, unless it is
found in only one of the names. -/
theorem occursIgnoringCase_reads {r : Renaming} {s s' : String} (h : r.Reads s s')
    (ne : literal ≠ []) (letters : ∀ l ∈ literal, l.toLower.isLower = true)
    (between : ∀ piece ∈ [[':'], [' '], ['a', 's']], occursIgnoringCase literal piece = false)
    (same : occursIgnoringCase literal r.old.toList = occursIgnoringCase literal r.new.toList) :
    occursIgnoringCase literal s.toList = occursIgnoringCase literal s'.toList := by
  rw [occursIgnoringCase_eq_any ne letters, occursIgnoringCase_eq_any ne letters]
  exact h.any_piece same (between _ (by simp)) (between _ (by simp)) (between _ (by simp))

end JsxAudit.Text
