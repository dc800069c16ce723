import JsxAudit.Text.Blank

/-!
Blanks around texts, blanks between words, and separators between pieces.

Blanks at either end of a text do not count when it is trimmed (`trim_append`). A blank inside of a
text separates the words before it from the words behind it (`wordsFrom_append`), so words that are
put together with spaces come apart again (`words_intercalate`).

No piece of a text between separators holds one (`not_mem_of_mem_splitChars`), and what stands before
a separator and what stands behind it are split on their own (`splitChars_append_sep`).
-/

namespace JsxAudit.Text

variable {a b cs rest word : List Char} {c : Char}

/-! ### Trimming -/

/-- Blanks at either end of characters are trimmed, whatever the characters are. -/
theorem trimChars_append (before : ∀ c ∈ a, isBlank c = true) (behind : ∀ c ∈ b, isBlank c = true) :
    trimChars (a ++ cs ++ b) = trimChars cs := by
  rw [trimChars, trimChars, List.append_assoc, List.dropWhile_append_of_pos before,
    List.dropWhile_append]
  cases left : cs.dropWhile isBlank with
  | nil =>
    have none : (b ++ []).dropWhile isBlank = [] := List.dropWhile_append_of_pos behind
    rw [List.append_nil] at none
    simp [none]
  | cons c rest =>
    have behind' : ∀ c ∈ b.reverse, isBlank c = true := fun c mem =>
      behind c (List.mem_reverse.mp mem)
    rw [List.isEmpty_cons, if_neg Bool.false_ne_true, List.reverse_append,
      List.dropWhile_append_of_pos behind']

theorem trim_append {before behind : String} (blank : isBlankText before = true)
    (blank' : isBlankText behind = true) (s : String) : trim (before ++ s ++ behind) = trim s := by
  rw [trim, trim, String.toList_append, String.toList_append,
    trimChars_append (List.all_eq_true.mp blank) (List.all_eq_true.mp blank')]

/-- Characters between two that are no blanks stay as they are. -/
theorem trimChars_of_edges (first : isBlank c = false) {last : Char}
    (final : isBlank last = false) : trimChars (c :: cs ++ [last]) = c :: cs ++ [last] := by
  rw [trimChars, List.cons_append, List.dropWhile_cons_of_neg (by simp [first])]
  simp [List.dropWhile_cons_of_neg, final]

/-! ### Words -/

/-- A blank separates words. -/
theorem wordsFrom_append (blank : isBlank c = true) (word cs rest : List Char) :
    wordsFrom word (cs ++ c :: rest) = wordsFrom word cs ++ wordsFrom [] rest := by
  induction cs generalizing word with
  | nil =>
    rw [List.nil_append]
    simp only [wordsFrom, blank, if_true]
    split <;> rfl
  | cons d cs ih =>
    rw [List.cons_append, wordsFrom, wordsFrom]
    split
    · split
      · exact ih []
      · rw [ih [], List.cons_append]
    · exact ih (d :: word)

/-- The words of characters together are all of the characters but the blanks. -/
theorem flatten_wordsFrom (word cs : List Char) :
    (wordsFrom word cs).flatten = word.reverse ++ cs.filter (!isBlank ·) := by
  induction cs generalizing word with
  | nil => cases word <;> simp [wordsFrom]
  | cons c cs ih =>
    by_cases blank : isBlank c = true
    · cases word <;> simp [wordsFrom, blank, ih]
    · simp [wordsFrom, blank, ih]

theorem wordsFrom_ne_nil (mem : c ∈ cs) (visible : isBlank c = false) : wordsFrom word cs ≠ [] := by
  intro none
  have whole := flatten_wordsFrom word cs
  rw [none, List.flatten_nil, eq_comm, List.append_eq_nil_iff, List.filter_eq_nil_iff] at whole
  simpa [visible] using whole.2 c mem

theorem ne_nil_of_mem_wordsFrom {w : List Char} (h : w ∈ wordsFrom word cs) : w ≠ [] := by
  fun_induction wordsFrom word cs with
  | case1 => cases h
  | case2 word some =>
    rw [List.mem_singleton.mp h]
    simpa using some
  | case3 word c rest blank empty ih => exact ih h
  | case4 word c rest blank some ih =>
    rcases List.mem_cons.mp h with rfl | later
    · simpa using some
    · exact ih later
  | case5 word c rest visible ih => exact ih h

/-- A word has characters, all of them from its text and none of them a blank. -/
theorem mem_words {s w : String} (h : w ∈ words s) :
    w ≠ "" ∧ ∀ d ∈ w.toList, d ∈ s.toList ∧ isBlank d = false := by
  obtain ⟨cs, mem, rfl⟩ := List.mem_map.mp h
  have some := ne_nil_of_mem_wordsFrom mem
  rw [String.toList_ofList]
  refine ⟨fun empty => some ?_, fun d inside => ?_⟩
  · rw [← String.toList_ofList (l := cs), empty]
    rfl
  · have shown : d ∈ (wordsFrom [] s.toList).flatten := List.mem_flatten.mpr ⟨cs, mem, inside⟩
    rw [flatten_wordsFrom] at shown
    simpa using shown

/-- Characters without a blank belong to the word that is read. -/
theorem wordsFrom_of_visible (visible : ∀ c ∈ cs, isBlank c = false) (word : List Char) :
    wordsFrom word cs = wordsFrom (cs.reverse ++ word) [] := by
  induction cs generalizing word with
  | nil => rfl
  | cons c rest ih =>
    obtain ⟨first, others⟩ := List.forall_mem_cons.mp visible
    have step : wordsFrom word (c :: rest) = wordsFrom (c :: word) rest := by
      simp [wordsFrom, first]
    rw [step, ih others, List.reverse_cons, List.append_assoc, List.singleton_append]

/-- A text without a blank is a single word. -/
theorem words_of_visible {s : String} (some : s ≠ "") (visible : ∀ c ∈ s.toList, isBlank c = false) :
    words s = [s] := by
  have filled : s.toList.reverse.isEmpty = false := by simpa using some
  rw [words, wordsFrom_of_visible visible, List.append_nil, wordsFrom, filled,
    if_neg Bool.false_ne_true, List.reverse_reverse, List.map_singleton, String.ofList_toList]

/-- Words with a space between every two of them are read back as they are. -/
theorem words_intercalate {ws : List String}
    (each : ∀ w ∈ ws, w ≠ "" ∧ ∀ c ∈ w.toList, isBlank c = false) :
    words (" ".intercalate ws) = ws := by
  induction ws with
  | nil => rfl
  | cons first rest ih =>
    obtain ⟨⟨some, visible⟩, others⟩ := List.forall_mem_cons.mp each
    cases rest with
    | nil => rw [String.intercalate_singleton, words_of_visible some visible]
    | cons second rest =>
      have space : isBlank ' ' = true := by decide
      have chars : (first ++ " " ++ " ".intercalate (second :: rest)).toList =
          first.toList ++ ' ' :: (" ".intercalate (second :: rest)).toList := by
        simp [String.toList_append]
      calc words (" ".intercalate (first :: second :: rest))
          = words (first ++ " " ++ " ".intercalate (second :: rest)) := by
            rw [String.intercalate_cons_cons]
        _ = words first ++ words (" ".intercalate (second :: rest)) := by
            rw [words, chars, wordsFrom_append space, List.map_append, words, words]
        _ = first :: second :: rest := by
            rw [words_of_visible some visible, ih others, List.singleton_append]

/-! ### Pieces between separators -/

/-- A piece of a text without separators is the only one. -/
theorem splitChars_of_not_mem {sep : Char} {cs : List Char} (h : sep ∉ cs) :
    splitChars sep cs = [cs] := by
  induction cs with
  | nil => rfl
  | cons c rest ih =>
    have ne : c ≠ sep := fun same => h (same ▸ List.mem_cons_self)
    rw [splitChars, if_neg ne, ih (fun mem => h (List.mem_cons_of_mem _ mem))]

/-- The piece before the first separator. -/
theorem splitChars_append {sep : Char} {cs : List Char} (h : sep ∉ cs) (rest : List Char) :
    splitChars sep (cs ++ sep :: rest) = cs :: splitChars sep rest := by
  induction cs with
  | nil => simp [splitChars]
  | cons c more ih =>
    have ne : c ≠ sep := fun same => h (same ▸ List.mem_cons_self)
    rw [List.cons_append, splitChars, if_neg ne, ih (fun mem => h (List.mem_cons_of_mem _ mem))]

theorem splitChars_ne_nil (sep : Char) (cs : List Char) : splitChars sep cs ≠ [] := by
  cases cs with
  | nil => nofun
  | cons c rest =>
    rw [splitChars]
    split
    · nofun
    · split <;> nofun

theorem not_mem_of_mem_splitChars {sep : Char} {cs piece : List Char}
    (h : piece ∈ splitChars sep cs) : sep ∉ piece := by
  induction cs generalizing piece with
  | nil =>
    rw [List.mem_singleton.mp h]
    exact List.not_mem_nil
  | cons c rest ih =>
    rw [splitChars] at h
    split at h
    · rcases List.mem_cons.mp h with rfl | h
      · exact List.not_mem_nil
      · exact ih h
    · rename_i ne
      cases pieces : splitChars sep rest with
      | nil => exact absurd pieces (splitChars_ne_nil sep rest)
      | cons first others =>
        rw [pieces] at h ih
        rcases List.mem_cons.mp h with rfl | h
        · intro mem
          rcases List.mem_cons.mp mem with same | mem
          · exact ne same.symm
          · exact ih List.mem_cons_self mem
        · exact ih (List.mem_cons_of_mem _ h)

theorem splitChars_cons_ne {sep c : Char} (ne : c ≠ sep) {cs first : List Char}
    {others : List (List Char)} (h : splitChars sep cs = first :: others) :
    splitChars sep (c :: cs) = (c :: first) :: others := by
  rw [splitChars, if_neg ne, h]

theorem splitChars_append_sep (sep : Char) (cs rest : List Char) :
    splitChars sep (cs ++ sep :: rest) = splitChars sep cs ++ splitChars sep rest := by
  induction cs with
  | nil => simp [splitChars]
  | cons c more ih =>
    by_cases same : c = sep
    · rw [List.cons_append, splitChars, if_pos same, ih, splitChars, if_pos same]
      rfl
    · cases pieces : splitChars sep more with
      | nil => exact absurd pieces (splitChars_ne_nil sep more)
      | cons first others =>
        rw [pieces] at ih
        rw [List.cons_append, splitChars_cons_ne same ih, splitChars_cons_ne same pieces]
        rfl

/-! ### Pieces put together -/

/-- What is put together of two rows of pieces has one more separator between the two. -/
theorem intercalate_append {sep : String} {front behind : List String} (filled : front ≠ [])
    (more : behind ≠ []) :
    sep.intercalate (front ++ behind) = sep.intercalate front ++ sep ++ sep.intercalate behind := by
  induction front with
  | nil => exact absurd rfl filled
  | cons first rest ih =>
    cases rest with
    | nil =>
      obtain ⟨second, others, rfl⟩ := List.exists_cons_of_ne_nil more
      rw [List.cons_append, List.nil_append, String.intercalate_cons_cons,
        String.intercalate_singleton]
    | cons second rest =>
      rw [List.cons_append, List.cons_append, String.intercalate_cons_cons, ← List.cons_append,
        ih (List.cons_ne_nil _ _), String.intercalate_cons_cons]
      simp only [String.append_assoc]

end JsxAudit.Text
