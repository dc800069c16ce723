import JsxAudit.Audit.Deferred
import JsxAudit.Label.Icon
import JsxAudit.Proofs.Data.Keyed
import JsxAudit.Proofs.Text.Casing

/-!
Labels that show nothing.

Every ready label has a character that can be seen, no icon is without a name, and the controls that
rules name have labels in every locale (`isSome_controlLabel?`).

A label made of the words of an icon's name has a character that can be seen unless the name has none
before its ending (`isBlankText_iconLabel`), and a label made of the words of a field's name has one
unless the name has nothing but blanks and separators (`isBlankText_fieldWords`).
-/

namespace JsxAudit.Label

open Text Data

/-! ### Tables of labels -/

/-- The tables that ready labels are taken from. -/
def actionTables : List (List (String × String)) :=
  actionLabels :: localizedActionLabels.map (·.2)

theorem mem_actionTables {icon locale label : String}
    (h : curatedLabel? icon locale = some label) : ∃ table ∈ actionTables, (icon, label) ∈ table := by
  rcases Option.or_eq_some_iff.mp h with found | ⟨-, found⟩
  · obtain ⟨table, local', named⟩ := Option.bind_eq_some_iff.mp found
    exact ⟨table, List.mem_cons_of_mem _ (List.mem_map_of_mem (Keyed.mem_of_lookup local')),
      Keyed.mem_of_lookup named⟩
  · exact ⟨actionLabels, List.mem_cons_self, Keyed.mem_of_lookup found⟩

/-- Every label in the tables can be seen, and so can the beginning of every icon's name, which is
not only its ending. -/
theorem tables_visible :
    (∀ table ∈ plainLabels :: actionTables, ∀ pair ∈ table,
      isBlankText pair.2 = false ∧ pair.1.toList.head?.any (!isBlank ·) = true ∧ pair.1 ≠ "Icon") ∧
    ∀ language ∈ controlLabels, ∀ pair ∈ language.2, isBlankText pair.2 = false := by
  decide +kernel

/-- An icon with a ready label has a name, and the label is not empty. -/
theorem ne_empty_of_curatedLabel? {icon locale label : String}
    (h : curatedLabel? icon locale = some label) : icon ≠ "" ∧ label ≠ "" := by
  obtain ⟨table, mem, pair⟩ := mem_actionTables h
  obtain ⟨visible, named, -⟩ := tables_visible.1 table (List.mem_cons_of_mem _ mem) _ pair
  constructor
  · rintro rfl
    cases named
  · rintro rfl
    cases visible

/-- What has a name in English has one in every locale. -/
theorem isSome_controlLabel? {term : String} (locale : String)
    (h : ((controlLabels.lookup "en").bind (·.lookup term)).isSome) :
    (controlLabel? term locale).isSome := by
  obtain ⟨label, found⟩ := Option.isSome_iff_exists.mp h
  obtain ⟨english, known, named⟩ := Option.bind_eq_some_iff.mp found
  unfold controlLabel?
  simp [known, named]

/-! ### Words of names -/

/-- Spaces between words are all that is added. -/
theorem all_splitCamel {p : Char → Bool} (space : p ' ' = true) (cs : List Char) :
    (splitCamel cs).all p = cs.all p := by
  fun_induction splitCamel cs with
  | case1 => rfl
  | case2 c => rfl
  | case3 a b rest seam ih =>
    rw [List.all_cons, List.all_cons, ih, space, Bool.true_and]
    rfl
  | case4 a b rest none ih =>
    rw [List.all_cons, ih]
    rfl

theorem isBlankText_humanize (icon : String) :
    isBlankText (humanize icon) = isBlankText (withoutSuffix "Icon" icon) := by
  rw [humanize, isBlankText_capitalize, isBlankText_lower, isBlankText, String.toList_ofList,
    all_splitCamel (by decide), isBlankText]

/-- A name whose first character can be seen has nothing before its ending if it is the ending, and
only then. -/
theorem isBlankText_withoutSuffix_iff {suffix s : String}
    (shown : s.toList.head?.any (!isBlank ·) = true) :
    isBlankText (withoutSuffix suffix s) = true ↔ s = suffix := by
  have begins (cs rest : List Char) (first : (cs ++ rest).head?.any (!isBlank ·) = true)
      (blank : cs.all isBlank = true) : cs = [] := by
    cases cs with
    | nil => rfl
    | cons c cs =>
      obtain ⟨blank, -⟩ := Bool.and_eq_true_iff.mp (List.all_cons ▸ blank)
      simp [blank] at first
  unfold withoutSuffix
  split
  next ends =>
    obtain ⟨front, whole⟩ := List.isSuffixOf_iff_suffix.mp ends
    have stem : s.toList.take (s.length - suffix.length) = front := by
      rw [← String.length_toList, ← String.length_toList, ← whole]
      simp
    rw [isBlankText, String.toList_ofList, stem]
    constructor
    · intro blank
      rw [begins front _ (whole ▸ shown) blank, List.nil_append] at whole
      exact String.toList_injective whole.symm
    · rintro rfl
      rw [List.append_left_eq_self.mp whole]
      rfl
  next other =>
    constructor
    · intro blank
      have empty := begins s.toList [] (by simpa using shown) blank
      simp [empty] at shown
    · rintro rfl
      exact absurd (List.isSuffixOf_iff_suffix.mpr List.suffix_rfl) other

/-! ### Labels of icons -/

/-- The label of an icon is blank if its name is without the ending, and only then. -/
theorem isBlankText_iconLabel (icon locale : String) :
    isBlankText (iconLabel icon locale) = isBlankText (withoutSuffix "Icon" icon) := by
  have ready {table : List (String × String)} {label : String}
      (mem : table ∈ plainLabels :: actionTables) (pair : (icon, label) ∈ table) :
      isBlankText label = isBlankText (withoutSuffix "Icon" icon) := by
    obtain ⟨visible, shown, other⟩ := tables_visible.1 table mem _ pair
    have named : isBlankText (withoutSuffix "Icon" icon) = false :=
      Bool.eq_false_iff.mpr fun blank => other ((isBlankText_withoutSuffix_iff shown).mp blank)
    exact visible.trans named.symm
  unfold iconLabel
  cases curated : curatedLabel? icon locale with
  | some label =>
    obtain ⟨table, mem, pair⟩ := mem_actionTables curated
    exact ready (List.mem_cons_of_mem _ mem) pair
  | none =>
    cases plain : plainLabels.lookup icon with
    | some label => exact ready List.mem_cons_self (Keyed.mem_of_lookup plain)
    | none => exact isBlankText_humanize icon

/-! ### Labels of controls -/

theorem isBlankText_controlLabel? {term locale label : String}
    (h : controlLabel? term locale = some label) : isBlankText label = false := by
  have visible {language : String} {labels : List (String × String)} {label : String}
      (known : controlLabels.lookup language = some labels) (named : labels.lookup term = some label) :
      isBlankText label = false :=
    tables_visible.2 _ (Keyed.mem_of_lookup known) _ (Keyed.mem_of_lookup named)
  simp only [controlLabel?, Option.bind_eq_bind, Option.bind_eq_some_iff, Option.pure_def,
    Option.some.injEq] at h
  obtain ⟨english, known, fallback, named, rfl⟩ := h
  cases other : controlLabels.lookup (baseLocale locale) with
  | none =>
    rw [Option.getD_none, named]
    exact visible known named
  | some labels =>
    cases own : labels.lookup term with
    | none =>
      rw [Option.getD_some, own]
      exact visible known named
    | some label =>
      rw [Option.getD_some, own]
      exact visible other own

/-- A label around a variable stands between braces. -/
theorem isBlankText_wrap (label variable' : String) :
    isBlankText (LoopVariable.wrap label variable') = false := by
  have brace : isBlank '{' = false := by decide
  simp [isBlankText, LoopVariable.wrap, LoopVariable.wrapChars, brace]

/-! ### Labels of fields -/

/-- Characters that stand between the words of a field's name. -/
def isSeparator (c : Char) : Bool :=
  isBlank c || c == '_' || c == '-'

theorem isBlankText_fieldWords (name : String) :
    isBlankText (Audit.Deferred.fieldWords name) = name.toList.all isSeparator := by
  have spaced (c : Char) :
      isBlank (if c == '_' || c == '-' then ' ' else c) = isSeparator c := by
    unfold isSeparator
    split
    next mark => simp only [Bool.or_assoc, mark, Bool.or_true]; rfl
    next plain => simp [Bool.or_assoc, plain]
  have same : (isBlank ∘ fun c => if c == '_' || c == '-' then ' ' else c) = isSeparator :=
    funext spaced
  rw [Audit.Deferred.fieldWords, isBlankText_capitalize, isBlankText, String.toList_ofList,
    List.all_map, same, all_splitCamel (by decide)]

end JsxAudit.Label
