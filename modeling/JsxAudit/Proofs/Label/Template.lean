import JsxAudit.Label.LoopVariable

/-!
Template expressions read back.

A template is read from left to right, from behind its opening mark: a backslash makes the next
character stand for itself, a dollar sign with an opening brace behind it opens a substitution, and
a mark without a backslash ends the template. A label that is wrapped around a variable is read back
as it was, with the variable as the only substitution, and nothing of the label is read as code
(`readTemplate?_wrap`).
-/

namespace JsxAudit.Label.LoopVariable

/-! ### Reading templates -/

/-- A part of a template: a text, or the source of a substitution. -/
inductive Part where
  | text (cs : List Char)
  | hole (source : List Char)
  deriving DecidableEq, Repr

/-- The part with more characters in front. -/
def Part.prepend (front : List Char) : Part → Part
  | text cs => text (front ++ cs)
  | hole source => hole (front ++ source)

/-- The parts of a template, texts and substitutions in turn, and what stands behind it. -/
structure Reading where
  parts : List Part
  rest : List Char
  deriving DecidableEq, Repr

/-- The reading with more characters in front of its first part. -/
def Reading.prepend (front : List Char) (r : Reading) : Reading :=
  { r with parts := r.parts.modifyHead (Part.prepend front) }

/-- The reading with a part before its first one. -/
def Reading.cons (part : Part) (r : Reading) : Reading :=
  { r with parts := part :: r.parts }

/-- Where the reader of a template is: in a text, or in a substitution in which so many braces are
open. -/
inductive Place where
  | text
  | hole (depth : Nat)

/-- Reads on to the end of the template. A carriage return, alone or with a line feed, is a line
feed. A template inside a substitution is refused. -/
def readFrom : Place → List Char → Option Reading
  | _, [] => none
  | .text, '\\' :: c :: rest => (readFrom .text rest).map (·.prepend [c])
  | .text, '$' :: '{' :: rest => (readFrom (.hole 0) rest).map (·.cons (.text []))
  | .text, '\r' :: '\n' :: rest => (readFrom .text rest).map (·.prepend ['\n'])
  | .text, c :: rest =>
    if c = tick then some ⟨[.text []], rest⟩
    else (readFrom .text rest).map (·.prepend [if c = '\r' then '\n' else c])
  | .hole depth, c :: rest =>
    if c = tick then none
    else if c = '{' then (readFrom (.hole (depth + 1)) rest).map (·.prepend [c])
    else if c = '}' then
      match depth with
      | 0 => (readFrom .text rest).map (·.cons (.hole []))
      | depth + 1 => (readFrom (.hole depth) rest).map (·.prepend [c])
    else (readFrom (.hole depth) rest).map (·.prepend [c])

/-- Reads a template from its opening mark on. -/
def readTemplate? : List Char → Option Reading
  | [] => none
  | c :: rest => if c = tick then readFrom .text rest else none

/-! ### Texts -/

variable {c : Char} {cs rest label variable' : List Char}

theorem Reading.prepend_nil (r : Reading) : r.prepend [] = r := by
  have same (part : Part) : part.prepend [] = part := by cases part <;> rfl
  cases r with
  | mk parts rest => cases parts <;> simp [prepend, same]

theorem Reading.prepend_prepend (front back : List Char) (r : Reading) :
    (r.prepend back).prepend front = r.prepend (front ++ back) := by
  have same (part : Part) : (part.prepend back).prepend front = part.prepend (front ++ back) := by
    cases part <;> simp [Part.prepend]
  cases r with
  | mk parts rest => cases parts <;> simp [prepend, same]

theorem readFrom_escaped (c : Char) (rest : List Char) :
    readFrom .text ('\\' :: c :: rest) = (readFrom .text rest).map (·.prepend [c]) := by
  rw [readFrom]

/-- A character that is no mark of a template stands for itself. A dollar sign is one if no brace
follows it. -/
theorem readFrom_plain (slash : c ≠ '\\') (mark : c ≠ tick) (line : c ≠ '\r')
    (seam : c = '$' → rest.head? ≠ some '{') :
    readFrom .text (c :: rest) = (readFrom .text rest).map (·.prepend [c]) := by
  rw [readFrom]
  · simp [mark, line]
  · intro d rest' eq
    exact absurd eq slash
  · intro rest' eq behind
    exact absurd (by rw [behind, List.head?_cons]) (seam eq)
  · intro rest' eq
    exact absurd eq line

/-- Escaped characters do not begin with a brace unless the characters do. -/
theorem head?_escapeTemplate (h : cs.head? ≠ some '{') : (escapeTemplate cs).head? ≠ some '{' := by
  fun_cases escapeTemplate cs with
  | case1 => exact h
  | case2 => simp
  | case3 => simp
  | case4 c rest => simpa using h

theorem head?_append_ne {c : Char} (h : cs.head? ≠ some c) (h' : rest.head? ≠ some c) :
    (cs ++ rest).head? ≠ some c := by
  cases cs with
  | nil => exact h'
  | cons d cs => exact h

/-- A label is read back from its escaped characters, whatever stands behind it but a brace. -/
theorem readFrom_escapeTemplate (lines : '\r' ∉ label) (seam : rest.head? ≠ some '{') :
    readFrom .text (escapeTemplate label ++ rest) =
      (readFrom .text rest).map (·.prepend label) := by
  have more (front : List Char) (label : List Char) :
      ((readFrom .text rest).map (·.prepend label)).map (·.prepend front) =
        (readFrom .text rest).map (·.prepend (front ++ label)) := by
    simp only [Option.map_map, Function.comp_def, Reading.prepend_prepend]
  fun_induction escapeTemplate label with
  | case1 => simp [Reading.prepend_nil]
  | case2 label ih =>
    have ih := ih fun mem => lines (by simp [mem])
    rw [List.cons_append, List.cons_append, List.cons_append, readFrom_escaped,
      readFrom_plain (by decide) (by decide) (by decide) (by simp), ih, more, more]
    rfl
  | case3 c label _ special ih =>
    have ih := ih fun mem => lines (by simp [mem])
    rw [List.cons_append, List.cons_append, readFrom_escaped, ih, more]
    rfl
  | case4 c label open' plain ih =>
    simp only [Bool.or_eq_true, decide_eq_true_eq, not_or] at plain
    have line : c ≠ '\r' := fun eq => lines (by simp [eq])
    have ih := ih fun mem => lines (by simp [mem])
    have behind : c = '$' → (escapeTemplate label ++ rest).head? ≠ some '{' := by
      intro eq
      refine head?_append_ne (head?_escapeTemplate fun head => ?_) seam
      obtain ⟨label', rfl⟩ := List.head?_eq_some_iff.mp head
      exact open' label' eq rfl
    rw [List.cons_append, readFrom_plain plain.1 plain.2 line behind, ih, more]
    rfl

/-! ### Substitutions -/

/-- A source without braces and marks goes up to the next closing brace. -/
theorem readFrom_hole (opening : '{' ∉ variable') (closing : '}' ∉ variable')
    (mark : tick ∉ variable') :
    readFrom (.hole 0) (variable' ++ '}' :: rest) =
      (readFrom .text rest).map (·.cons (.hole variable')) := by
  induction variable' with
  | nil =>
    have apart : '}' ≠ tick := by decide
    simp [readFrom, apart]
  | cons c cs ih =>
    simp only [List.mem_cons, not_or] at opening closing mark
    rw [List.cons_append, readFrom, if_neg (Ne.symm mark.1), if_neg (Ne.symm opening.1),
      if_neg (Ne.symm closing.1), ih opening.2 closing.2 mark.2, Option.map_map]
    rfl

/-! ### Wrapped labels -/

/-- A label without carriage returns around a variable without braces and marks is an expression
between braces, whose template is read as the label with a space behind it, the variable as its one
substitution, and an empty text. The template ends at its last mark. -/
theorem readTemplate?_wrap {label variable' : String} (lines : '\r' ∉ label.toList)
    (opening : '{' ∉ variable'.toList) (closing : '}' ∉ variable'.toList)
    (mark : tick ∉ variable'.toList) :
    ∃ template, (wrap label variable').toList = '{' :: template ∧
      readTemplate? template =
        some ⟨[.text (label.toList ++ [' ']), .hole variable'.toList, .text []], ['}']⟩ := by
  have written : (wrap label variable').toList = '{' :: tick :: (escapeTemplate label.toList ++
      ' ' :: '$' :: '{' :: (variable'.toList ++ ['}', tick, '}'])) := by
    simp [wrap, wrapChars]
  refine ⟨_, written, ?_⟩
  have ends : readFrom .text [tick, '}'] = some ⟨[.text []], ['}']⟩ := by decide
  have space : readFrom .text (' ' :: '$' :: '{' :: (variable'.toList ++ ['}', tick, '}'])) =
      some ⟨[.text [' '], .hole variable'.toList, .text []], ['}']⟩ := by
    rw [readFrom_plain (by decide) (by decide) (by decide) (by simp), readFrom,
      readFrom_hole opening closing mark, ends]
    rfl
  rw [readTemplate?, if_pos rfl, readFrom_escapeTemplate lines (by simp), space]
  rfl

/-- A label with a backslash, a mark and the opening of a substitution, and a dollar sign next to
the substitution that is its own. -/
theorem readTemplate?_wrap_marks :
    let label := "\\\x60$\x7bx\x7d\\$"
    ∃ template, (wrap label "item.name").toList = '{' :: template ∧
      readTemplate? template =
        some ⟨[.text (label.toList ++ [' ']), .hole "item.name".toList, .text []], ['}']⟩ :=
  readTemplate?_wrap (by decide) (by decide) (by decide) (by decide)

end JsxAudit.Label.LoopVariable
