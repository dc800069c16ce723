import JsxAudit.Proofs.Label.Template
import JsxAudit.Proofs.Repair.Property
import JsxAudit.Proofs.Text.Bytes

/-!
What texts in code say.

A template is split at its substitutions first, and then each text in it is read with its escapes
decoded, as the inside of a string is (`cooked?`). A text with a backslash never says what is
written (`cooked?_eq_iff`). A label that is wrapped around a variable says what is written in the
label, then a space, then what the variable says (`readLabel?_wrap`): the escapes of the label are
escaped once more, and stay.
-/

namespace JsxAudit.Label.LoopVariable

open Repair Text

/-! ### Escapes -/

/-- The code units that a text without carriage returns stands for when its escapes are decoded. -/
def cook? : List Char → Option (List Nat)
  | [] => some []
  | '\\' :: rest =>
    match _ : escape? rest with
    | some (units, behind) => (cook? behind).map (units ++ ·)
    | none => none
  | c :: rest => (cook? rest).map (codeUnits c.toNat ++ ·)
termination_by cs => cs.length
decreasing_by
  · have shorter := length_of_escape? ‹_›
    simp only [List.length_cons]
    omega
  · simp

/-- The code units of a text between the quotes of a string or the marks of a template. Each of its
ends of lines is a line feed. -/
def cooked? (cs : List Char) : Option (List Nat) :=
  cook? (lineFeedChars cs)

/-! ### Splitting templates -/

/-- Where the reader of a template is: in a text, or in a substitution, there perhaps in a
comment. -/
inductive Position where
  | text
  | code
  | lineComment
  | blockComment

/-- Characters of code that do not simply stand in a row: braces, and what begins a string, a
template, a regular expression or a comment. -/
def isMark (c : Char) : Bool :=
  c = '{' || c = '}' || c = '"' || c = Char.ofNat 39 || c = tick || c = '/'

/-- The parts of a template as they are written, up to its end. Of the marks in a substitution, the
comments and the closing brace are read, and all others are refused. -/
def splitFrom : Position → List Char → Option Reading
  | _, [] => none
  | .text, '\\' :: c :: rest => (splitFrom .text rest).map (·.prepend ['\\', c])
  | .text, '$' :: '{' :: rest => (splitFrom .code rest).map (·.cons (.text []))
  | .text, c :: rest =>
    if c = tick then some ⟨[.text []], rest⟩ else (splitFrom .text rest).map (·.prepend [c])
  | .code, '/' :: '/' :: rest => (splitFrom .lineComment rest).map (·.prepend ['/', '/'])
  | .code, '/' :: '*' :: rest => (splitFrom .blockComment rest).map (·.prepend ['/', '*'])
  | .code, '}' :: rest => (splitFrom .text rest).map (·.cons (.hole []))
  | .code, c :: rest => if isMark c then none else (splitFrom .code rest).map (·.prepend [c])
  | .lineComment, c :: rest =>
    (splitFrom (if Syntax.endsLine c then .code else .lineComment) rest).map (·.prepend [c])
  | .blockComment, '*' :: '/' :: rest => (splitFrom .code rest).map (·.prepend ['*', '/'])
  | .blockComment, c :: rest => (splitFrom .blockComment rest).map (·.prepend [c])

/-- Splits a template from its opening mark on. -/
def splitTemplate? : List Char → Option Reading
  | [] => none
  | c :: rest => if c = tick then splitFrom .text rest else none

/-- Code in which no mark stands outside of comments. -/
inductive IsUnmarked : List Char → Prop
  | nil : IsUnmarked []
  | cons {c : Char} {cs : List Char} : isMark c = false → IsUnmarked cs → IsUnmarked (c :: cs)
  | lineComment {text cs : List Char} {c : Char} : (∀ d ∈ text, Syntax.endsLine d = false) →
      Syntax.endsLine c = true → IsUnmarked cs → IsUnmarked ('/' :: '/' :: (text ++ c :: cs))
  | blockComment {text cs : List Char} : ¬ ['*', '/'] <:+: text → IsUnmarked cs →
      IsUnmarked ('/' :: '*' :: (text ++ '*' :: '/' :: cs))

/-! ### Reading labels -/

/-- What a part of a template says, given what the sources of substitutions do. -/
def unitsOfPart? (item? : List Char → Option (List Nat)) : Part → Option (List Nat)
  | .text cs => cooked? cs
  | .hole source => item? source

/-- Reads an attribute that is set to a template: what it says, and what stands behind it. -/
def readLabel? (item? : List Char → Option (List Nat)) (name : String) (cs : List Char) :
    Option (List Nat × List Char) := do
  let inside ← dropStart (name ++ "=\x7b").toList cs
  let reading ← splitTemplate? inside
  let units ← reading.parts.mapM (unitsOfPart? item?)
  let rest ← dropStart ['}'] reading.rest
  return (units.flatten, rest)

/-! ### Code units -/

variable {c : Char} {cs cs' rest label variable' text : List Char} {units : List Nat}

/-- The code units of a character are told from what follows them. -/
theorem codeUnits_append_inj {units units' : List Nat} {d : Char}
    (h : codeUnits c.toNat ++ units = codeUnits d.toNat ++ units') : c = d ∧ units = units' := by
  have valid (c : Char) : c.toNat < 0xD800 ∨ 0xDFFF < c.toNat ∧ c.toNat < 0x110000 := c.valid
  have left := valid c
  have right := valid d
  unfold codeUnits at h
  split at h
  · split at h
    · obtain ⟨first, more⟩ := List.cons.inj h
      exact ⟨Char.toNat_inj.mp first, more⟩
    · obtain ⟨first, -⟩ := List.cons.inj h
      omega
  · split at h
    · obtain ⟨first, -⟩ := List.cons.inj h
      omega
    · obtain ⟨first, more⟩ := List.cons.inj h
      obtain ⟨second, more⟩ := List.cons.inj more
      exact ⟨Char.toNat_inj.mp (by omega), more⟩

/-- Texts are told by their code units. -/
theorem unitsOf_injective (h : unitsOf cs = unitsOf cs') : cs = cs' := by
  have filled (c : Char) (cs : List Char) : unitsOf (c :: cs) ≠ [] := by
    have some := (length_codeUnits c.toNat).1
    rw [unitsOf_cons]
    exact List.append_ne_nil_of_left_ne_nil (List.ne_nil_of_length_pos some) _
  induction cs generalizing cs' with
  | nil =>
    cases cs' with
    | nil => rfl
    | cons d cs' => exact absurd h.symm (filled d cs')
  | cons c cs ih =>
    cases cs' with
    | nil => exact absurd h (filled c cs)
    | cons d cs' =>
      rw [unitsOf_cons, unitsOf_cons] at h
      obtain ⟨rfl, more⟩ := codeUnits_append_inj h
      rw [ih more]

/-! ### Texts as they are written -/

theorem cook?_plain (h : c ≠ '\\') :
    cook? (c :: cs) = (cook? cs).map (codeUnits c.toNat ++ ·) := by
  rw [cook?]
  intro eq
  exact h eq

theorem cook?_slash {behind : List Char} (h : escape? cs = some (units, behind)) :
    cook? ('\\' :: cs) = (cook? behind).map (units ++ ·) := by
  rw [cook?]
  split
  next units' behind' h' =>
    obtain ⟨rfl, rfl⟩ := Prod.mk.inj (Option.some.inj (h.symm.trans h'))
    rfl
  next h' => exact absurd (h.symm.trans h') (by simp)

/-- An escape says no more than what it is written with. -/
theorem length_units_of_escape? {behind : List Char} (h : escape? cs = some (units, behind)) :
    units.length + (unitsOf behind).length ≤ (unitsOf cs).length := by
  obtain ⟨front, -, rfl, least⟩ := escape?_parts h
  rw [unitsOf_append, List.length_append]
  exact Nat.add_le_add_right least _

theorem length_of_cook? (h : cook? cs = some units) :
    units.length ≤ (unitsOf cs).length ∧ ('\\' ∈ cs → units.length < (unitsOf cs).length) := by
  fun_induction cook? cs generalizing units with
  | case1 =>
    cases h
    exact ⟨Nat.le_refl _, nofun⟩
  | case2 rest said behind escape ih =>
    obtain ⟨more, read, rfl⟩ := Option.map_eq_some_iff.mp h
    have here := length_units_of_escape? escape
    have slash := (length_codeUnits '\\'.toNat).1
    have least := (ih read).1
    simp only [unitsOf_cons, List.length_append]
    omega
  | case3 => cases h
  | case4 c rest other ih =>
    obtain ⟨more, read, rfl⟩ := Option.map_eq_some_iff.mp h
    obtain ⟨least, less⟩ := ih read
    simp only [unitsOf_cons, List.length_append, List.mem_cons]
    refine ⟨by omega, ?_⟩
    rintro (rfl | mem)
    · exact absurd rfl other
    · have := less mem
      omega

theorem cook?_of_not_mem (h : '\\' ∉ cs) : cook? cs = some (unitsOf cs) := by
  induction cs with
  | nil => rw [cook?]; rfl
  | cons c cs ih =>
    rw [List.mem_cons, not_or] at h
    rw [cook?_plain (Ne.symm h.1), ih h.2, Option.map_some, unitsOf_cons]

/-- Turning carriage returns into line feeds leaves all other characters. -/
theorem mem_lineFeedChars (ret : c ≠ '\r') (feed : c ≠ '\n') :
    c ∈ lineFeedChars cs ↔ c ∈ cs := by
  fun_induction lineFeedChars cs with
  | case1 => rfl
  | case2 rest ih => simp [ih, ret, feed]
  | case3 rest _ ih => simp [ih, ret, feed]
  | case4 d rest _ _ ih => simp [ih]

/-- The inside of a string or template says what is written if and only if it has no backslash. -/
theorem cooked?_eq_iff (h : cooked? cs = some units) :
    units = unitsOf (lineFeedChars cs) ↔ '\\' ∉ cs := by
  rw [← mem_lineFeedChars (by decide : '\\' ≠ '\r') (by decide)]
  constructor
  · rintro rfl mem
    exact Nat.lt_irrefl _ ((length_of_cook? h).2 mem)
  · intro plain
    rw [cooked?, cook?_of_not_mem plain] at h
    exact (Option.some.inj h).symm

/-! ### Wrapped labels -/

theorem lineFeedChars_cons (h : c ≠ '\r') : lineFeedChars (c :: cs) = c :: lineFeedChars cs := by
  rw [lineFeedChars]
  · intro rest eq
    exact absurd eq h
  · intro eq
    exact h eq

theorem lineFeedChars_return (h : cs.head? ≠ some '\n') :
    lineFeedChars ('\r' :: cs) = '\n' :: lineFeedChars cs := by
  rw [lineFeedChars]
  intro rest eq
  exact h (by rw [eq, List.head?_cons])

/-- A character that ends no line is the first one before if it is afterwards. -/
theorem head?_of_lineFeedChars (feed : c ≠ '\n') :
    (lineFeedChars cs).head? = some c → cs.head? = some c := by
  fun_cases lineFeedChars cs with
  | case1 => exact id
  | case2 => exact fun head => absurd (Option.some.inj head).symm feed
  | case3 => exact fun head => absurd (Option.some.inj head).symm feed
  | case4 => exact id

theorem head?_of_escapeTemplate (slash : c ≠ '\\') :
    (escapeTemplate cs).head? = some c → cs.head? = some c := by
  fun_cases escapeTemplate cs with
  | case1 => exact id
  | case2 => exact fun head => absurd (Option.some.inj head).symm slash
  | case3 => exact fun head => absurd (Option.some.inj head).symm slash
  | case4 => exact id

theorem escapeTemplate_opening (cs : List Char) :
    escapeTemplate ('$' :: '{' :: cs) = '\\' :: '$' :: '{' :: escapeTemplate cs := by
  rw [escapeTemplate]

theorem escapeTemplate_special (h : c = '\\' ∨ c = tick) :
    escapeTemplate (c :: cs) = '\\' :: c :: escapeTemplate cs := by
  rw [escapeTemplate]
  · simp [h]
  · rintro rest rfl
    exact absurd h (by decide)

theorem escapeTemplate_plain (open' : c = '$' → cs.head? ≠ some '{') (slash : c ≠ '\\')
    (mark : c ≠ tick) : escapeTemplate (c :: cs) = c :: escapeTemplate cs := by
  rw [escapeTemplate]
  · simp [slash, mark]
  · rintro rest eq rfl
    exact open' eq rfl

/-- Ends of lines are turned into line feeds before or after characters are escaped. -/
theorem lineFeedChars_escapeTemplate (label : List Char) :
    lineFeedChars (escapeTemplate label) = escapeTemplate (lineFeedChars label) := by
  have ordinary (c : Char) (h : c = '\n' ∨ c = '\r' ∨ c = '{') (cs : List Char) :
      escapeTemplate (c :: cs) = c :: escapeTemplate cs := by
    refine escapeTemplate_plain ?_ ?_ ?_
    · rcases h with rfl | rfl | rfl <;> nofun
    · rcases h with rfl | rfl | rfl <;> decide
    · rcases h with rfl | rfl | rfl <;> decide
  fun_induction lineFeedChars label with
  | case1 => rfl
  | case2 rest ih =>
    rw [ordinary '\r' (by simp), ordinary '\n' (by simp), ordinary '\n' (by simp), lineFeedChars,
      ih]
  | case3 rest apart ih =>
    have seam : (escapeTemplate rest).head? ≠ some '\n' := by
      intro head
      obtain ⟨more, rfl⟩ := List.head?_eq_some_iff.mp (head?_of_escapeTemplate (by decide) head)
      exact apart more rfl
    rw [ordinary '\r' (by simp), ordinary '\n' (by simp), lineFeedChars_return seam, ih]
  | case4 c rest _ ret ih =>
    by_cases special : c = '\\' ∨ c = tick
    · rw [escapeTemplate_special special, escapeTemplate_special special,
        lineFeedChars_cons (by decide), lineFeedChars_cons ret, ih]
    · rw [not_or] at special
      by_cases opening : c = '$' ∧ rest.head? = some '{'
      · obtain ⟨rfl, head⟩ := opening
        obtain ⟨more, rfl⟩ := List.head?_eq_some_iff.mp head
        rw [ordinary '{' (by simp)] at ih
        rw [escapeTemplate_opening, lineFeedChars_cons (by decide), lineFeedChars_cons (by decide),
          ih, lineFeedChars_cons (by decide), ordinary '{' (by simp), escapeTemplate_opening]
      · have open' : c = '$' → (lineFeedChars rest).head? ≠ some '{' := fun eq head =>
          opening ⟨eq, head?_of_lineFeedChars (by decide) head⟩
        rw [escapeTemplate_plain (fun eq head => opening ⟨eq, head⟩) special.1 special.2,
          escapeTemplate_plain open' special.1 special.2, lineFeedChars_cons ret, ih]

theorem lineFeedChars_append_space (cs : List Char) :
    lineFeedChars (cs ++ [' ']) = lineFeedChars cs ++ [' '] := by
  fun_induction lineFeedChars cs with
  | case1 => rfl
  | case2 rest ih => rw [List.cons_append, List.cons_append, lineFeedChars, ih, List.cons_append]
  | case3 rest apart ih =>
    have seam : (rest ++ [' ']).head? ≠ some '\n' := by
      refine head?_append_ne (fun head => ?_) (by simp)
      obtain ⟨more, eq⟩ := List.head?_eq_some_iff.mp head
      exact apart more eq
    rw [List.cons_append, lineFeedChars_return seam, ih, List.cons_append]
  | case4 c rest _ ret ih => rw [List.cons_append, lineFeedChars_cons ret, ih, List.cons_append]

theorem cook?_escapeTemplate (cs rest : List Char) :
    cook? (escapeTemplate cs ++ rest) = (cook? rest).map (unitsOf cs ++ ·) := by
  have more (front back : List Nat) :
      ((cook? rest).map (back ++ ·)).map (front ++ ·) = (cook? rest).map (front ++ back ++ ·) := by
    simp only [Option.map_map, Function.comp_def, List.append_assoc]
  fun_induction escapeTemplate cs with
  | case1 => simp [unitsOf]
  | case2 cs ih =>
    have dollar : escape? ('$' :: ('{' :: (escapeTemplate cs ++ rest))) =
        some (codeUnits '$'.toNat, '{' :: (escapeTemplate cs ++ rest)) := rfl
    rw [List.cons_append, List.cons_append, List.cons_append, cook?_slash dollar,
      cook?_plain (by decide), ih, more, more, unitsOf_cons, unitsOf_cons]
  | case3 c cs _ special ih =>
    have mark : escape? (c :: (escapeTemplate cs ++ rest)) =
        some (codeUnits c.toNat, escapeTemplate cs ++ rest) := by
      simp only [Bool.or_eq_true, decide_eq_true_eq] at special
      rcases special with rfl | rfl
      · rfl
      · rfl
    rw [List.cons_append, List.cons_append, cook?_slash mark, ih, more, unitsOf_cons]
  | case4 c cs _ plain ih =>
    simp only [Bool.or_eq_true, decide_eq_true_eq, not_or] at plain
    rw [List.cons_append, cook?_plain plain.1, ih, more, unitsOf_cons]

/-- The escaped characters of a label say what the label is. -/
theorem cooked?_escapeTemplate (label : List Char) :
    cooked? (escapeTemplate label ++ [' ']) = some (unitsOf (lineFeedChars label ++ [' '])) := by
  have space : cook? [' '] = some (unitsOf [' ']) := cook?_of_not_mem (by simp)
  rw [cooked?, lineFeedChars_append_space, lineFeedChars_escapeTemplate, cook?_escapeTemplate,
    space, Option.map_some, unitsOf_append]

/-! ### Splitting what is written -/

theorem splitFrom_escape : splitFrom .text ('\\' :: c :: rest) =
    (splitFrom .text rest).map (·.prepend ['\\', c]) := rfl

theorem splitFrom_hole : splitFrom .text ('$' :: '{' :: rest) =
    (splitFrom .code rest).map (·.cons (.text [])) := rfl

theorem splitFrom_slashes : splitFrom .code ('/' :: '/' :: rest) =
    (splitFrom .lineComment rest).map (·.prepend ['/', '/']) := rfl

theorem splitFrom_slashStar : splitFrom .code ('/' :: '*' :: rest) =
    (splitFrom .blockComment rest).map (·.prepend ['/', '*']) := rfl

theorem splitFrom_starSlash : splitFrom .blockComment ('*' :: '/' :: rest) =
    (splitFrom .code rest).map (·.prepend ['*', '/']) := rfl

theorem splitFrom_plain (slash : c ≠ '\\') (mark : c ≠ tick)
    (seam : c = '$' → rest.head? ≠ some '{') :
    splitFrom .text (c :: rest) = (splitFrom .text rest).map (·.prepend [c]) := by
  rw [splitFrom]
  · simp [mark]
  · intro d rest' eq
    exact absurd eq slash
  · intro rest' eq behind
    exact absurd (by rw [behind, List.head?_cons]) (seam eq)

theorem map_prepend (r : Option Reading) (front back : List Char) :
    (r.map (·.prepend back)).map (·.prepend front) = r.map (·.prepend (front ++ back)) := by
  simp only [Option.map_map, Function.comp_def, Reading.prepend_prepend]

/-- Nothing in the escaped characters of a label ends the text. -/
theorem splitFrom_escapeTemplate (seam : rest.head? ≠ some '{') :
    splitFrom .text (escapeTemplate label ++ rest) =
      (splitFrom .text rest).map (·.prepend (escapeTemplate label)) := by
  fun_induction escapeTemplate label with
  | case1 => simp [Reading.prepend_nil]
  | case2 label ih =>
    rw [List.cons_append, List.cons_append, List.cons_append, splitFrom_escape,
      splitFrom_plain (by decide) (by decide) (by simp), ih, map_prepend, map_prepend]
    rfl
  | case3 c label _ special ih =>
    rw [List.cons_append, List.cons_append, splitFrom_escape, ih, map_prepend]
    rfl
  | case4 c label open' plain ih =>
    simp only [Bool.or_eq_true, decide_eq_true_eq, not_or] at plain
    have behind : c = '$' → (escapeTemplate label ++ rest).head? ≠ some '{' := by
      intro eq
      refine head?_append_ne (head?_escapeTemplate fun head => ?_) seam
      obtain ⟨label', rfl⟩ := List.head?_eq_some_iff.mp head
      exact open' label' eq rfl
    rw [List.cons_append, splitFrom_plain plain.1 plain.2 behind, ih, map_prepend]
    rfl

theorem splitFrom_code (plain : isMark c = false) :
    splitFrom .code (c :: rest) = (splitFrom .code rest).map (·.prepend [c]) := by
  rw [splitFrom]
  · simp [plain]
  · rintro rest' rfl
    exact absurd plain (by decide)
  · rintro rest' rfl
    exact absurd plain (by decide)
  · rintro rfl
    exact absurd plain (by decide)

theorem splitFrom_lineComment (inside : ∀ d ∈ text, Syntax.endsLine d = false)
    (ends : Syntax.endsLine c = true) :
    splitFrom .lineComment (text ++ c :: rest) =
      (splitFrom .code rest).map (·.prepend (text ++ [c])) := by
  induction text with
  | nil => rw [List.nil_append, splitFrom, if_pos ends, List.nil_append]
  | cons d text ih =>
    have here : ¬ Syntax.endsLine d = true := by simp [inside d List.mem_cons_self]
    rw [List.cons_append, splitFrom, if_neg here,
      ih fun d mem => inside d (List.mem_cons_of_mem _ mem), map_prepend]
    rfl

theorem splitFrom_blockComment (inside : ¬ ['*', '/'] <:+: text) :
    splitFrom .blockComment (text ++ '*' :: '/' :: rest) =
      (splitFrom .code rest).map (·.prepend (text ++ ['*', '/'])) := by
  induction text with
  | nil => rw [List.nil_append, splitFrom_starSlash, List.nil_append]
  | cons d text ih =>
    have ih := ih fun part => inside (part.trans (List.infix_cons (List.infix_refl text)))
    rw [List.cons_append, splitFrom, ih, map_prepend]
    · rfl
    · intro rest' star slash
      cases text with
      | nil => cases slash
      | cons e text =>
        rw [List.cons_append, List.cons.injEq] at slash
        refine inside ⟨[], text, ?_⟩
        rw [star, slash.1]
        rfl

/-- Code in which no mark stands outside of comments is part of the substitution. -/
theorem splitFrom_unmarked {source : List Char} (h : IsUnmarked source) :
    splitFrom .code (source ++ rest) = (splitFrom .code rest).map (·.prepend source) := by
  induction h with
  | nil => simp [Reading.prepend_nil]
  | cons plain _ ih =>
    rw [List.cons_append, splitFrom_code plain, ih, map_prepend]
    rfl
  | lineComment inside ends _ ih =>
    rw [List.cons_append, List.cons_append, List.append_assoc, List.cons_append, splitFrom_slashes,
      splitFrom_lineComment inside ends, ih, map_prepend, map_prepend]
    simp
  | blockComment inside _ ih =>
    rw [List.cons_append, List.cons_append, List.append_assoc, List.cons_append, List.cons_append,
      splitFrom_slashStar, splitFrom_blockComment inside, ih, map_prepend, map_prepend]
    simp

/-- Code without marks is unmarked. -/
theorem isUnmarked_of_all {source : List Char} (h : source.all (!isMark ·) = true) :
    IsUnmarked source := by
  induction source with
  | nil => exact .nil
  | cons c source ih =>
    rw [List.all_cons, Bool.and_eq_true, Bool.not_eq_true'] at h
    exact .cons h.1 (ih h.2)

/-- A wrapped label says what is written in the label, a space, and what the variable says. -/
theorem readLabel?_wrap {label variable' : String} {item? : List Char → Option (List Nat)}
    {units : List Nat} (closed : IsUnmarked variable'.toList)
    (item : item? variable'.toList = some units) (name : String) (rest : List Char) :
    readLabel? item? name ((attributeText name (wrap label variable')).toList ++ rest) =
      some (unitsOf (lineFeedChars label.toList ++ [' ']) ++ units, rest) := by
  have written : (attributeText name (wrap label variable')).toList ++ rest =
      (name ++ "=\x7b").toList ++ (tick :: (escapeTemplate label.toList ++
        ' ' :: '$' :: '{' :: (variable'.toList ++ '}' :: tick :: '}' :: rest))) := by
    simp [attributeText, wrap, wrapChars]
  have ends : splitFrom .code ('}' :: tick :: '}' :: rest) =
      some ⟨[.hole [], .text []], '}' :: rest⟩ := rfl
  have parts : splitTemplate? (tick :: (escapeTemplate label.toList ++
        ' ' :: '$' :: '{' :: (variable'.toList ++ '}' :: tick :: '}' :: rest))) =
      some ⟨[.text (escapeTemplate label.toList ++ [' ']), .hole variable'.toList, .text []],
        '}' :: rest⟩ := by
    rw [splitTemplate?, if_pos rfl, splitFrom_escapeTemplate (by simp),
      splitFrom_plain (by decide) (by decide) (by simp), splitFrom_hole,
      splitFrom_unmarked closed, ends]
    simp [Reading.prepend, Reading.cons, Part.prepend]
  have nothing : cooked? [] = some [] := by rw [cooked?, lineFeedChars, cook?]
  rw [readLabel?, written, dropStart_append]
  simp [parts, unitsOfPart?, cooked?_escapeTemplate, item, nothing, dropStart]

end JsxAudit.Label.LoopVariable
