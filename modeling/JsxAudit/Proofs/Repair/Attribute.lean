import JsxAudit.Label.LoopVariable
import JsxAudit.Repair.Edit

/-!
Attributes read back.

A quoted attribute ends at the next double quote, and what stands between the quotes is read with
its character references decoded. Escaping the double quotes of a value changes nothing that is read
(`decode_quoteFree`), so that a value without references of its own is read back as it was
(`readAttribute?_attributeText`). A value that begins with a brace is an expression and is not
quoted at all.
-/

namespace JsxAudit.Repair

/-! ### Reading attributes -/

/-- What the insides of character references stand for, names and numbers alike. -/
abbrev Referents := List Char → Option (List Char)

/-- Characters of a reference between its ampersand and its semicolon. -/
def isReferenceChar (c : Char) : Bool :=
  c.isAlphanum || c = '#'

/-- What the reference stands for whose ampersand stands before the characters, and what stands
behind it. -/
def referenceAt? (referent? : Referents) (cs : List Char) : Option (List Char × List Char) :=
  match cs.dropWhile isReferenceChar with
  | ';' :: rest => (referent? (cs.takeWhile isReferenceChar)).map fun meant => (meant, rest)
  | _ => none

/-- Reading a reference leaves fewer characters. -/
theorem length_of_referenceAt? {referent? : Referents} {cs meant rest : List Char}
    (h : referenceAt? referent? cs = some (meant, rest)) : rest.length < cs.length := by
  unfold referenceAt? at h
  have shorter := (List.dropWhile_suffix (l := cs) isReferenceChar).length_le
  split at h
  next behind left =>
    obtain ⟨_, -, eq⟩ := Option.map_eq_some_iff.mp h
    obtain ⟨-, rfl⟩ := Prod.mk.inj eq
    rw [left, List.length_cons] at shorter
    exact shorter
  next => contradiction

/-- The characters with what their references stand for. An ampersand that begins none stands for
itself. -/
def decode (referent? : Referents) : List Char → List Char
  | [] => []
  | '&' :: cs =>
    match _ : referenceAt? referent? cs with
    | some (meant, rest) => meant ++ decode referent? rest
    | none => '&' :: decode referent? cs
  | c :: cs => c :: decode referent? cs
termination_by cs => cs.length
decreasing_by
  · have shorter := length_of_referenceAt? ‹_›
    simp only [List.length_cons]
    omega
  · simp
  · simp

/-- A reference stands somewhere in the characters. -/
def hasReference (referent? : Referents) : List Char → Bool
  | [] => false
  | c :: cs => (c = '&' && (referenceAt? referent? cs).isSome) || hasReference referent? cs

/-- What stands before the next double quote, and what stands behind it. -/
def readQuoted? (cs : List Char) : Option (List Char × List Char) :=
  match cs.dropWhile (· ≠ '"') with
  | [] => none
  | _ :: rest => some (cs.takeWhile (· ≠ '"'), rest)

/-- Reads a quoted attribute: its value, and what stands behind its closing quote. -/
def readAttribute? (referent? : Referents) (name : String) (cs : List Char) :
    Option (List Char × List Char) :=
  ((Text.dropStart (name ++ "=\"").toList cs).bind readQuoted?).map fun read =>
    (decode referent? read.1, read.2)

/-! ### Decoding -/

variable {referent? : Referents} {c : Char} {cs rest : List Char} {value : String}

theorem decode_reference {meant : List Char} (h : referenceAt? referent? cs = some (meant, rest)) :
    decode referent? ('&' :: cs) = meant ++ decode referent? rest := by
  rw [decode]
  split
  next meant' rest' h' =>
    obtain ⟨rfl, rfl⟩ := Prod.mk.inj (Option.some.inj (h.symm.trans h'))
    rfl
  next h' => exact absurd (h.symm.trans h') (by simp)

theorem decode_ampersand (h : referenceAt? referent? cs = none) :
    decode referent? ('&' :: cs) = '&' :: decode referent? cs := by
  rw [decode]
  split
  next h' => exact absurd (h.symm.trans h') (by simp)
  next => rfl

theorem decode_plain (h : c ≠ '&') : decode referent? (c :: cs) = c :: decode referent? cs := by
  rw [decode]
  intro eq
  exact h eq

/-- Characters without references stand for themselves. -/
theorem decode_of_hasReference_eq_false (h : hasReference referent? cs = false) :
    decode referent? cs = cs := by
  induction cs with
  | nil => rw [decode]
  | cons c cs ih =>
    obtain ⟨here, behind⟩ := Bool.or_eq_false_iff.mp h
    by_cases amp : c = '&'
    · subst amp
      have absent : referenceAt? referent? cs = none := by simpa using here
      rw [decode_ampersand absent, ih behind]
    · rw [decode_plain amp, ih behind]

/-! ### Escaped quotes -/

/-- The characters with references in place of double quotes. -/
def quoteFree (cs : List Char) : List Char :=
  cs.flatMap fun c => if c = '"' then "&quot;".toList else [c]

theorem quoteFree_quote (cs : List Char) :
    quoteFree ('"' :: cs) = '&' :: ("quot".toList ++ ';' :: quoteFree cs) := rfl

theorem quoteFree_plain (h : c ≠ '"') : quoteFree (c :: cs) = c :: quoteFree cs := by
  simp [quoteFree, h]

theorem toList_escapeQuotes (value : String) :
    (escapeQuotes value).toList = quoteFree value.toList :=
  String.toList_ofList

theorem not_mem_quoteFree (cs : List Char) : '"' ∉ quoteFree cs := by
  induction cs with
  | nil => simp [quoteFree]
  | cons c cs ih =>
    by_cases quote : c = '"'
    · subst quote
      rw [quoteFree_quote]
      simp [ih]
    · rw [quoteFree_plain quote]
      simp [ih, Ne.symm quote]

/-- A double quote is no character of a reference, and neither is what it is replaced by. -/
theorem takeWhile_quoteFree (cs : List Char) :
    (quoteFree cs).takeWhile isReferenceChar = cs.takeWhile isReferenceChar := by
  induction cs with
  | nil => rfl
  | cons c cs ih =>
    by_cases quote : c = '"'
    · subst quote
      rfl
    · rw [quoteFree_plain quote, List.takeWhile_cons, List.takeWhile_cons, ih]

theorem dropWhile_quoteFree (cs : List Char) :
    (quoteFree cs).dropWhile isReferenceChar = quoteFree (cs.dropWhile isReferenceChar) := by
  induction cs with
  | nil => rfl
  | cons c cs ih =>
    by_cases quote : c = '"'
    · subst quote
      rfl
    · rw [quoteFree_plain quote, List.dropWhile_cons, List.dropWhile_cons, ih]
      split
      · rfl
      · rw [quoteFree_plain quote]

/-- Replacing double quotes neither makes nor breaks a reference. -/
theorem referenceAt?_quoteFree (cs : List Char) :
    referenceAt? referent? (quoteFree cs) =
      (referenceAt? referent? cs).map fun read => (read.1, quoteFree read.2) := by
  unfold referenceAt?
  rw [takeWhile_quoteFree, dropWhile_quoteFree]
  cases cs.dropWhile isReferenceChar with
  | nil => rfl
  | cons c rest =>
    by_cases quote : c = '"'
    · subst quote
      rfl
    · rw [quoteFree_plain quote]
      by_cases semicolon : c = ';'
      · subst semicolon
        simp only [Option.map_map]
        rfl
      · simp [semicolon]

/-- Escaping the double quotes of a text changes nothing that is read. -/
theorem decode_quoteFree (quote : referent? "quot".toList = some ['"']) (cs : List Char) :
    decode referent? (quoteFree cs) = decode referent? cs := by
  fun_induction decode referent? cs with
  | case1 => rw [quoteFree, List.flatMap_nil, decode]
  | case2 cs meant rest here ih =>
    rw [quoteFree_plain (by decide)]
    have here' : referenceAt? referent? (quoteFree cs) = some (meant, quoteFree rest) := by
      rw [referenceAt?_quoteFree, here]
      rfl
    rw [decode_reference here', ih]
  | case3 cs absent ih =>
    rw [quoteFree_plain (by decide)]
    have absent' : referenceAt? referent? (quoteFree cs) = none := by
      rw [referenceAt?_quoteFree, absent]
      rfl
    rw [decode_ampersand absent', ih]
  | case4 c cs plain ih =>
    by_cases mark : c = '"'
    · subst mark
      have here : referenceAt? referent? ("quot".toList ++ ';' :: quoteFree cs) =
          some (['"'], quoteFree cs) := by
        have left : ("quot".toList ++ ';' :: quoteFree cs).dropWhile isReferenceChar =
            ';' :: quoteFree cs := rfl
        have inside : ("quot".toList ++ ';' :: quoteFree cs).takeWhile isReferenceChar =
            "quot".toList := rfl
        rw [referenceAt?, left, inside, quote]
        rfl
      rw [quoteFree_quote, decode_reference here, ih]
      rfl
    · rw [quoteFree_plain mark, decode_plain plain, ih]

/-! ### Written attributes -/

/-- Characters without double quotes are read up to the quote behind them. -/
theorem readQuoted?_append (h : '"' ∉ cs) : readQuoted? (cs ++ '"' :: rest) = some (cs, rest) := by
  have inside : ∀ c ∈ cs, decide (c ≠ '"') = true := by
    intro c mem
    exact decide_eq_true fun eq => h (eq ▸ mem)
  unfold readQuoted?
  rw [List.dropWhile_append_of_pos inside, List.takeWhile_append_of_pos inside]
  simp

/-- A value that does not begin with a brace is quoted. -/
theorem toList_attributeText (plain : value.toList.head? ≠ some '{') (name : String) :
    (attributeText name value).toList =
      (name ++ "=\"").toList ++ (quoteFree value.toList ++ ['"']) := by
  rw [attributeText, if_neg plain]
  simp [toList_escapeQuotes]

/-- What is written for a value that does not begin with a brace is read back as the value with its
own references decoded. -/
theorem readAttribute?_quoted (quote : referent? "quot".toList = some ['"'])
    (plain : value.toList.head? ≠ some '{') (name : String) (rest : List Char) :
    readAttribute? referent? name ((attributeText name value).toList ++ rest) =
      some (decode referent? value.toList, rest) := by
  rw [toList_attributeText plain, List.append_assoc, readAttribute?, Text.dropStart_append,
    Option.bind_some, List.append_assoc, List.singleton_append,
    readQuoted?_append (not_mem_quoteFree _), Option.map_some, decode_quoteFree quote]

/-- For every name and every value that does not begin with a brace, exactly one quoted attribute is
written, with no double quote inside. If no character reference stands in the value, the attribute
is read back as the value, and reading stops at the quote that was written behind it; values of this
kind with the same attribute are the same. -/
theorem readAttribute?_attributeText (quote : referent? "quot".toList = some ['"'])
    (plain : value.toList.head? ≠ some '{') (name : String) :
    (∃ raw, attributeText name value = name ++ "=\"" ++ raw ++ "\"" ∧ '"' ∉ raw.toList) ∧
    (hasReference referent? value.toList = false →
      (∀ rest, readAttribute? referent? name ((attributeText name value).toList ++ rest) =
        some (value.toList, rest)) ∧
      ∀ value', value'.toList.head? ≠ some '{' → hasReference referent? value'.toList = false →
        attributeText name value = attributeText name value' → value = value') := by
  have read {value : String} (plain : value.toList.head? ≠ some '{')
      (own : hasReference referent? value.toList = false) (rest : List Char) :
      readAttribute? referent? name ((attributeText name value).toList ++ rest) =
        some (value.toList, rest) := by
    rw [readAttribute?_quoted quote plain, decode_of_hasReference_eq_false own]
  constructor
  · refine ⟨escapeQuotes value, if_neg plain, ?_⟩
    rw [toList_escapeQuotes]
    exact not_mem_quoteFree _
  · intro own
    refine ⟨read plain own, ?_⟩
    intro value' plain' own' same
    have alike := (read plain own []).symm.trans (same ▸ read plain' own' [])
    exact String.toList_injective (Prod.mk.inj (Option.some.inj alike)).1

/-- A value with double quotes and an ampersand that begins no reference. -/
theorem readAttribute?_attributeText_quotes :
    let referent? : Referents := fun inside =>
      [("quot", ['"']), ("amp", ['&'])].lookup (String.ofList inside)
    let value := "Cut & \"paste\";"
    (∃ raw, attributeText "alt" value = "alt" ++ "=\"" ++ raw ++ "\"" ∧ '"' ∉ raw.toList) ∧
    (∀ rest, readAttribute? referent? "alt" ((attributeText "alt" value).toList ++ rest) =
      some (value.toList, rest)) ∧
    ∀ value', value'.toList.head? ≠ some '{' → hasReference referent? value'.toList = false →
      attributeText "alt" value = attributeText "alt" value' → value = value' := by
  intro referent? value
  have quote : referent? "quot".toList = some ['"'] := by decide
  have plain : value.toList.head? ≠ some '{' := by decide
  have own : hasReference referent? value.toList = false := by decide
  have written := readAttribute?_attributeText quote plain "alt"
  exact ⟨written.1, written.2 own⟩

/-- A value that begins with a brace is no quoted attribute, whether or not it is a wrapped label,
and a quote is written in the same way as its own reference. -/
theorem attributeText_braces :
    (∀ label variable', "\x7bx\x7d" ≠ Label.LoopVariable.wrap label variable') ∧
    (¬ ∃ raw, attributeText "alt" "\x7bx\x7d" = "alt" ++ "=\"" ++ raw ++ "\"") ∧
    attributeText "alt" "&quot;" = attributeText "alt" "\"" := by
  refine ⟨?_, ?_, ?_⟩
  · intro label variable' eq
    have second := congrArg (fun s : String => s.toList[1]?) eq
    simp [Label.LoopVariable.wrap, Label.LoopVariable.wrapChars] at second
    exact absurd second (by decide)
  · rintro ⟨raw, eq⟩
    have fifth := congrArg (fun s : String => s.toList[4]?) eq
    simp [attributeText] at fifth
  · decide

end JsxAudit.Repair
