import JsxAudit.Data.JsonReader
import JsxAudit.Repair.Edit

/-!
Properties read back.

A string between double quotes is read from left to right into the code units that it stands for: a
quote without a backslash ends it, a backslash takes what stands behind it along, and a line may not
end inside it. A title in the property that is written into the metadata is read back as it was, and
the string ends at the quote that was written for it, whatever stands behind
(`readProperty?_propertyText`, `readProperty?_insertMetadata`).
-/

namespace JsxAudit.Repair

open Source Audit

/-! ### Reading strings -/

/-- The code units of a code point. -/
def codeUnits (n : Nat) : List Nat :=
  if n < 0x10000 then [n]
  else [0xD800 + (n - 0x10000) / 0x400, 0xDC00 + (n - 0x10000) % 0x400]

/-- The code units of the characters. -/
def unitsOf (cs : List Char) : List Nat :=
  cs.flatMap fun c => codeUnits c.toNat

theorem unitsOf_cons (c : Char) (cs : List Char) :
    unitsOf (c :: cs) = codeUnits c.toNat ++ unitsOf cs :=
  List.flatMap_cons

theorem unitsOf_append (cs rest : List Char) : unitsOf (cs ++ rest) = unitsOf cs ++ unitsOf rest :=
  List.flatMap_append

theorem length_codeUnits (n : Nat) : 0 < (codeUnits n).length ∧ (codeUnits n).length ≤ 2 := by
  unfold codeUnits
  split
  · simp
  · simp

theorem length_le_unitsOf (cs : List Char) : cs.length ≤ (unitsOf cs).length := by
  induction cs with
  | nil => exact Nat.le_refl _
  | cons c cs ih =>
    have one := (length_codeUnits c.toNat).1
    rw [unitsOf_cons, List.length_cons, List.length_append]
    omega

/-- The number that hexadecimal digits write. -/
def hexNumber? (digits : List Char) : Option Nat :=
  if digits.isEmpty then none
  else digits.foldlM (fun n c => do return 16 * n + (← Data.Json.hexValue? c)) 0

/-- Letters that stand for control characters behind a backslash. -/
def controlEscapes : List (Char × Nat) :=
  [('b', 8), ('t', 9), ('n', 10), ('v', 11), ('f', 12), ('r', 13)]

/-- What one character stands for behind a backslash, with `next` after it. The end of a line is
nothing at all; a digit is refused, but for a zero without another digit after it. -/
def plainEscape? (c : Char) (next : Option Char) : Option (List Nat) :=
  if c = 'u' || c = 'x' then none
  else if Syntax.endsLine c then some []
  else if c.isDigit then if c = '0' && !next.any Char.isDigit then some [0] else none
  else some (((controlEscapes.lookup c).map fun n => [n]).getD (codeUnits c.toNat))

/-- What stands behind a backslash: the code units that it is, and the characters after it. -/
def escape? : List Char → Option (List Nat × List Char)
  | [] => none
  | '\r' :: '\n' :: rest => some ([], rest)
  | 'u' :: '{' :: rest =>
    (rest.dropWhile (· ≠ '}')).tail?.bind fun behind =>
      ((hexNumber? (rest.takeWhile (· ≠ '}'))).filter (· < 0x110000)).map fun n =>
        (codeUnits n, behind)
  | 'u' :: a :: b :: c :: d :: rest => (hexNumber? [a, b, c, d]).map fun n => ([n], rest)
  | 'x' :: a :: b :: rest => (hexNumber? [a, b]).map fun n => ([n], rest)
  | c :: rest => (plainEscape? c rest.head?).map fun units => (units, rest)

theorem length_plainEscape?_le {c : Char} {next : Option Char} {units : List Nat}
    (h : plainEscape? c next = some units) : units.length ≤ (codeUnits c.toNat).length := by
  have one := (length_codeUnits c.toNat).1
  unfold plainEscape? at h
  split at h
  · cases h
  split at h
  · cases h
    exact Nat.zero_le _
  split at h
  · split at h
    · cases h
      exact one
    · cases h
  cases h
  cases controlEscapes.lookup c with
  | none => exact Nat.le_refl _
  | some n => exact one

/-- An escape takes characters off the front, and says no more than they do. -/
theorem escape?_parts {cs behind : List Char} {units : List Nat}
    (h : escape? cs = some (units, behind)) :
    ∃ front, front ≠ [] ∧ cs = front ++ behind ∧ units.length ≤ (unitsOf front).length := by
  unfold escape? at h
  split at h
  next => cases h
  next rest =>
    obtain ⟨rfl, rfl⟩ := Prod.mk.inj (Option.some.inj h)
    exact ⟨['\r', '\n'], List.cons_ne_nil _ _, rfl, Nat.zero_le _⟩
  next rest =>
    obtain ⟨tail, closed, read⟩ := Option.bind_eq_some_iff.mp h
    obtain ⟨n, -, eq⟩ := Option.map_eq_some_iff.mp read
    obtain ⟨rfl, rfl⟩ := Prod.mk.inj eq
    have parts := List.takeWhile_append_dropWhile (p := (· ≠ '}')) (l := rest)
    cases left : rest.dropWhile (· ≠ '}') with
    | nil =>
      rw [left] at closed
      cases closed
    | cons brace more =>
      rw [left] at closed parts
      obtain rfl := Option.some.inj closed
      refine ⟨'u' :: '{' :: (rest.takeWhile (· ≠ '}') ++ [brace]), List.cons_ne_nil _ _, ?_, ?_⟩
      · rw [List.cons_append, List.cons_append, List.append_assoc, List.singleton_append, parts]
      · have most := (length_codeUnits n).2
        refine Nat.le_trans most (Nat.le_trans ?_ (length_le_unitsOf _))
        simp only [List.length_cons]
        omega
  next a b c d rest _ =>
    obtain ⟨n, -, eq⟩ := Option.map_eq_some_iff.mp h
    obtain ⟨rfl, rfl⟩ := Prod.mk.inj eq
    refine ⟨['u', a, b, c, d], List.cons_ne_nil _ _, rfl,
      Nat.le_trans ?_ (length_le_unitsOf _)⟩
    exact Nat.succ_le_succ (Nat.zero_le _)
  next a b rest =>
    obtain ⟨n, -, eq⟩ := Option.map_eq_some_iff.mp h
    obtain ⟨rfl, rfl⟩ := Prod.mk.inj eq
    refine ⟨['x', a, b], List.cons_ne_nil _ _, rfl,
      Nat.le_trans ?_ (length_le_unitsOf _)⟩
    exact Nat.succ_le_succ (Nat.zero_le _)
  next c rest _ _ _ _ =>
    obtain ⟨said, plain, eq⟩ := Option.map_eq_some_iff.mp h
    obtain ⟨rfl, rfl⟩ := Prod.mk.inj eq
    refine ⟨[c], List.cons_ne_nil _ _, rfl, ?_⟩
    rw [unitsOf_cons, List.length_append]
    exact Nat.le_add_right_of_le (length_plainEscape?_le plain)

/-- Reading an escape leaves fewer characters. -/
theorem length_of_escape? {cs behind : List Char} {units : List Nat}
    (h : escape? cs = some (units, behind)) : behind.length < cs.length := by
  obtain ⟨front, filled, rfl, -⟩ := escape?_parts h
  have some := List.length_pos_iff.mpr filled
  rw [List.length_append]
  omega

/-- Reads a string from behind its opening quote: its code units, and what stands behind its closing
quote. -/
def readString? : List Char → Option (List Nat × List Char)
  | [] => none
  | '"' :: rest => some ([], rest)
  | '\\' :: rest =>
    match _ : escape? rest with
    | some (units, behind) => (readString? behind).map fun read => (units ++ read.1, read.2)
    | none => none
  | c :: rest =>
    if c = '\n' || c = '\r' then none
    else (readString? rest).map fun read => (codeUnits c.toNat ++ read.1, read.2)
termination_by cs => cs.length
decreasing_by
  · have shorter := length_of_escape? ‹_›
    simp only [List.length_cons]
    omega
  · simp

/-- Reads a property that is set to a string: the code units of the string, and what stands behind
its closing quote. -/
def readProperty? (name : String) (cs : List Char) : Option (List Nat × List Char) :=
  (Text.dropStart (name ++ ": \"").toList cs).bind readString?

/-! ### Escaped texts -/

variable {c : Char} {rest : List Char} {title : String}

theorem readString?_quote (rest : List Char) : readString? ('"' :: rest) = some ([], rest) := by
  rw [readString?]

theorem readString?_slash {behind : List Char} {units : List Nat}
    (h : escape? rest = some (units, behind)) :
    readString? ('\\' :: rest) =
      (readString? behind).map fun read => (units ++ read.1, read.2) := by
  rw [readString?]
  split
  next units' behind' h' =>
    obtain ⟨rfl, rfl⟩ := Prod.mk.inj (Option.some.inj (h.symm.trans h'))
    rfl
  next h' => exact absurd (h.symm.trans h') (by simp)

/-- A character that is no mark of a string and ends no line stands for itself. -/
theorem readString?_plain (quote : c ≠ '"') (slash : c ≠ '\\') (feed : c ≠ '\n')
    (ret : c ≠ '\r') :
    readString? (c :: rest) =
      (readString? rest).map fun read => (codeUnits c.toNat ++ read.1, read.2) := by
  rw [readString?]
  · simp [feed, ret]
  · intro eq
    exact quote eq
  · intro eq
    exact slash eq

/-- A mark of a string stands for itself behind a backslash. -/
theorem escape?_mark (h : c = '\\' ∨ c = '"') (rest : List Char) :
    escape? (c :: rest) = some (codeUnits c.toNat, rest) := by
  rcases h with rfl | rfl
  · rfl
  · rfl

/-- A text without ends of lines is read back from its escaped characters and the quote behind
them. -/
theorem readString?_escapeString (feed : '\n' ∉ title.toList) (ret : '\r' ∉ title.toList) :
    readString? ((escapeString title).toList ++ '"' :: rest) =
      some (unitsOf title.toList, rest) := by
  rw [escapeString, String.toList_ofList]
  generalize title.toList = cs at feed ret ⊢
  induction cs with
  | nil => exact readString?_quote rest
  | cons c cs ih =>
    have ih := ih (fun mem => feed (by simp [mem])) fun mem => ret (by simp [mem])
    rw [List.flatMap_cons]
    by_cases mark : c = '\\' ∨ c = '"'
    · have escaped : (c = '\\' || c = '"') = true := by simpa using mark
      simp only [if_pos escaped, List.cons_append, List.nil_append]
      rw [readString?_slash (escape?_mark mark _), ih]
      rfl
    · have plain : ¬(c = '\\' || c = '"') = true := by simpa using mark
      simp only [if_neg plain, List.cons_append, List.nil_append]
      rw [readString?_plain (fun eq => mark (.inr eq)) (fun eq => mark (.inl eq))
        (fun eq => feed (by simp [eq])) (fun eq => ret (by simp [eq])), ih]
      rfl

/-- The property that is set to a text without ends of lines is read back as the text, and reading
stops at the quote that was written behind it. -/
theorem readProperty?_propertyText (feed : '\n' ∉ title.toList) (ret : '\r' ∉ title.toList)
    (name : String) (rest : List Char) :
    readProperty? name ((propertyText name title).toList ++ rest) =
      some (unitsOf title.toList, rest) := by
  have written : (propertyText name title).toList ++ rest =
      (name ++ ": \"").toList ++ ((escapeString title).toList ++ '"' :: rest) := by
    simp [propertyText]
  rw [written, readProperty?, Text.dropStart_append, Option.bind_some,
    readString?_escapeString feed ret]

/-! ### Metadata -/

/-- Every text that is written into the metadata of a page is the property among other texts. -/
theorem text_of_mem_insertMetadata {f : SourceFile} {v : Violation} {s : Splice}
    (mem : s ∈ insertMetadata f v title) :
    ∃ name front back, v.fix.bind (·.attr) = some name ∧
      s.text = front ++ propertyText name title ++ back := by
  unfold insertMetadata at mem
  split at mem
  next => simp at mem
  next name attr =>
    simp only at mem
    refine ⟨name, ?_⟩
    split at mem
    next metadata _ =>
      split at mem
      next => simp at mem
      next =>
        split at mem
        next =>
          obtain rfl := List.mem_singleton.mp mem
          exact ⟨" ", " ", attr, rfl⟩
        next =>
          obtain rfl := List.mem_singleton.mp mem
          exact ⟨_, ",", attr, rfl⟩
    next =>
      split at mem
      next last _ =>
        obtain rfl := List.mem_singleton.mp mem
        refine ⟨"\n\n" ++ "export const metadata = \x7b ", " \x7d;", attr, ?_⟩
        simp only [String.append_assoc]
      next =>
        obtain rfl := List.mem_singleton.mp mem
        refine ⟨"export const metadata = \x7b ", " \x7d;" ++ "\n\n", attr, ?_⟩
        simp only [String.append_assoc]

/-- A property that is set to a title without ends of lines is read back as the title, whatever
stands behind it, and reading stops at the quote that was written for it. This is so wherever the
property is written into the metadata of a page, and whatever the page has behind that place. -/
theorem readProperty?_insertMetadata {title : String} (feed : '\n' ∉ title.toList)
    (ret : '\r' ∉ title.toList) :
    (∀ name rest, readProperty? name ((propertyText name title).toList ++ rest) =
      some (unitsOf title.toList, rest)) ∧
    ∀ f v, ∀ s ∈ insertMetadata f v title, ∃ name front back, v.fix.bind (·.attr) = some name ∧
      s.text = front ++ propertyText name title ++ back ∧
      ∀ page, readProperty? name ((propertyText name title ++ back).toList ++ page) =
        some (unitsOf title.toList, back.toList ++ page) := by
  constructor
  · exact readProperty?_propertyText feed ret
  · intro f v s mem
    obtain ⟨name, front, back, attr, text⟩ := text_of_mem_insertMetadata mem
    refine ⟨name, front, back, attr, text, ?_⟩
    intro page
    rw [String.toList_append, List.append_assoc, readProperty?_propertyText feed ret]

/-- A title with quotes and backslashes, the last of them at its end, before a property that is
there already. -/
theorem readProperty?_insertMetadata_quotes :
    let title := "\\\" or \\"
    ∃ f ∈ SourceFile.parse "app/page.tsx" "export const metadata = \x7blang: \"en\"\x7d;",
      ∃ v ∈ Rule.metadataTitle.scan {} f, ∃ s ∈ insertMetadata f v title, ∃ front back,
        s.text = front ++ propertyText "title" title ++ back ∧
        ∀ page, readProperty? "title" ((propertyText "title" title ++ back).toList ++ page) =
          some (unitsOf title.toList, back.toList ++ page) := by
  intro title
  have written : ∃ f ∈ SourceFile.parse "app/page.tsx"
        "export const metadata = \x7blang: \"en\"\x7d;",
      ∃ v ∈ Rule.metadataTitle.scan {} f, v.fix.bind (·.attr) = some "title" ∧
        ∃ s ∈ insertMetadata f v "\\\" or \\", s.start = 25 := by
    decide +kernel
  obtain ⟨f, parsed, v, reported, attr, s, mem, -⟩ := written
  have feed : '\n' ∉ title.toList := by decide
  have ret : '\r' ∉ title.toList := by decide
  obtain ⟨name, front, back, attr', text, read⟩ :=
    (readProperty?_insertMetadata feed ret).2 f v s mem
  obtain rfl := Option.some.inj (attr.symm.trans attr')
  exact ⟨f, parsed, v, reported, s, mem, front, back, text, read⟩

end JsxAudit.Repair
