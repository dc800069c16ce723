import JsxAudit.Proofs.Text.Blank
import JsxAudit.Proofs.Text.Bytes
import JsxAudit.Proofs.Text.Casing
import JsxAudit.Proofs.Text.Occurrence
import JsxAudit.Rule.Image
import Mathlib.Data.List.Forall2

/-!
What alternative texts are worth.

Blanks around a text do not change what it is worth, with one exception: an empty text with blanks
around it is not taken for one that is left empty on purpose (`classify_padded`). A text made from a
file name has several words, so that it is no generic word and no number, and it ends in none of the
suffixes of image files. It may still begin like the numbers of a camera, and is then found to be
meaningless itself (`checkAlt_filenameAlt`).
-/

namespace JsxAudit.Label

open Text

variable {source text : String}

/-! ### Blanks around a text -/

/-- Blanks around a text are trimmed. Only an empty text is no longer one with blanks around it. -/
theorem classify_padded {before behind : String} (blank : isBlankText before = true)
    (blank' : isBlankText behind = true) (text : String) :
    classify (some (before ++ text ++ behind)) false =
      if text = "" ∧ before ++ behind ≠ "" then .valid else classify (some text) false := by
  by_cases empty : text = ""
  · rw [empty, String.append_empty]
    by_cases none : before ++ behind = ""
    · rw [none, if_neg (by simp)]
    · have trimmed : trim (before ++ behind) = "" := by
        have around := trim_append blank blank' ""
        rw [String.append_empty] at around
        rw [around]
        rfl
      rw [if_pos ⟨rfl, none⟩, classify]
      dsimp only
      rw [if_neg none, if_neg Bool.false_ne_true, trimmed]
      decide +kernel
  · have padded : before ++ text ++ behind ≠ "" := by
      simp [String.append_eq_empty_iff, empty]
    rw [if_neg (fun both => empty both.1), classify, classify]
    dsimp only
    rw [if_neg padded, if_neg empty, trim_append blank blank']

/-- A generic word between blanks, and blanks alone. -/
theorem classify_padded_spaces :
    isBlankText " " = true ∧ isBlankText "\n\t" = true ∧
      classify (some " Photo\n\t") false = .meaningless ∧
      classify (some " \n\t") false = .valid ∧ classify (some "") false = .decorative := by
  have blank : isBlankText " " = true := by decide
  have blank' : isBlankText "\n\t" = true := by decide
  have photo : classify (some "Photo") false = .meaningless := by decide +kernel
  exact ⟨blank, blank', (classify_padded blank blank' "Photo").trans photo,
    classify_padded blank blank' "", rfl⟩

/-! ### Texts made from file names -/

/-- The text begins as the numbers of a camera do: with its mark and a digit, or with the name of
its directory. -/
def beginsLikeCounter (text : String) : Bool :=
  (dropLiteral "DSC".toList text.toList).any startsWithDigit ||
    (dropLiteral "DCIM".toList text.toList).isSome

/-- Dashes and underscores become spaces. -/
theorem not_underscore_of_mem_spaced {stem : List Char} {c : Char}
    (h : c ∈ stem.map fun c => if c == '-' || c == '_' then ' ' else c) : c ≠ '_' := by
  obtain ⟨d, -, rfl⟩ := List.mem_map.mp h
  split
  next => decide
  next other =>
    rintro rfl
    exact other (by decide)

theorem not_mem_capitalize {w : String} (plain : '_' ∉ w.toList) :
    '_' ∉ (capitalize w).toList := by
  rw [capitalize, String.toList_ofList]
  cases chars : w.toList with
  | nil => exact List.not_mem_nil
  | cons c rest =>
    rw [chars, List.mem_cons, not_or] at plain
    rw [capitalizeChars, List.mem_append, not_or]
    exact ⟨fun mem => plain.1 (eq_underscore_of_mem_upperChar mem).symm, plain.2⟩

theorem exists_capitalize {w : String} (filled : w ≠ "")
    (plain : ∀ c ∈ w.toList, isBlank c = false) :
    ∃ c first, (capitalize w).toList = c :: first ∧ isBlank c = false := by
  rw [capitalize, String.toList_ofList]
  cases chars : w.toList with
  | nil => exact absurd (String.toList_eq_nil_iff.mp chars) filled
  | cons d rest =>
    cases upper : upperChar d with
    | nil => exact absurd upper (upperChar_ne_nil d)
    | cons c more =>
      refine ⟨c, more ++ rest, by rw [capitalizeChars, upper, List.cons_append], ?_⟩
      rw [isBlank_of_mem_upperChar (c := d) (by simp [upper])]
      exact plain d (by simp [chars])

/-- A text made from a file name has the words of the name, without a blank or an underscore. -/
theorem exists_words_of_filenameAlt (h : filenameAlt source = some text) :
    ∃ names, names ≠ [] ∧ text = " ".intercalate (names.map capitalize) ++ " image" ∧
      ∀ w ∈ names, w ≠ "" ∧ '_' ∉ w.toList ∧ ∀ c ∈ w.toList, isBlank c = false := by
  unfold filenameAlt at h
  split at h
  next => cases h
  next =>
    dsimp only at h
    split at h
    next => cases h
    next some =>
      refine ⟨_, some, (Option.some.inj h).symm, fun w mem => ?_⟩
      obtain ⟨filled, chars⟩ := mem_words mem
      refine ⟨filled, fun inside => ?_, fun c inside => (chars c inside).2⟩
      have spaced := (chars _ inside).1
      rw [String.toList_ofList] at spaced
      exact not_underscore_of_mem_spaced spaced rfl

/-- The first word of a text made from a file name has blanks and another word behind it. -/
theorem exists_of_filenameAlt (h : filenameAlt source = some text) :
    ∃ c first between, text.toList = (c :: first) ++ ' ' :: (between ++ "image".toList) ∧
      isBlank c = false ∧ '_' ∉ text.toList := by
  obtain ⟨names, some, rfl, plain⟩ := exists_words_of_filenameAlt h
  have clean : '_' ∉ (" ".intercalate (names.map capitalize) ++ " image").toList := by
    refine not_mem_toList_append (not_mem_intercalate (by decide) fun part mem => ?_) (by decide)
    obtain ⟨w, inside, rfl⟩ := List.mem_map.mp mem
    exact not_mem_capitalize (plain w inside).2.1
  cases names with
  | nil => exact absurd rfl some
  | cons w rest =>
    obtain ⟨filled, -, visible⟩ := plain w List.mem_cons_self
    obtain ⟨c, first, chars, shown⟩ := exists_capitalize filled visible
    cases rest with
    | nil =>
      refine ⟨c, first, [], ?_, shown, clean⟩
      simp [chars]
    | cons next others =>
      refine ⟨c, first, (" ".intercalate ((next :: others).map capitalize)).toList ++ [' '], ?_,
        shown, clean⟩
      rw [List.map_cons, List.map_cons, String.intercalate_cons_cons, ← List.map_cons]
      simp [chars]

/-! ### Texts of several words -/

section

variable {cs front w after : List Char}

theorem eq_of_atEnd (h : atEnd cs = true) : cs = [] ∨ cs = ['\n'] := by
  unfold atEnd at h
  split at h
  · exact .inl rfl
  · exact .inr rfl
  · cases h

theorem not_mem_of_atEnd {c : Char} (h : atEnd cs = true) (visible : c ≠ '\n') : c ∉ cs := by
  rcases eq_of_atEnd h with rfl | rfl
  · exact List.not_mem_nil
  · simpa using visible

/-- A text with a space in it is no single word. -/
theorem isWord_eq_false {word : String} (letters : ∀ l ∈ word.toList, l.toLower.isLower = true)
    (spaced : ' ' ∈ cs) : isWord word cs = false := by
  refine Bool.eq_false_iff.mpr fun is => ?_
  obtain ⟨rest, found, ended⟩ := (Option.any_eq_true _ _).mp is
  obtain ⟨w, same, rfl⟩ := dropLiteral_eq_some_iff.mp found
  rcases List.mem_append.mp spaced with inside | behind
  · exact absurd (same.names letters _ inside) (by decide)
  · exact not_mem_of_atEnd ended (by decide) behind

theorem isNumber_eq_false (spaced : ' ' ∈ cs) : isNumber cs = false := by
  refine Bool.eq_false_iff.mpr fun is => ?_
  have ended := (Bool.and_eq_true_iff.mp is).2
  rw [← List.takeWhile_append_dropWhile (p := isDecimalDigit) (l := cs), List.mem_append] at spaced
  rcases spaced with digit | behind
  · exact absurd (List.mem_takeWhile_imp digit) (by decide)
  · exact not_mem_of_atEnd ended (by decide) behind

/-- What a suffix is cut from ends in one, but perhaps for a line break. -/
theorem exists_of_cutSuffix? {rest : List Char} (h : cutSuffix? cs = some rest) :
    ∃ suffix ∈ imageSuffixes, ∃ front w after, cs = front ++ w ++ after ∧
      Matches suffix.toList w ∧ atEnd after = true := by
  induction cs generalizing rest with
  | nil => cases h
  | cons c cs ih =>
    unfold cutSuffix? at h
    split at h
    next found =>
      obtain ⟨suffix, known, cut⟩ := List.exists_of_findSome?_eq_some found
      obtain ⟨cut, ended⟩ := Option.filter_eq_some_iff.mp cut
      obtain ⟨w, same, eq⟩ := dropLiteral_eq_some_iff.mp cut
      exact ⟨suffix, known, [], w, _, eq, same, ended⟩
    next =>
      obtain ⟨later, cut, -⟩ := Option.map_eq_some_iff.mp h
      obtain ⟨suffix, known, front, w, after, rfl, same, ended⟩ := ih cut
      exact ⟨suffix, known, c :: front, w, after, rfl, same, ended⟩

theorem exists_last_of_matches {literal : List Char} (h : Matches literal w)
    (some_chars : literal ≠ []) :
    ∃ l c, literal.getLast? = some l ∧ w.getLast? = some c ∧ sameLetter l c = true := by
  induction h with
  | nil => exact absurd rfl some_chars
  | @cons l c literal w same others ih =>
    cases others with
    | nil => exact ⟨l, c, rfl, rfl, same⟩
    | cons same' others =>
      rw [List.getLast?_cons_cons, List.getLast?_cons_cons]
      exact ih (List.cons_ne_nil _ _)

/-- A text that ends in an `e` has no image suffix at its end. -/
theorem cutSuffix?_eq_none (last : cs.getLast? = some 'e') : cutSuffix? cs = none := by
  have others : ∀ suffix ∈ imageSuffixes, suffix.toList ≠ [] ∧
      ∀ l ∈ suffix.toList.getLast?, sameLetter l 'e' = false := by decide
  refine Option.eq_none_iff_forall_not_mem.mpr fun rest cut => ?_
  obtain ⟨suffix, known, front, w, after, rfl, same, ended⟩ := exists_of_cutSuffix? cut
  obtain ⟨filled, other⟩ := others suffix known
  rcases eq_of_atEnd ended with rfl | rfl
  · obtain ⟨l, c, letter, final, equal⟩ := exists_last_of_matches same filled
    rw [List.append_nil, List.getLast?_append, final, Option.some_or] at last
    obtain rfl := Option.some.inj last
    rw [other l letter] at equal
    cases equal
  · rw [List.getLast?_concat] at last
    cases last

theorem eq_underscore_of_sameLetter {c : Char} (h : sameLetter '_' c = true) : c = '_' := by
  have same : c.toLower = '_' := by simpa [sameLetter] using h
  by_cases small : c.toNat < 0x80
  · exact (ascii_case small).2.1 same
  · have kept : c.toLower = c := dif_neg fun range => small (by
      have top : c.toNat ≤ 90 := range.2
      omega)
    rw [← kept, same]

/-- In a text without underscores, a camera's counter has its mark right in front of the digits. -/
theorem isCameraName_eq (plain : '_' ∉ cs) :
    isCameraName cs = ((dropLiteral "DSC".toList cs).any startsWithDigit ||
      (dropLiteral "DCIM".toList cs).isSome) := by
  have image : dropLiteral "IMG_".toList cs = none := by
    refine Option.eq_none_iff_forall_not_mem.mpr fun rest found => ?_
    obtain ⟨w, same, rfl⟩ := dropLiteral_eq_some_iff.mp found
    obtain ⟨l, c, letter, last, equal⟩ := exists_last_of_matches same (by decide)
    obtain rfl : '_' = l := by simpa using letter
    rw [eq_underscore_of_sameLetter equal] at last
    exact plain (List.mem_append_left _ (List.mem_of_getLast? last))
  unfold isCameraName
  rw [image, Option.any_none, Bool.false_or]
  congr 1
  cases found : dropLiteral "DSC".toList cs with
  | none => rfl
  | some rest =>
    obtain ⟨w, same, rfl⟩ := dropLiteral_eq_some_iff.mp found
    rw [Option.any_some, Option.any_some]
    split
    next more => exact absurd (List.mem_append_right _ List.mem_cons_self) plain
    next => rw [Bool.or_false]

end

/-! ### What the texts are worth -/

theorem genericWords_letters :
    ∀ word ∈ genericWords, ∀ l ∈ word.toList, l.toLower.isLower = true := by
  decide

/-- Of all that makes a text meaningless, only a camera's mark can open a text made from a file
name. -/
theorem isMeaningless_filenameAlt (h : filenameAlt source = some text) :
    isMeaningless text = beginsLikeCounter text := by
  obtain ⟨c, first, between, chars, -, plain⟩ := exists_of_filenameAlt h
  have spaced : ' ' ∈ text.toList := by simp [chars]
  have last : text.toList.getLast? = some 'e' := by
    rw [chars, ← List.cons_append, ← List.append_assoc, List.getLast?_append]
    rfl
  have generic : (genericWords.any (isWord · text.toList)) = false := by
    rw [List.any_eq_false]
    intro word mem
    rw [isWord_eq_false (genericWords_letters word mem) spaced]
    exact Bool.false_ne_true
  rw [isMeaningless, isMeaninglessChars, generic, isNumber_eq_false spaced,
    cutSuffix?_eq_none last, isCameraName_eq plain]
  simp [beginsLikeCounter]

theorem trim_filenameAlt (h : filenameAlt source = some text) : trim text = text := by
  obtain ⟨c, first, between, chars, visible, -⟩ := exists_of_filenameAlt h
  have edges : text.toList = c :: (first ++ ' ' :: (between ++ "imag".toList)) ++ ['e'] := by
    simp [chars]
  rw [trim, edges, trimChars_of_edges visible (by decide), ← edges, String.ofList_toList]

theorem words_filenameAlt (h : filenameAlt source = some text) (word : String) :
    words text ≠ [word] := by
  obtain ⟨c, first, between, chars, visible, -⟩ := exists_of_filenameAlt h
  have before : wordsFrom [] (c :: first) ≠ [] := wordsFrom_ne_nil List.mem_cons_self visible
  have behind : wordsFrom [] (between ++ "image".toList) ≠ [] :=
    wordsFrom_ne_nil (List.mem_append_right _ (by decide : 'e' ∈ "image".toList)) (by decide)
  intro single
  have count := congrArg List.length single
  rw [words, chars, wordsFrom_append (by decide), List.length_map, List.length_append,
    List.length_singleton] at count
  have some := List.length_pos_iff.mpr before
  have some' := List.length_pos_iff.mpr behind
  omega

theorem classify_filenameAlt (h : filenameAlt source = some text) :
    classify (some text) false = if beginsLikeCounter text then .meaningless else .valid := by
  have filled : text ≠ "" := by
    rintro rfl
    obtain ⟨c, first, between, chars, -⟩ := exists_of_filenameAlt h
    cases chars
  rw [classify]
  dsimp only
  rw [if_neg filled, if_neg Bool.false_ne_true, trim_filenameAlt h, isMeaningless_filenameAlt h]
  split
  next => rfl
  next =>
    split
    next word single => exact absurd single (words_filenameAlt h word)
    next => rfl

end JsxAudit.Label

namespace JsxAudit.Rule

open Audit Label Source

/-! ### What is said about an image -/

/-- An image whose text has been made from a file name is found again exactly if the text begins
like the numbers of a camera: the underscore is gone from a name such as `IMG_1`, and every other
pattern asks for a text of one word or for a suffix. -/
theorem checkAlt_filenameAlt {source text : String} (made : filenameAlt source = some text) :
    (classify (some text) false = if beginsLikeCounter text then .meaningless else .valid) ∧
      ∀ (settings : RuleSettings) (e : Element), altValue e = (some text, false) →
        (checkAlt settings e).isSome = beginsLikeCounter text := by
  have worth := classify_filenameAlt made
  refine ⟨worth, fun settings e read => ?_⟩
  cases counter : beginsLikeCounter text with
  | true =>
    rw [counter, if_pos rfl] at worth
    simp [checkAlt, read, worth]
  | false =>
    rw [counter, if_neg Bool.false_ne_true] at worth
    simp [checkAlt, read, worth]

/-- Two files of one camera, of which only the one that sets the number apart gets a text that is
good enough. -/
theorem checkAlt_filenameAlt_camera :
    (filenameAlt "/DSC_0001.jpg" = some "DSC 0001 image" ∧
      classify (some "DSC 0001 image") false = .valid) ∧
    filenameAlt "/DSC0001.jpg" = some "DSC0001 image" ∧
      classify (some "DSC0001 image") false = .meaningless ∧
      ∃ f ∈ SourceFile.parse "a.tsx" "<img src=\"/DSC0001.jpg\" alt=\"DSC0001 image\"/>",
        ∃ e ∈ f.elements, altValue e = (some "DSC0001 image", false) ∧
          (checkAlt {} e).isSome = true := by
  have apart : filenameAlt "/DSC_0001.jpg" = some "DSC 0001 image" := by decide +kernel
  have joined : filenameAlt "/DSC0001.jpg" = some "DSC0001 image" := by decide +kernel
  have counter : beginsLikeCounter "DSC 0001 image" = false ∧
      beginsLikeCounter "DSC0001 image" = true := by decide +kernel
  have read : ∃ f ∈ SourceFile.parse "a.tsx" "<img src=\"/DSC0001.jpg\" alt=\"DSC0001 image\"/>",
      ∃ e ∈ f.elements, altValue e = (some "DSC0001 image", false) := by decide +kernel
  obtain ⟨f, parsed, e, mem, alt⟩ := read
  obtain ⟨valid, -⟩ := checkAlt_filenameAlt apart
  obtain ⟨meaningless, again⟩ := checkAlt_filenameAlt joined
  rw [counter.1] at valid
  rw [counter.2] at meaningless again
  exact ⟨⟨apart, valid⟩, joined, meaningless, f, parsed, e, mem, alt, again {} e alt⟩

end JsxAudit.Rule
