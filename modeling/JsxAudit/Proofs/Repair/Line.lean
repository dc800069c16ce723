import JsxAudit.Proofs.Text.Bytes
import JsxAudit.Repair.Locate
import Mathlib.Data.List.Basic

/-!
Positions, and the lines they are on.

The position of an offset is counted over the bytes before it, and a line is found again by going
from one line break to the next. Both are compared with the characters of the text. Around an offset
at which the text can be cut (`Around`) stand the lines above, the characters before it and behind it
on its line, and the lines below. The line breaks above and the characters before it are its position
(`Around.position_eq`), and the search for a line of that number ends with the bytes of the line
(`Around.lineSpan?_eq`).
-/

namespace JsxAudit.Source.SourceFile

open Text

variable {f : SourceFile} {s : String} {bytes : List UInt8}

/-! ### Counting characters in bytes -/

theorem isContinuation_ofNat {n : Nat} (byte : n < 256) :
    isContinuation (UInt8.ofNat n) = decide (0x80 ≤ n ∧ n < 0xC0) := by
  rw [Bool.eq_iff_iff, isContinuation, Bool.and_eq_true, decide_eq_true_eq, decide_eq_true_eq,
    decide_eq_true_eq, UInt8.le_iff_toNat_le, UInt8.lt_iff_toNat_lt, UInt8.toNat_ofNat',
    Nat.mod_eq_of_lt byte]
  rfl

/-- The first byte of a character begins it, and the others continue it. -/
theorem countChars_utf8EncodeChar (c : Char) : countChars (String.utf8EncodeChar c) = 1 := by
  have leads {n : Nat} (byte : n < 256) (lead : n < 0x80 ∨ 0xC0 ≤ n) :
      isContinuation (UInt8.ofNat n) = false := by
    rw [isContinuation_ofNat byte, decide_eq_false_iff_not]
    omega
  have follows (n : Nat) : isContinuation (UInt8.ofNat (n % 64 + 0x80)) = true := by
    rw [isContinuation_ofNat (by omega), decide_eq_true_eq]
    omega
  unfold String.utf8EncodeChar countChars
  dsimp only
  split
  · rw [List.countP_singleton, leads (by omega) (by omega)]
    rfl
  · split
    · rw [List.countP_cons, List.countP_singleton, follows, leads (by omega) (by omega)]
      rfl
    · split
      · rw [List.countP_cons, List.countP_cons, List.countP_singleton, follows, follows,
          leads (by omega) (by omega)]
        rfl
      · rw [List.countP_cons, List.countP_cons, List.countP_cons, List.countP_singleton,
          follows, follows, follows, leads (by omega) (by omega)]
        rfl

theorem countBreaks_utf8EncodeChar (c : Char) :
    countBreaks (String.utf8EncodeChar c) = if c = '\n' then 1 else 0 := by
  by_cases small : c.toNat < 0x80
  · have same : UInt8.ofNat c.toNat = 10 ↔ c = '\n' := by
      rw [← UInt8.toNat_inj, UInt8.toNat_ofNat', Nat.mod_eq_of_lt (by omega), ← Char.toNat_inj]
      rfl
    rw [utf8EncodeChar_of_ascii small, countBreaks, List.countP_singleton]
    simp only [beq_iff_eq, same]
  · have other : c ≠ '\n' := by
      rintro rfl
      exact small (by decide)
    rw [countBreaks, if_neg other, List.countP_eq_zero]
    intro b mem
    have wide := not_ascii_of_mem_utf8EncodeChar (Nat.not_lt.mp small) mem
    rw [beq_iff_eq]
    rintro rfl
    exact absurd wide (by decide)

theorem countChars_utf8 (s : String) : countChars (utf8 s) = s.length := by
  have each (cs : List Char) : countChars (cs.flatMap String.utf8EncodeChar) = cs.length := by
    induction cs with
    | nil => rfl
    | cons c cs ih =>
      rw [List.flatMap_cons, countChars, List.countP_append, ← countChars, ← countChars, ih,
        countChars_utf8EncodeChar, List.length_cons, Nat.add_comm]
  rw [utf8, each, String.length_toList]

theorem countBreaks_utf8 (s : String) : countBreaks (utf8 s) = s.toList.count '\n' := by
  have each (cs : List Char) : countBreaks (cs.flatMap String.utf8EncodeChar) = cs.count '\n' := by
    induction cs with
    | nil => rfl
    | cons c cs ih =>
      rw [List.flatMap_cons, countBreaks, List.countP_append, ← countBreaks, ← countBreaks, ih,
        countBreaks_utf8EncodeChar, List.count_cons, Nat.add_comm]
      simp
  exact each s.toList

/-! ### Whole lines -/

/-- The text is empty or ends with a line break. -/
def WholeLines (s : String) : Prop :=
  s = "" ∨ ∃ lines, s = lines ++ "\n"

theorem utf8_newline : utf8 "\n" = [10] := by
  decide

theorem newline_mem_utf8_iff : (10 : UInt8) ∈ utf8 s ↔ '\n' ∈ s.toList :=
  mem_utf8_iff (c := '\n') (by decide)

/-- What stands behind whole lines and has no line break is the last line. -/
theorem lastLine_append {above before : String} (whole : WholeLines above)
    (inline : '\n' ∉ before.toList) : lastLine (utf8 above ++ utf8 before) = utf8 before := by
  have none : ∀ b ∈ (utf8 before).reverse, (b != 10) = true := by
    intro b mem
    rw [bne_iff_ne]
    rintro rfl
    exact inline (newline_mem_utf8_iff.mp (List.mem_reverse.mp mem))
  rw [lastLine, List.reverse_append, List.takeWhile_append_of_pos none]
  rcases whole with rfl | ⟨lines, rfl⟩
  · simp
  · simp [utf8_append, utf8_newline]

theorem WholeLines.getLast? {above : String} (whole : WholeLines above) :
    ∀ b ∈ (utf8 above).getLast?, b = 10 := by
  rcases whole with rfl | ⟨lines, rfl⟩
  · simp
  · simp [utf8_append, utf8_newline]

/-- The position of an offset in characters: the line breaks above, and the characters before it. -/
theorem position_append {above before behind : String} (text : f.text = above ++ before ++ behind)
    (whole : WholeLines above) (inline : '\n' ∉ before.toList) :
    f.position (utf8 (above ++ before)).length =
      (above.toList.count '\n' + 1, before.length + 1) := by
  have front : f.bytes.take (utf8 (above ++ before)).length = utf8 above ++ utf8 before := by
    rw [f.bytes_eq, text, utf8_append (above ++ before), List.take_left, utf8_append]
  have breaks : countBreaks (utf8 before) = 0 := by
    rw [countBreaks_utf8, List.count_eq_zero]
    exact inline
  rw [position, front, lastLine_append whole inline, countChars_utf8, countBreaks,
    List.countP_append, ← countBreaks, ← countBreaks, breaks, countBreaks_utf8, Nat.add_zero]

end JsxAudit.Source.SourceFile

namespace JsxAudit.Repair

open Source SourceFile Text

variable {f : SourceFile} {text : String} {offset : Nat}

/-! ### Going from line to line -/

theorem findIdx?_break {line : List UInt8} (unbroken : 10 ∉ line) :
    line.findIdx? (· == 10) = none := by
  rw [List.findIdx?_eq_none_iff]
  intro b mem
  rw [beq_eq_false_iff_ne]
  rintro rfl
  exact unbroken mem

theorem nextBreak?_of_not_mem {front rest : List UInt8} (unbroken : 10 ∉ rest) :
    nextBreak? (front ++ rest) front.length = none := by
  rw [nextBreak?, List.drop_left, findIdx?_break unbroken]
  rfl

theorem nextBreak?_append (front : List UInt8) {line : List UInt8} (unbroken : 10 ∉ line)
    (rest : List UInt8) :
    nextBreak? (front ++ (line ++ 10 :: rest)) front.length =
      some (front.length + line.length) := by
  rw [nextBreak?, List.drop_left, List.findIdx?_append, findIdx?_break unbroken, List.findIdx?_cons]
  simp

/-- A line begins behind as many line breaks as there are lines above. -/
theorem lineStart?_append (front above behind : List UInt8)
    (whole : ∀ b ∈ above.getLast?, b = 10) :
    lineStart? (front ++ above ++ behind) front.length (countBreaks above) =
      some (front ++ above).length := by
  generalize counted : countBreaks above = n
  induction n generalizing front above with
  | zero =>
    have none : 10 ∉ above := fun mem => by
      simpa using List.countP_eq_zero.mp counted 10 mem
    cases last : above.getLast? with
    | none => rw [List.getLast?_eq_none_iff.mp last, lineStart?, List.append_nil]
    | some b =>
      obtain rfl := whole b last
      exact absurd (List.mem_of_getLast? last) none
  | succ n ih =>
    have mem : 10 ∈ above := by
      have some : 0 < above.countP (· == 10) := by
        rw [← countBreaks, counted]
        exact n.succ_pos
      obtain ⟨b, mem, eq⟩ := List.countP_pos_iff.mp some
      rwa [eq_of_beq eq] at mem
    obtain ⟨line, rest, rfl, none⟩ := List.eq_append_cons_of_mem mem
    have unbroken : line.countP (· == 10) = 0 := by
      refine List.countP_eq_zero.mpr fun b there eq => none ?_
      rwa [eq_of_beq eq] at there
    have counted' : countBreaks rest = n := by
      rw [countBreaks, List.countP_append, unbroken, List.countP_cons_of_pos (by rfl)] at counted
      rw [countBreaks]
      omega
    rw [List.append_cons] at whole
    have next := ih (front ++ line ++ [10]) rest
      (fun b last => whole b (List.mem_getLast?_append_of_mem_getLast? last)) counted'
    have first := nextBreak?_append front none (rest ++ behind)
    have parts : front ++ (line ++ 10 :: rest) ++ behind =
        front ++ (line ++ 10 :: (rest ++ behind)) := by
      simp
    have parts' : front ++ (line ++ 10 :: rest) ++ behind =
        front ++ line ++ [10] ++ rest ++ behind := by
      simp
    have length : front.length + line.length + 1 = (front ++ line ++ [10]).length := by
      simp [Nat.add_assoc]
    rw [lineStart?, parts, first, ← parts, parts', Option.bind_some, length, next]
    simp

/-! ### Lines found again -/

/-- The text is what is left of a line, its line break included, or the end of the last line. -/
def EndsLine (behind below : String) : Prop :=
  (∃ rest, behind = rest ++ "\n" ∧ '\n' ∉ rest.toList) ∨ '\n' ∉ behind.toList ∧ below = ""

/-- The text around an offset: the lines above its line, what stands before it and behind it on its
line, the line break included, and the lines below. -/
structure Around (text : String) (offset : Nat) (above before behind below : String) : Prop where
  text_eq : text = above ++ before ++ behind ++ below
  offset_eq : offset = (utf8 (above ++ before)).length
  whole : WholeLines above
  inline : '\n' ∉ before.toList
  ends : EndsLine behind below

theorem exists_above (s : String) :
    ∃ above before, s = above ++ before ∧ WholeLines above ∧ '\n' ∉ before.toList := by
  by_cases mem : '\n' ∈ s.toList
  · obtain ⟨before, lines, eq, none⟩ :=
      List.eq_append_cons_of_mem (List.mem_reverse.mpr mem)
    refine ⟨String.ofList lines.reverse ++ "\n", String.ofList before.reverse, ?_,
      .inr ⟨_, rfl⟩, by simpa using none⟩
    rw [← String.toList_inj, ← List.reverse_reverse s.toList, eq]
    simp
  · exact ⟨"", s, String.empty_append.symm, .inl rfl, mem⟩

theorem exists_below (s : String) : ∃ behind below, s = behind ++ below ∧ EndsLine behind below := by
  by_cases mem : '\n' ∈ s.toList
  · obtain ⟨rest, below, eq, none⟩ := List.eq_append_cons_of_mem mem
    refine ⟨String.ofList rest ++ "\n", String.ofList below, ?_,
      .inl ⟨_, rfl, by simpa using none⟩⟩
    rw [← String.toList_inj, eq]
    simp
  · exact ⟨s, "", String.append_empty.symm, .inr ⟨mem, rfl⟩⟩

/-- A text that can be cut at an offset has characters before it and behind it. -/
theorem exists_append_of_isCut (cut : IsCut text offset) :
    ∃ front back, text = front ++ back ∧ (utf8 front).length = offset := by
  obtain ⟨front, before⟩ :=
    (isText_slice_iff (Nat.zero_le _) cut.le_length).mpr (.inr ⟨isCut_zero text, cut⟩)
  obtain ⟨back, behind⟩ :=
    (isText_slice_iff cut.le_length (Nat.le_refl _)).mpr (.inr ⟨cut, isCut_length text⟩)
  rw [slice, List.drop_zero] at before
  rw [slice, List.take_length] at behind
  refine ⟨front, back, utf8_injective ?_, ?_⟩
  · rw [utf8_append, before, behind, List.take_append_drop]
  · rw [before, List.length_take_of_le cut.le_length]

theorem exists_around (cut : IsCut text offset) :
    ∃ above before behind below, Around text offset above before behind below := by
  obtain ⟨front, back, rfl, rfl⟩ := exists_append_of_isCut cut
  obtain ⟨above, before, rfl, whole, inline⟩ := exists_above front
  obtain ⟨behind, below, rfl, ends⟩ := exists_below back
  exact ⟨above, before, behind, below, (String.append_assoc ..).symm, rfl, whole, inline, ends⟩

namespace Around

variable {above before behind below : String}
  (h : Around f.text offset above before behind below)

include h

theorem position_eq : f.position offset = (above.toList.count '\n' + 1, before.length + 1) := by
  rw [h.offset_eq]
  exact position_append (h.text_eq.trans String.append_assoc) h.whole h.inline

theorem lineSpan?_eq : lineSpan? f (above.toList.count '\n' + 1) =
    some ((utf8 above).length, (utf8 (above ++ before ++ behind)).length) := by
  have bytes : f.bytes = utf8 above ++ (utf8 (before ++ behind) ++ utf8 below) := by
    rw [f.bytes_eq, h.text_eq]
    simp only [utf8_append, List.append_assoc]
  have start : lineStart? f.bytes 0 (above.toList.count '\n') = some (utf8 above).length := by
    have found := lineStart?_append [] (utf8 above) (utf8 (before ++ behind) ++ utf8 below)
      h.whole.getLast?
    rwa [List.nil_append, List.length_nil, countBreaks_utf8, ← bytes] at found
  have stop : ((nextBreak? f.bytes (utf8 above).length).map (· + 1)).getD f.bytes.length =
      (utf8 (above ++ before ++ behind)).length := by
    rcases h.ends with ⟨rest, rfl, none⟩ | ⟨none, rfl⟩
    · have inline : 10 ∉ utf8 (before ++ rest) := by
        rw [newline_mem_utf8_iff]
        exact not_mem_toList_append h.inline none
      have line : f.bytes = utf8 above ++ (utf8 (before ++ rest) ++ 10 :: utf8 below) := by
        rw [bytes]
        simp [utf8_append, utf8_newline]
      rw [line, nextBreak?_append _ inline, Option.map_some, Option.getD_some]
      simp [utf8_append, utf8_newline, Nat.add_assoc]
    · have inline : 10 ∉ utf8 (before ++ behind) := by
        rw [newline_mem_utf8_iff]
        exact not_mem_toList_append h.inline none
      have line : f.bytes = utf8 above ++ utf8 (before ++ behind) := by
        rw [bytes, utf8_empty, List.append_nil]
      rw [line, nextBreak?_of_not_mem inline, Option.map_none, Option.getD_none, ← utf8_append,
        String.append_assoc]
  rw [lineSpan?, Nat.add_sub_cancel, start]
  exact congrArg (fun stop => some ((utf8 above).length, stop)) stop

/-- An offset is on its line, the line break included, unless it is the end of the text. -/
theorem inside : (utf8 above).length ≤ offset ∧
    (offset < (utf8 (above ++ before ++ behind)).length ∨
      offset = f.bytes.length ∧ (utf8 (above ++ before ++ behind)).length = f.bytes.length) := by
  rw [h.offset_eq, f.bytes_eq, h.text_eq]
  simp only [utf8_append, List.length_append]
  refine ⟨Nat.le_add_right _ _, ?_⟩
  rcases h.ends with ⟨rest, rfl, -⟩ | ⟨-, rfl⟩
  · rw [utf8_append, utf8_newline, List.length_append, List.length_singleton]
    omega
  · by_cases last : behind = ""
    · simp [last]
    · have := length_utf8_pos last
      rw [utf8_empty, List.length_nil]
      omega

end Around

/-! ### The order of positions -/

/-- Of two offsets at which a text can be cut, what stands before the smaller one is the beginning of
what stands before the other. -/
theorem exists_append_of_lt {front back front' back' : String}
    (same : front ++ back = front' ++ back')
    (lt : (utf8 front).length < (utf8 front').length) :
    ∃ between, front' = front ++ between ∧ between ≠ "" := by
  have chars := congrArg String.toList same
  rw [String.toList_append, String.toList_append] at chars
  rcases List.append_eq_append_iff.mp chars with ⟨more, eq, -⟩ | ⟨more, eq, -⟩
  · have eq' : front' = front ++ String.ofList more := by
      rw [← String.toList_inj, eq]
      simp
    refine ⟨_, eq', fun empty => ?_⟩
    rw [eq', empty, String.append_empty] at lt
    exact Nat.lt_irrefl _ lt
  · have eq' : front = front' ++ String.ofList more := by
      rw [← String.toList_inj, eq]
      simp
    rw [eq', utf8_append, List.length_append] at lt
    omega

/-- A later offset is on a later line, or farther right on the same one. -/
theorem position_lt {a b : Nat} (cut : IsCut f.text a) (cut' : IsCut f.text b) (lt : a < b) :
    Prod.Lex (· < ·) (· < ·) (f.position a) (f.position b) := by
  obtain ⟨above, before, behind, below, around⟩ := exists_around cut
  obtain ⟨above', before', behind', below', around'⟩ := exists_around cut'
  have split : above ++ before ++ (behind ++ below) = above' ++ before' ++ (behind' ++ below') := by
    rw [← String.append_assoc, ← String.append_assoc, ← around.text_eq, ← around'.text_eq]
  rw [around.offset_eq, around'.offset_eq] at lt
  obtain ⟨between, eq, some⟩ := exists_append_of_lt split lt
  rw [around.position_eq]
  by_cases mem : '\n' ∈ between.toList
  · have breaks := congrArg (fun s => s.toList.count '\n') eq
    have inline := List.count_eq_zero.mpr around'.inline
    have more := List.count_pos_iff.mpr mem
    simp only [String.toList_append, List.count_append] at breaks
    rw [around'.position_eq]
    exact .left _ _ (by omega)
  · have text : f.text = above ++ (before ++ between) ++ (behind' ++ below') := by
      rw [← @String.append_assoc above, ← eq, ← String.append_assoc, ← around'.text_eq]
    have inline : '\n' ∉ (before ++ between).toList := not_mem_toList_append around.inline mem
    have right : 0 < between.length := Nat.pos_of_ne_zero fun none =>
      some (String.length_eq_zero_iff.mp none)
    rw [around'.offset_eq, eq, String.append_assoc, position_append text around.whole inline]
    exact .right _ (by rw [String.length_append]; omega)

/-- Later offsets have later positions: of two offsets at which a text can be cut, the smaller one is
on an earlier line, or on the same one and farther left. The position of such an offset counts the
line breaks above its line, and the characters that stand before it on its line. The line of that
number is found again, and the offset is on it: it is one of the bytes of the line, the line break
included, unless it is the end of the text. -/
theorem position_lineSpan? (f : SourceFile) :
    (∀ a b, IsCut f.text a → IsCut f.text b → a < b →
      Prod.Lex (· < ·) (· < ·) (f.position a) (f.position b)) ∧
    ∀ offset, IsCut f.text offset → ∃ above before behind below,
      Around f.text offset above before behind below ∧
      f.position offset = (above.toList.count '\n' + 1, before.length + 1) ∧
      ∃ start stop, lineSpan? f (f.position offset).1 = some (start, stop) ∧
        start = (utf8 above).length ∧ stop = (utf8 (above ++ before ++ behind)).length ∧
        start ≤ offset ∧ (offset < stop ∨ offset = f.bytes.length ∧ stop = f.bytes.length) := by
  refine ⟨fun a b => position_lt, fun offset cut => ?_⟩
  obtain ⟨above, before, behind, below, around⟩ := exists_around cut
  have place := around.position_eq
  refine ⟨above, before, behind, below, around, place, _, _, ?_, rfl, rfl, around.inside⟩
  rw [place]
  exact around.lineSpan?_eq

/-- Behind a letter of two bytes in the first line, and at the end of a text that ends with line
breaks. -/
theorem position_lineSpan?_paragraph :
    let f := (SourceFile.parse "a.tsx" "<p>é</p>;\n\n").get (by decide +kernel)
    IsCut f.text 5 ∧ IsCut f.text 12 ∧ f.position 5 = (1, 5) ∧ f.position 12 = (3, 1) ∧
      Prod.Lex (· < ·) (· < ·) (f.position 5) (f.position 12) ∧
      lineSpan? f 1 = some (0, 11) ∧ lineSpan? f 3 = some (12, 12) ∧
      ∃ above before behind below, Around f.text 12 above before behind below ∧
        (utf8 above).length = 12 ∧ (utf8 (above ++ before ++ behind)).length = 12 := by
  intro f
  have computed : f.text = "<p>é</p>;\n\n" ∧ f.position 5 = (1, 5) ∧ f.position 12 = (3, 1) ∧
      lineSpan? f 1 = some (0, 11) ∧ lineSpan? f 3 = some (12, 12) := by
    decide +kernel
  obtain ⟨text, first, last, span, span'⟩ := computed
  have cut : IsCut f.text 5 ∧ IsCut f.text 12 := by
    rw [text]
    decide
  obtain ⟨order, lines⟩ := position_lineSpan? f
  obtain ⟨above, before, behind, below, around, -, start, stop, found, rfl, rfl, -⟩ :=
    lines 12 cut.2
  rw [last, span', Option.some.injEq, Prod.mk.injEq] at found
  exact ⟨cut.1, cut.2, first, last, order 5 12 cut.1 cut.2 (by decide), span, span', above, before,
    behind, below, around, found.1.symm, found.2.symm⟩

end JsxAudit.Repair
