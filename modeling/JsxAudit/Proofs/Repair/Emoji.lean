import JsxAudit.Proofs.Repair.Place
import JsxAudit.Proofs.Repair.Replay

/-!
Flagged texts put into spans.

A flagged text is looked for at its anchor, which may be out of date or lie inside of a character,
and then along its line. Both compare bytes, but the bytes of a text stand in another one only where
its characters do, so that no character is cut. The span then goes around these characters, and
without its two tags the text is the old one: `wrapEmoji_cases`.
-/

namespace JsxAudit.Repair

open Source Audit Text

variable {f : SourceFile} {v : Violation} {start : Nat}

/-- The tag that opens a span with a name. -/
def spanOpening (name : String) : String :=
  "<span role=\"img\" aria-label=\"" ++ escapeQuotes name ++ "\">"

def spanClosing : String :=
  "</span>"

theorem wrapEmoji_eq (f : SourceFile) (v : Violation) (value : String) :
    wrapEmoji f v value = (placeOf? f v).toList.map fun start =>
      ⟨start, start + (utf8 v.element).length, spanOpening value ++ v.element ++ spanClosing⟩ := by
  unfold wrapEmoji
  cases placeOf? f v with
  | none => rfl
  | some start => rfl

/-- The bytes of a file around a flagged text. -/
theorem bytes_eq_of_placeOf? (h : placeOf? f v = some start) :
    f.bytes = f.bytes.take start ++ utf8 v.element ++
      f.bytes.drop (start + (utf8 v.element).length) := by
  have here := take_append_slice f.bytes (Nat.le_add_right start (utf8 v.element).length)
  rw [slice_of_placeOf? h] at here
  rw [here, List.take_append_drop]

/-- A splice of a part of a text, which another text replaces. -/
theorem replaceIn_append (front part back text : String) :
    Splice.replaceIn (utf8 (front ++ part ++ back))
        ⟨(utf8 front).length, (utf8 front).length + (utf8 part).length, text⟩ =
      utf8 (front ++ text ++ back) := by
  have before : (utf8 (front ++ part ++ back)).take (utf8 front).length = utf8 front := by
    rw [utf8_append, utf8_append, List.append_assoc, List.take_left]
  have behind : (utf8 (front ++ part ++ back)).drop
      ((utf8 front).length + (utf8 part).length) = utf8 back := by
    rw [utf8_append, utf8_append, ← List.length_append, List.drop_left]
  rw [Splice.replaceIn, before, behind, utf8_append, utf8_append]

/-! ### Tags taken out -/

/-- The splices that take the tags of a span out of a text, where the span begins at an offset. -/
def tagRemovals (start : Nat) (name element : String) : List Splice :=
  let inner := start + (utf8 (spanOpening name)).length
  let stop := inner + (utf8 element).length
  [⟨start, inner, ""⟩, ⟨stop, stop + (utf8 spanClosing).length, ""⟩]

/-- Two parts of five are cut out. -/
theorem weave_removals (a b c d e : List UInt8) :
    Splice.weave (a ++ b ++ c ++ d ++ e) 0
      [⟨a.length, a.length + b.length, ""⟩,
        ⟨a.length + b.length + c.length, a.length + b.length + c.length + d.length, ""⟩] =
      a ++ c ++ e := by
  have before : slice (a ++ b ++ c ++ d ++ e) 0 a.length = a := by simp [slice]
  have between : slice (a ++ b ++ c ++ d ++ e) (a.length + b.length)
      (a.length + b.length + c.length) = c := by
    refine slice_of_prefix ?_
    rw [List.append_assoc, List.append_assoc, ← List.length_append, List.drop_left]
    exact List.prefix_append _ _
  have behind : (a ++ b ++ c ++ d ++ e).drop (a.length + b.length + c.length + d.length) = e := by
    rw [← List.length_append, ← List.length_append, ← List.length_append, List.drop_left]
  rw [Splice.weave, Splice.weave, Splice.weave, before, between, behind, utf8_empty,
    List.append_nil, List.append_nil, List.append_assoc]

/-- A part of a text goes into a span, and the tags of the span are taken out again. -/
theorem spliced?_tagRemovals {element : String} (filled : element ≠ "") (front name back : String) :
    Splice.spliced? (utf8 (front ++ spanOpening name ++ element ++ spanClosing ++ back))
        (tagRemovals (utf8 front).length name element) = some (front ++ element ++ back) := by
  have long := length_utf8_pos filled
  rw [Splice.spliced?, Splice.bytesAfter_eq_weave, decode?_eq_some]
  · simp only [utf8_append]
    exact (weave_removals _ _ _ _ _).symm
  · exact List.pairwise_pair.mpr (by simp only; omega)
  · simp only [tagRemovals, Splice.Disjoint, utf8_append, List.length_append]
    omega

/-! ### The span -/

/-- Whatever the anchor and the value are, a text that is not empty is wrapped where it stands, if it
is found: the splice begins and ends at characters of the file, and its range holds just the bytes of
the text. So the file with the splice is a text, and without the two tags it is the old one. -/
theorem wrapEmoji_cases (filled : v.element ≠ "") (value : String) :
    wrapEmoji f v value = [] ∨ ∃ s, wrapEmoji f v value = [s] ∧
      IsCut f.text s.start ∧ IsCut f.text s.stop ∧
      slice f.bytes s.start s.stop = utf8 v.element ∧
      ∃ front back, f.text = front ++ v.element ++ back ∧ (utf8 front).length = s.start ∧
        Splice.spliced? f.bytes [s] =
          some (front ++ spanOpening value ++ v.element ++ spanClosing ++ back) ∧
        Splice.spliced? (utf8 (front ++ spanOpening value ++ v.element ++ spanClosing ++ back))
          (tagRemovals s.start value v.element) = some f.text := by
  rw [wrapEmoji_eq]
  cases found : placeOf? f v with
  | none => exact .inl rfl
  | some start =>
    refine .inr ⟨_, rfl, ?_⟩
    have here := slice_of_placeOf? found
    rw [f.bytes_eq] at here
    obtain ⟨front, back, parts, place⟩ := exists_append_of_slice filled here
    have inside : start + (utf8 v.element).length ≤ (utf8 f.text).length := by
      rw [parts, utf8_append, utf8_append, List.length_append, List.length_append]
      omega
    obtain ⟨left, right⟩ := isCut_of_utf8_eq_slice filled inside here.symm
    refine ⟨left, right, slice_of_placeOf? found, front, back, parts, place, ?_, ?_⟩
    · rw [Splice.spliced?_singleton, f.bytes_eq, parts, ← place, replaceIn_append, decode?_utf8]
      simp only [String.append_assoc]
    · rw [parts, ← place]
      exact spliced?_tagRemovals filled front value back

/-- An anchor inside of a character, from which the emoji behind it is found along the line. -/
theorem wrapEmoji_cases_stale :
    let f := (SourceFile.parse "a.tsx" "<p>é🚀</p>").get (by decide +kernel)
    let v : Violation :=
      { rule := "emoji-alt", filePath := "a.tsx", line := 1, column := 5, element := "🚀"
        message := "", anchor := some 4 }
    v.element ≠ "" ∧ isBoundary f.bytes 4 = false ∧ ∃ s, wrapEmoji f v "Rocket" = [s] ∧
      s.start = 5 ∧ s.stop = 9 ∧ IsCut f.text s.start ∧ IsCut f.text s.stop ∧
      ∃ text, Splice.spliced? f.bytes [s] = some text ∧
        Splice.spliced? (utf8 text) (tagRemovals s.start "Rocket" v.element) = some f.text := by
  intro f v
  have computed : isBoundary f.bytes 4 = false ∧ placeOf? f v = some 5 := by decide +kernel
  obtain ⟨inside, place⟩ := computed
  have filled : v.element ≠ "" := by decide
  have found : wrapEmoji f v "Rocket" =
      [⟨5, 5 + (utf8 v.element).length, spanOpening "Rocket" ++ v.element ++ spanClosing⟩] := by
    rw [wrapEmoji_eq, place]
    rfl
  rcases wrapEmoji_cases filled "Rocket" with none | ⟨s, made, left, right, -, _, _, -, -, text, back⟩
  · rw [none] at found
    cases found
  · obtain rfl := (List.cons.inj (made.symm.trans found)).1
    exact ⟨filled, inside, _, found, rfl, by decide, left, right, _, text, back⟩

end JsxAudit.Repair
