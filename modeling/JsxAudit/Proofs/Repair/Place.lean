import JsxAudit.Proofs.Label.Emoji
import JsxAudit.Proofs.Rule.Report
import JsxAudit.Proofs.Source.Program
import JsxAudit.Proofs.Text.Bytes
import JsxAudit.Repair.Edit

/-!
Which edit carries out a fix, and where it finds its place.

On the file that a violation was reported on, the place is the one it was reported at: an element is
located by its anchor (`locate?_raised`), and the bytes of an emoji are those at the anchor
(`placeOf?_of_standsAt`).
-/

namespace JsxAudit.Source.SourceFile

open Text

/-- A stretch that reads as a text which is not empty consists of the bytes of this text. -/
theorem utf8_textBetween {f : SourceFile} {start stop : Nat}
    (given : f.textBetween start stop ≠ "") :
    utf8 (f.textBetween start stop) = slice f.bytes start stop := by
  unfold textBetween at given ⊢
  cases read : decode? (slice f.bytes start stop) with
  | none => simp [read] at given
  | some text => exact decode?_eq_some.mp read

end JsxAudit.Source.SourceFile

namespace JsxAudit.Repair

open Source Audit Rule Label Text

variable {f : SourceFile} {v : Violation} {e : Element} {rule : String}

/-! ### Edits -/

theorem editFor_insertAttr (general : rule ∉ ownEdits) : editFor rule .insertAttr = insertAttr := by
  simp only [ownEdits, List.mem_cons, List.not_mem_nil, or_false, not_or] at general
  unfold editFor
  simp [general]

theorem editFor_replaceAttr (general : rule ∉ ownEdits) :
    editFor rule .replaceAttr = replaceAttr := by
  simp only [ownEdits, List.mem_cons, List.not_mem_nil, or_false, not_or] at general
  unfold editFor
  simp [general]

theorem editFor_tabIndex (type : FixType) :
    editFor "no-positive-tabindex" type = resetTabIndex := by
  unfold editFor
  simp

theorem editFor_nestedAnchor (type : FixType) :
    editFor "next-link-no-nested-a" type = unwrapAnchor := by
  unfold editFor
  simp

theorem editFor_emoji (type : FixType) : editFor "emoji-alt" type = wrapEmoji := by
  unfold editFor
  simp

theorem editFor_title : editFor "next-metadata-title" .insertMetadata = insertMetadata := by
  unfold editFor
  simp

/-- The edit that inserts an attribute makes one splice, which cuts nothing out, or none. -/
theorem insertAttr_cases (f : SourceFile) (v : Violation) (value : String) :
    insertAttr f v value = [] ∨ ∃ name place, v.fix.bind (·.attr) = some name ∧
      insertAttr f v value = [⟨place, place, " " ++ attributeText name value⟩] := by
  unfold insertAttr
  split
  · rename_i name e named located
    split
    · rename_i tag _
      split
      · exact .inl rfl
      · exact .inr ⟨name, tag.stop, named, rfl⟩
    · exact .inl rfl
  · exact .inl rfl

/-! ### Elements -/

/-- A violation leads back to the element it was raised on. -/
theorem locate?_raised (program : f.IsProgram) (raised : RaisedOn f v e) {tag? : Option String}
    (fits : ∀ tag ∈ tag?, tag = e.tag) : locate? f v tag? = some e := by
  have here : f.elementAt? e.anchor = some e := SourceFile.elementAt?_anchor program raised.mem
  have tagged : tag?.all (· = e.tag) = true := by
    rw [Option.all_eq_true]
    intro tag given
    simpa using fits tag given
  unfold locate?
  dsimp only
  rw [raised.anchor, Option.bind_some, here, Option.filter_some, if_pos tagged, Option.some_or]

theorem expectedTag?_raised (raised : RaisedOn f v e) (tagged : e.tag ≠ "") :
    expectedTag? v = some e.tag := by
  rw [expectedTag?, raised.tag]
  simp [tagged]

theorem element?_raised (program : f.IsProgram) (raised : RaisedOn f v e) (tagged : e.tag ≠ "") :
    element? f v = some e := by
  refine locate?_raised program raised fun tag given => ?_
  rw [expectedTag?_raised raised tagged] at given
  exact (Option.some.inj given).symm

/-! ### Emoji -/

theorem prefix_of_findBytes? {part bytes : List UInt8} {i : Nat}
    (h : findBytes? part bytes = some i) : part <+: bytes.drop i := by
  induction bytes generalizing i with
  | nil =>
    unfold findBytes? at h
    split at h
    · rename_i empty
      rw [List.isEmpty_iff.mp empty]
      exact List.nil_prefix
    · cases h
  | cons b rest ih =>
    unfold findBytes? at h
    split at h
    · rename_i front
      cases h
      exact List.isPrefixOf_iff_prefix.mp front
    · obtain ⟨j, found, rfl⟩ := Option.map_eq_some_iff.mp h
      exact ih found

/-- Where a flagged text is found, its bytes stand. -/
theorem slice_of_placeOf? {start : Nat} (h : placeOf? f v = some start) :
    slice f.bytes start (start + (utf8 v.element).length) = utf8 v.element := by
  rcases Option.or_eq_some_iff.mp h with anchored | ⟨-, searched⟩
  · simpa using (Option.filter_eq_some_iff.mp anchored).2
  · obtain ⟨⟨first, stop⟩, -, found⟩ := Option.bind_eq_some_iff.mp searched
    obtain ⟨i, inside, rfl⟩ := Option.map_eq_some_iff.mp found
    have front := prefix_of_findBytes? inside
    rw [slice, List.drop_drop, List.drop_take] at front
    exact slice_of_prefix (front.trans (List.take_prefix _ _))

/-- An emoji, however much of it a violation shows, stands in its text at the anchor. -/
structure StandsAt (f : SourceFile) (v : Violation) (n : Syntax.Node) (start : Nat) : Prop where
  anchor : v.anchor = some start
  start_le : n.start ≤ start
  stop_le : start + (utf8 v.element).length ≤ n.stop
  bytes : slice f.bytes start (start + (utf8 v.element).length) = utf8 v.element

/-- A part of the text of a node stands in the file behind what comes before it. -/
theorem slice_of_prefix_nodeText {n : Syntax.Node} {k : Nat} {part : String}
    (given : f.nodeText n ≠ "") (front : part.toList <+: (f.nodeText n).toList.drop k) :
    let start := n.start + (utf8 (takeChars k (f.nodeText n))).length
    start + (utf8 part).length ≤ n.stop ∧
      slice f.bytes start (start + (utf8 part).length) = utf8 part := by
  intro start
  obtain ⟨back, behind⟩ := front
  have parts : (f.nodeText n).toList =
      (takeChars k (f.nodeText n)).toList ++ part.toList ++ back := by
    rw [List.append_assoc, behind]
    simp [takeChars]
  have whole := utf8_eq_append parts
  have read : utf8 (f.nodeText n) = slice f.bytes n.start n.stop :=
    SourceFile.utf8_textBetween given
  have some := length_utf8_pos given
  have length := length_slice_le f.bytes n.start n.stop
  rw [← read, whole, List.length_append, List.length_append] at length
  rw [whole, List.length_append, List.length_append] at some
  rw [read] at whole
  constructor
  · omega
  · refine slice_of_prefix ?_
    have stretch := slice_prefix f.bytes n.start n.stop
    rw [whole] at stretch
    rw [List.append_assoc] at stretch
    obtain ⟨after, eq⟩ := stretch
    rw [← List.drop_drop, ← eq, List.append_assoc, List.drop_left, List.append_assoc]
    exact List.prefix_append _ _

theorem nodeText_ne_of_mem_findEmoji {n : Syntax.Node} {m : EmojiMatch}
    (found : m ∈ findEmoji (f.nodeText n)) : f.nodeText n ≠ "" := by
  intro empty
  rw [empty] at found
  cases found

theorem exists_standsAt {n : Syntax.Node} {m : EmojiMatch}
    (found : m ∈ findEmoji (f.nodeText n)) :
    ∃ start, StandsAt f (emojiViolation f n.start (f.nodeText n) m) n start := by
  have front : (takeChars Violation.elementLimit m.emoji).toList <+:
      (f.nodeText n).toList.drop m.start := by
    rw [takeChars, String.toList_ofList]
    exact (List.take_prefix _ _).trans (prefix_of_mem_findEmoji found)
  obtain ⟨stop_le, bytes⟩ := slice_of_prefix_nodeText (nodeText_ne_of_mem_findEmoji found) front
  exact ⟨_, rfl, Nat.le_add_right _ _, stop_le, bytes⟩

theorem placeOf?_of_standsAt {n : Syntax.Node} {start : Nat} (h : StandsAt f v n start) :
    placeOf? f v = some start := by
  have bytes := h.bytes
  rw [placeOf?, h.anchor]
  simp [bytes]

end JsxAudit.Repair
