import JsxAudit.Proofs.Repair.Anchor
import JsxAudit.Proofs.Repair.Emoji
import Mathlib.Data.List.Infix

/-!
All emoji of a text put into spans.

The emoji of a text lie one behind the other (`Lined`), and their fixes go from the last one to the
first, so that none moves the emoji of another. A report shows no more than the first characters of
an emoji (`shown`), and these are what goes into the span. A run that carries out all fixes replaces
them where they stand and leaves the stretches in between as they are (`bytes_of_wrapping`). If the
emoji are shown as a whole no stretch holds an emoji, and the rule then has nothing to report:
`emojiAlt_carved`.
-/

namespace JsxAudit.Repair

open Source Audit Rule Label Text

variable {parser : TreeParser} {f : SourceFile} {text : String} {k : Nat} {ms : List EmojiMatch}

/-! ### Emoji in a line -/

/-- The emoji stand in the text one behind the other, from a character on. -/
def Lined (text : String) : Nat → List EmojiMatch → Prop
  | _, [] => True
  | k, m :: rest =>
    k ≤ m.start ∧ m.emoji ≠ "" ∧ m.emoji.toList <+: text.toList.drop m.start ∧
      Lined text (m.start + m.emoji.length) rest

theorem lined_of_pairwise (apart : ms.Pairwise fun a b => a.start + a.emoji.length ≤ b.start)
    (behind : ∀ m ∈ ms, k ≤ m.start)
    (stand : ∀ m ∈ ms, m.emoji ≠ "" ∧ m.emoji.toList <+: text.toList.drop m.start) :
    Lined text k ms := by
  induction ms generalizing k with
  | nil => trivial
  | cons m rest ih =>
    obtain ⟨next, apart⟩ := List.pairwise_cons.mp apart
    obtain ⟨⟨filled, front⟩, others⟩ := List.forall_mem_cons.mp stand
    exact ⟨behind m List.mem_cons_self, filled, front, ih apart next others⟩

theorem lined_findEmoji (text : String) : Lined text 0 (findEmoji text) := by
  refine lined_of_pairwise (pairwise_emojiFrom 0 0 text.toList) (fun _ _ => Nat.zero_le _)
    fun m mem => ⟨fun empty => ?_, prefix_of_mem_findEmoji mem⟩
  have alone := findEmoji_of_mem_emojiFrom mem
  rw [empty] at alone
  cases alone

theorem Lined.mono {j : Nat} (lined : Lined text k ms) (le : j ≤ k) : Lined text j ms := by
  cases ms with
  | nil => trivial
  | cons m rest => exact ⟨Nat.le_trans le lined.1, lined.2⟩

/-- The emoji as far as a report shows it. -/
def shown (m : EmojiMatch) : EmojiMatch :=
  { m with emoji := takeChars Violation.elementLimit m.emoji }

/-- An emoji that is not too long is shown as a whole. -/
theorem shown_of_short {m : EmojiMatch} (short : m.emoji.length ≤ Violation.elementLimit) :
    shown m = m := by
  rw [shown, takeChars, List.take_of_length_le (by rwa [String.length_toList]),
    String.ofList_toList]

theorem map_shown_of_short (short : ∀ m ∈ ms, m.emoji.length ≤ Violation.elementLimit) :
    ms.map shown = ms := by
  rw [List.map_congr_left fun m mem => shown_of_short (short m mem), List.map_id']

/-- What is shown of emoji in a line stands in a line as well. -/
theorem Lined.shown (lined : Lined text k ms) : Lined text k (ms.map shown) := by
  induction ms generalizing k with
  | nil => trivial
  | cons m rest ih =>
    obtain ⟨behind, filled, front, later⟩ := lined
    have part : (takeChars Violation.elementLimit m.emoji).toList <+: m.emoji.toList := by
      rw [takeChars, String.toList_ofList]
      exact List.take_prefix _ _
    refine ⟨behind, fun empty => filled ?_, part.trans front, ih (later.mono ?_)⟩
    · have none : m.emoji.toList.take Violation.elementLimit = [] := by
        rw [← String.toList_ofList (l := m.emoji.toList.take _), ← takeChars]
        exact congrArg String.toList empty
      rw [List.take_eq_nil_iff, or_iff_right (by decide)] at none
      exact String.toList_eq_nil_iff.mp none
    · have le := part.length_le
      rw [String.length_toList, String.length_toList] at le
      exact Nat.add_le_add_left le _

theorem le_start_of_lined {m : EmojiMatch} (lined : Lined text k ms) (mem : m ∈ ms) :
    k ≤ m.start := by
  induction ms generalizing k with
  | nil => cases mem
  | cons first rest ih =>
    obtain ⟨behind, -, -, later⟩ := lined
    rcases List.mem_cons.mp mem with rfl | mem
    · exact behind
    · exact Nat.le_trans behind (Nat.le_trans (Nat.le_add_right _ _) (ih later mem))

/-! ### Offsets -/

/-- The byte offset of a character of a text that begins at the offset `base`. -/
def charOffset (base : Nat) (text : String) (k : Nat) : Nat :=
  base + (utf8 (takeChars k text)).length

theorem utf8_takeChars_add (text : String) (k d : Nat) : utf8 (takeChars (k + d) text) =
    utf8 (takeChars k text) ++ utf8 (String.ofList ((text.toList.drop k).take d)) := by
  simp [takeChars, utf8, List.take_add]

theorem utf8_takeChars_append (text : String) (k : Nat) :
    utf8 (takeChars k text) ++ utf8 (String.ofList (text.toList.drop k)) = utf8 text := by
  simp [takeChars, utf8, ← List.flatMap_append]

@[simp] theorem charOffset_zero (base : Nat) (text : String) : charOffset base text 0 = base := by
  simp [charOffset, takeChars]

theorem charOffset_add {part : String} (base : Nat)
    (front : part.toList <+: text.toList.drop k) :
    charOffset base text (k + part.length) = charOffset base text k + (utf8 part).length := by
  have here : String.ofList ((text.toList.drop k).take part.length) = part := by
    rw [← String.length_toList, ← List.prefix_iff_eq_take.mp front, String.ofList_toList]
  rw [charOffset, utf8_takeChars_add, here, List.length_append, charOffset, Nat.add_assoc]

theorem charOffset_mono {i : Nat} (base : Nat) (text : String) (le : k ≤ i) :
    charOffset base text k ≤ charOffset base text i := by
  obtain ⟨d, rfl⟩ := Nat.exists_eq_add_of_le le
  rw [charOffset, charOffset, utf8_takeChars_add, List.length_append]
  omega

/-- Each emoji in a line ends before the next one begins, in bytes as well. -/
theorem charOffset_le_of_lined {m : EmojiMatch} (base : Nat)
    (lined : Lined text k (m :: ms)) {next : EmojiMatch} (mem : next ∈ ms) :
    charOffset base text m.start + (utf8 m.emoji).length ≤ charOffset base text next.start := by
  obtain ⟨-, -, front, later⟩ := lined
  rw [← charOffset_add base front]
  exact charOffset_mono base text (le_start_of_lined later mem)

theorem pairwise_charOffset (base : Nat) (lined : Lined text k ms) :
    ms.Pairwise fun a b => charOffset base text a.start < charOffset base text b.start := by
  induction ms generalizing k with
  | nil => exact .nil
  | cons m rest ih =>
    refine .cons (fun next mem => ?_) (ih lined.2.2.2)
    have apart := charOffset_le_of_lined base lined mem
    have filled := length_utf8_pos lined.2.1
    omega

/-! ### Splices of spans -/

/-- An emoji in a span with its name, as far as it is shown. -/
def spanned (m : EmojiMatch) : String :=
  spanOpening (emojiName m.emoji) ++ (shown m).emoji ++ spanClosing

/-- The splice that puts an emoji into a span, in a text that begins at the offset `base`. -/
def spanSplice (base : Nat) (text : String) (m : EmojiMatch) : Splice :=
  let start := charOffset base text m.start
  ⟨start, start + (utf8 (shown m).emoji).length, spanned m⟩

theorem disjoint_spanSplices {base length : Nat} (lined : Lined text k (ms.map shown))
    (inside : base + (utf8 text).length ≤ length) :
    Splice.Disjoint length (charOffset base text k) (ms.map (spanSplice base text)) := by
  induction ms generalizing k with
  | nil =>
    rw [← utf8_takeChars_append text k, List.length_append] at inside
    rw [List.map_nil, Splice.Disjoint, charOffset]
    omega
  | cons m rest ih =>
    obtain ⟨behind, -, front, later⟩ := lined
    refine ⟨charOffset_mono base text behind, Nat.le_add_right _ _, ?_⟩
    have stop := charOffset_add base front
    rw [spanSplice]
    dsimp only
    exact stop ▸ ih later

section

variable {base : Nat} {bytes behind : List UInt8}

/-- What stands from a character of the text on. -/
theorem drop_charOffset (read : bytes.drop base = utf8 text ++ behind) (k : Nat) :
    bytes.drop (charOffset base text k) =
      utf8 (String.ofList (text.toList.drop k)) ++ behind := by
  rw [charOffset, ← List.drop_drop, read, ← utf8_takeChars_append text k, List.append_assoc,
    List.drop_left]

theorem slice_charOffset (read : bytes.drop base = utf8 text ++ behind) (k d : Nat) :
    slice bytes (charOffset base text k) (charOffset base text (k + d)) =
      utf8 (String.ofList ((text.toList.drop k).take d)) := by
  have front : utf8 (String.ofList ((text.toList.drop k).take d)) <+:
      bytes.drop (charOffset base text k) := by
    rw [drop_charOffset read, ← List.take_append_drop d (text.toList.drop k),
      String.ofList_append, utf8_append, List.append_assoc, List.take_append_drop]
    exact List.prefix_append _ _
  rw [← slice_of_prefix front, charOffset, charOffset, utf8_takeChars_add, List.length_append,
    Nat.add_assoc]

/-- Emoji put into spans where they stand leave the stretches between them. -/
theorem weave_spanSplices (lined : Lined text k (ms.map shown))
    (read : bytes.drop base = utf8 text ++ behind) :
    Splice.weave bytes (charOffset base text k) (ms.map (spanSplice base text)) =
      utf8 (woven ((stretchesFrom k (text.toList.drop k) (ms.map shown)).map String.ofList)
        (ms.map spanned)) ++ behind := by
  induction ms generalizing k with
  | nil =>
    rw [List.map_nil, List.map_nil, Splice.weave, drop_charOffset read, stretchesFrom]
    simp [woven]
  | cons m rest ih =>
    obtain ⟨after, -, front, later⟩ := lined
    obtain ⟨d, place⟩ := Nat.exists_eq_add_of_le after
    have start : (shown m).start = m.start := rfl
    rw [start] at after front later place
    have before := slice_charOffset read k d
    rw [← place] at before
    have gap : m.start - k = d := by omega
    have left : (text.toList.drop k).drop (d + (shown m).emoji.length) =
        text.toList.drop (m.start + (shown m).emoji.length) := by
      rw [List.drop_drop, place, Nat.add_assoc]
    rw [List.map_cons, Splice.weave, spanSplice, ← charOffset_add base front, before, ih later,
      List.map_cons, stretchesFrom, start, gap, left, List.map_cons, List.map_cons, woven,
      utf8_append, utf8_append, List.append_assoc, List.append_assoc, List.append_assoc]

end

/-! ### Runs -/

/-- The reports on the emoji of a text that begins at the offset `base`. -/
def emojiReports (f : SourceFile) (base : Nat) (text : String) (ms : List EmojiMatch) :
    List Violation :=
  ms.map (emojiViolation f base text)

theorem processingOrder_emojiReports (base : Nat) (lined : Lined text k ms) :
    processingOrder (emojiReports f base text ms) = (emojiReports f base text ms).reverse := by
  have fixable : (emojiReports f base text ms).filter (·.fix.isSome) =
      emojiReports f base text ms := by
    refine List.filter_eq_self.mpr fun v mem => ?_
    obtain ⟨m, -, rfl⟩ := List.mem_map.mp mem
    rfl
  rw [processingOrder, fixable]
  refine Data.mergeSort_eq_reverse precedes_trans precedes_total
    (fun a b order => fst_le_of_keyLe order) (.refl _) ?_
  exact List.pairwise_map.mpr (pairwise_charOffset base lined)

/-- The name of an emoji is written as it is. -/
theorem resolve_emojiName (emoji : String) :
    Deferred.resolve (.literal (emojiName emoji)) = .ok (some (emojiName emoji)) := by
  refine congrArg Except.ok (if_neg ?_)
  have apart : ∀ named ∈ emojiNames, named.2 ≠ Deferred.placeholder := by decide +kernel
  unfold emojiName
  cases found : emojiNames.lookup (emoji.toList.map Char.toNat) with
  | none => decide
  | some name =>
    obtain ⟨before, after, table, -⟩ := List.lookup_eq_some_iff.mp found
    exact apart (emoji.toList.map Char.toNat, name) (by simp [table])

/-- The edit of an emoji, where the file holds the bytes that the violation shows. -/
theorem wrapEmoji_emojiViolation {g : SourceFile} {m : EmojiMatch} {base : Nat}
    (here : utf8 (shown m).emoji <+: g.bytes.drop (charOffset base text m.start)) :
    wrapEmoji g (emojiViolation f base text m) (emojiName m.emoji) = [spanSplice base text m] := by
  have part : (emojiViolation f base text m).element = (shown m).emoji := rfl
  have place : placeOf? g (emojiViolation f base text m) =
      some (charOffset base text m.start) := by
    have stands := slice_of_prefix here
    rw [placeOf?, part]
    change (Option.filter _ (some (charOffset base text m.start))).or _ = _
    simp [stands]
  rw [wrapEmoji_eq, place, part]
  rfl

theorem splicesFor_emojiViolation {g : SourceFile} {m : EmojiMatch} {base : Nat}
    (here : utf8 (shown m).emoji <+: g.bytes.drop (charOffset base text m.start)) :
    splicesFor g (emojiViolation f base text m) = [spanSplice base text m] := by
  have given : (emojiViolation f base text m).fix =
      some ⟨.wrapElement, .literal (emojiName m.emoji), none⟩ := rfl
  refine splicesFor_singleton given (resolve_emojiName m.emoji) ?_
  change editFor "emoji-alt" .wrapElement _ _ _ = _
  rw [editFor_emoji, wrapEmoji_emojiViolation here]

/-- The fix of an emoji in a text that is cut where the report shows it. -/
theorem fixOne?_emojiViolation {g after : SourceFile} {m : EmojiMatch} {base : Nat}
    {front rest : String} (place : charOffset base text m.start = (utf8 front).length)
    (parts : g.text = front ++ (shown m).emoji ++ rest)
    (parsed : SourceFile.parseWith parser g.path (front ++ spanned m ++ rest) = some after) :
    fixOne? parser g (emojiViolation f base text m) = .ok (some after) := by
  have here : utf8 (shown m).emoji <+: g.bytes.drop (charOffset base text m.start) := by
    rw [place, g.bytes_eq, parts, utf8_append, utf8_append, List.append_assoc, List.drop_left]
    exact List.prefix_append _ _
  have spliced : decode? (Splice.replaceIn g.bytes (spanSplice base text m)) =
      some (front ++ spanned m ++ rest) := by
    rw [spanSplice, place, g.bytes_eq, parts, replaceIn_append, decode?_utf8]
  have given : (emojiViolation f base text m).fix =
      some ⟨.wrapElement, .literal (emojiName m.emoji), none⟩ := rfl
  exact fixOne?_singleton _ _ _ given (resolve_emojiName m.emoji) (wrapEmoji_emojiViolation here)
    spliced parsed

/-- The spans of the emoji behind an emoji leave its bytes where they are. -/
theorem prefix_of_wrapping {base : Nat} {m : EmojiMatch} {bytes behind : List UInt8}
    (lined : Lined text k ((m :: ms).map shown)) (read : bytes.drop base = utf8 text ++ behind) :
    utf8 (shown m).emoji <+:
      ((ms.map (spanSplice base text)).reverse.foldl Splice.replaceIn bytes).drop
        (charOffset base text m.start) := by
  have front : (shown m).emoji.toList <+: text.toList.drop m.start := lined.2.2.1
  have here : slice bytes (charOffset base text m.start)
      (charOffset base text (m.start + (shown m).emoji.length)) = utf8 (shown m).emoji := by
    rw [slice_charOffset read, ← String.length_toList, ← List.prefix_iff_eq_take.mp front,
      String.ofList_toList]
  rw [← here]
  refine List.IsPrefix.drop (Splice.take_prefix_foldl fun s mem => ?_) _
  obtain ⟨next, later, rfl⟩ := List.mem_map.mp (List.mem_reverse.mp mem)
  have apart := charOffset_le_of_lined base lined (List.mem_map_of_mem later)
  rw [charOffset_add base front]
  exact apart

/-- The last fix of a run that carries out all of its fixes. -/
theorem exists_last_fix {p q : Progress} {vs : List Violation} {v : Violation}
    (run : (vs ++ [v]).foldlM (advance parser) p = .ok q)
    (all : q.applied.length = p.applied.length + vs.length + 1) :
    ∃ mid, vs.foldlM (advance parser) p = .ok mid ∧
      mid.applied.length = p.applied.length + vs.length ∧
      fixOne? parser mid.file v = .ok (some q.file) := by
  rw [List.foldlM_append] at run
  cases before : vs.foldlM (advance parser) p with
  | error e =>
    rw [before] at run
    cases run
  | ok mid =>
    rw [before] at run
    have last : (advance parser mid v >>= pure) = .ok q := run
    rw [bind_pure] at last
    obtain ⟨done, sub, replayed⟩ := foldlM_replayed before
    have listed := congrArg List.length replayed.applied
    have few := sub.length_le
    rw [List.length_append] at listed
    rcases advance_cases last with ⟨-, rfl⟩ | ⟨file, fixed, rfl⟩
    · omega
    · rw [List.length_append, List.length_singleton] at all
      exact ⟨mid, rfl, by omega, fixed⟩

/-- A run that carries out the fixes of all emoji of a text makes the splice of each of them as if
it were the only one. -/
theorem bytes_of_wrapping {base : Nat} {behind : List UInt8} {p q : Progress}
    (lined : Lined text k (ms.map shown))
    (read : p.file.bytes.drop base = utf8 text ++ behind)
    (run : (emojiReports f base text ms).reverse.foldlM (advance parser) p = .ok q)
    (all : q.applied.length = p.applied.length + ms.length) :
    q.file.bytes =
      (ms.map (spanSplice base text)).reverse.foldl Splice.replaceIn p.file.bytes := by
  induction ms generalizing k q with
  | nil =>
    cases run
    rfl
  | cons m rest ih =>
    have length : (emojiReports f base text rest).reverse.length = rest.length := by
      rw [List.length_reverse, emojiReports, List.length_map]
    rw [emojiReports, List.map_cons, List.reverse_cons, ← emojiReports] at run
    obtain ⟨mid, before, whole, fixed⟩ := exists_last_fix run (by rwa [length])
    have after := ih lined.2.2.2 before (by rwa [length] at whole)
    have stands := prefix_of_wrapping lined read
    rw [← after] at stands
    rw [bytes_of_fixOne? fixed, splicesFor_emojiViolation stands, after, List.map_cons,
      List.reverse_cons, List.foldl_append]

/-! ### Texts with all their emoji in spans -/

/-- The text with each emoji in a span of its own, as far as it is shown. -/
def wrapped (text : String) : String :=
  woven (stretches text ((findEmoji text).map shown)) ((findEmoji text).map spanned)

/-- A run that carries out the fixes of all emoji of a text changes the file there alone. -/
theorem text_of_wrapping {front back : String} {p q : Progress}
    (parts : p.file.text = front ++ text ++ back)
    (run : (emojiReports f (utf8 front).length text (findEmoji text)).reverse.foldlM
      (advance parser) p = .ok q)
    (all : q.applied.length = p.applied.length + (findEmoji text).length) :
    q.file.text = front ++ wrapped text ++ back := by
  have bytes : p.file.bytes = utf8 front ++ (utf8 text ++ utf8 back) := by
    rw [p.file.bytes_eq, parts, utf8_append, utf8_append, List.append_assoc]
  have read : p.file.bytes.drop (utf8 front).length = utf8 text ++ utf8 back := by
    rw [bytes, List.drop_left]
  have lined := (lined_findEmoji text).shown
  have inside : (utf8 front).length + (utf8 text).length ≤ p.file.bytes.length := by
    rw [bytes, List.length_append, List.length_append]
    omega
  have apart := disjoint_spanSplices lined inside
  have carved := weave_spanSplices lined read
  rw [charOffset_zero] at apart carved
  refine utf8_injective ?_
  rw [← q.file.bytes_eq, bytes_of_wrapping lined read run all,
    Splice.foldl_reverse_eq_weave apart, carved, bytes, List.take_left, utf8_append, utf8_append,
    List.append_assoc]
  rfl

theorem apply_emojiReports {front back after : String} {applied : List Violation}
    (parts : f.text = front ++ text ++ back)
    (run : apply parser f (emojiReports f (utf8 front).length text (findEmoji text)) =
      .ok (after, applied))
    (all : applied.length = (findEmoji text).length) : after = front ++ wrapped text ++ back := by
  obtain ⟨sub, file, rfl, replayed⟩ := apply_eq_ok run
  rw [processingOrder_emojiReports _ (lined_findEmoji text)] at sub
  have whole := sub.eq_of_length (by rw [all, List.length_reverse, emojiReports, List.length_map])
  have again := replayed.replay
  rw [whole] at again all
  exact text_of_wrapping (p := ⟨f, []⟩) parts again (by simpa using all)

/-! ### What is reported, and what is left to report -/

/-- The texts of a file that stand in no labelled span. -/
def openTexts (f : SourceFile) : List Syntax.Site :=
  (f.site.descendantsWhere (· = .jsxText)).filter (!isLabelledSpan f ·)

/-- The rule takes each text outside of labelled spans apart into its emoji, which it reports one by
one and anchors where their bytes stand, and into stretches that hold no emoji. A run that carries
out the fixes of all emoji of a text puts each into its span, as far as its report shows it, and
leaves what is in between: the stretches, if no emoji is too long to be shown as a whole. There is
nothing to report in a file in which no other texts are left outside of labelled spans. -/
theorem emojiAlt_carved (settings : RuleSettings) (f : SourceFile) :
    emojiAlt.scan settings f = (openTexts f).flatMap (fun s =>
      emojiReports f s.node.start (f.nodeText s.node) (findEmoji (f.nodeText s.node))) ∧
    (∀ s ∈ openTexts f, ∀ text, f.nodeText s.node = text →
      Carved text (findEmoji text) ∧
      (∀ m ∈ findEmoji text, ∃ offset, (emojiViolation f s.node.start text m).anchor = some offset ∧
        slice f.bytes offset (offset + (utf8 m.emoji).length) = utf8 m.emoji) ∧
      (text ≠ "" → ∃ front back, f.text = front ++ text ++ back ∧
        (utf8 front).length = s.node.start ∧
        ∀ (parser : TreeParser) (after : String) (applied : List Violation),
          apply parser f (emojiReports f s.node.start text (findEmoji text)) =
            .ok (after, applied) →
          applied.length = (findEmoji text).length →
          after = front ++ wrapped text ++ back) ∧
      ((∀ m ∈ findEmoji text, m.emoji.length ≤ Violation.elementLimit) →
        (findEmoji text).map shown = findEmoji text)) ∧
    ∀ g, (∀ s ∈ openTexts g, ∃ t ∈ openTexts f,
        g.nodeText s.node ∈ stretches (f.nodeText t.node) (findEmoji (f.nodeText t.node))) →
      ∀ settings', emojiAlt.scan settings' g = [] := by
  refine ⟨rfl, ?_, ?_⟩
  · rintro s - text rfl
    refine ⟨carved_findEmoji _, fun m found => ⟨_, rfl, ?_⟩, fun filled => ?_,
      map_shown_of_short⟩
    · exact (slice_of_prefix_nodeText (nodeText_ne_of_mem_findEmoji found)
        (prefix_of_mem_findEmoji found)).2
    · have whole := (slice_of_prefix_nodeText (k := 0) filled List.prefix_rfl).2
      rw [← charOffset, charOffset_zero, f.bytes_eq] at whole
      obtain ⟨front, back, parts, place⟩ := exists_append_of_slice filled whole
      refine ⟨front, back, parts, place, fun parser after applied run all => ?_⟩
      rw [← place] at run
      exact apply_emojiReports parts run all
  · intro g left settings'
    refine List.flatMap_eq_nil_iff.mpr fun s mem => ?_
    obtain ⟨t, -, stretch⟩ := left s mem
    have plain := (carved_findEmoji _).plain _ stretch
    simp only [plain, List.map_nil]

/-- A text with a rocket and a joined emoji with a skin tone. -/
def launchText : String := "Go 🚀, 👩🏽‍🚀!"

/-- The page of the text with both emoji in spans. -/
def launchAfter : String :=
  "<p>Go <span role=\"img\" aria-label=\"rocket\">🚀</span>, " ++
    "<span role=\"img\" aria-label=\"emoji\">👩🏽‍🚀</span>!</p>"

/-- What is found of the text, with no emoji in a span, with the second one, and with both. -/
theorem launch_found :
    findEmoji launchText = [⟨"🚀", 3⟩, ⟨"👩🏽‍🚀", 6⟩] ∧ launchText ≠ "" ∧
    ∃ f ∈ SourceFile.parse "a.tsx" ("<p>" ++ launchText ++ "</p>"), ∃ s ∈ openTexts f,
      f.nodeText s.node = launchText ∧
      charOffset s.node.start launchText 6 = (utf8 "<p>Go 🚀, ").length ∧
      f.text = "<p>Go 🚀, " ++ (shown ⟨"👩🏽‍🚀", 6⟩).emoji ++ "!</p>" ∧
      ∃ mid ∈ SourceFile.parse f.path ("<p>Go 🚀, " ++ spanned ⟨"👩🏽‍🚀", 6⟩ ++ "!</p>"),
      charOffset s.node.start launchText 3 = (utf8 "<p>Go ").length ∧
      mid.text = "<p>Go " ++ (shown ⟨"🚀", 3⟩).emoji ++
        (", " ++ spanned ⟨"👩🏽‍🚀", 6⟩ ++ "!</p>") ∧
      ∃ g ∈ SourceFile.parse mid.path ("<p>Go " ++ spanned ⟨"🚀", 3⟩ ++
        (", " ++ spanned ⟨"👩🏽‍🚀", 6⟩ ++ "!</p>")),
        g.text = launchAfter ∧ ∀ s ∈ openTexts g, ∃ t ∈ openTexts f,
          g.nodeText s.node ∈ stretches (f.nodeText t.node) (findEmoji (f.nodeText t.node)) := by
  decide +kernel

/-- A rocket and a joined emoji with a skin tone, each of which goes into its span. -/
theorem emojiAlt_carved_launch :
    ∃ f ∈ SourceFile.parse "a.tsx" ("<p>" ++ launchText ++ "</p>"),
      ∃ g ∈ SourceFile.parse "a.tsx" launchAfter, ∃ s ∈ openTexts f,
        f.nodeText s.node = launchText ∧ launchText ≠ "" ∧
        findEmoji launchText = [⟨"🚀", 3⟩, ⟨"👩🏽‍🚀", 6⟩] ∧
        Carved launchText (findEmoji launchText) ∧
        (findEmoji launchText).map shown = findEmoji launchText ∧
        (∃ applied, apply Syntax.parse f (emojiReports f s.node.start launchText
          (findEmoji launchText)) = .ok (launchAfter, applied) ∧
          applied.length = (findEmoji launchText).length) ∧
        (∃ front back, f.text = front ++ launchText ++ back ∧
          launchAfter = front ++ wrapped launchText ++ back) ∧
        (∀ s ∈ openTexts g, ∃ t ∈ openTexts f,
          g.nodeText s.node ∈ stretches (f.nodeText t.node) (findEmoji (f.nodeText t.node))) ∧
        emojiAlt.scan {} g = [] := by
  obtain ⟨found, filled, f, read, s, mem, stands, place, cut, mid, parsed, place', cut', g, parsed',
    ends, left⟩ := launch_found
  have first := fixOne?_emojiViolation (f := f) (m := ⟨"👩🏽‍🚀", 6⟩) place cut parsed
  have second := fixOne?_emojiViolation (f := f) (m := ⟨"🚀", 3⟩) place' cut' parsed'
  have order := processingOrder_emojiReports (f := f) s.node.start (lined_findEmoji launchText)
  rw [found] at order
  have ended := apply_pair order first second
  rw [ends, ← found] at ended
  have read' : g ∈ SourceFile.parse "a.tsx" launchAfter := by
    rw [← ends, (parseWith_eq_some parsed').2.2, ← (parseWith_eq_some read).2.1,
      ← (parseWith_eq_some parsed).2.1]
    exact parsed'
  have short : ∀ m ∈ findEmoji launchText, m.emoji.length ≤ Violation.elementLimit := by
    rw [found]
    decide
  obtain ⟨-, texts, rest⟩ := emojiAlt_carved {} f
  obtain ⟨carved, -, spans, whole⟩ := texts s mem launchText stands
  obtain ⟨front, back, parts, -, run⟩ := spans filled
  have count : [emojiViolation f s.node.start launchText ⟨"👩🏽‍🚀", 6⟩,
      emojiViolation f s.node.start launchText ⟨"🚀", 3⟩].length =
        (findEmoji launchText).length := by
    rw [found]
    rfl
  exact ⟨f, read, g, read', s, mem, stands, filled, found, carved, whole short,
    ⟨_, ended, count⟩, ⟨front, back, parts, run _ _ _ ended count⟩, left, rest g left {}⟩

/-- 41 rockets, joined to one emoji. -/
def rocketChars : List Char :=
  (List.replicate 41 '🚀').intersperse (Char.ofNat 0x200D)

/-- The file of some characters. Its bytes are made of the characters themselves, and not of those of
a string, so that they can be computed. -/
def fileOfChars? (path : String) (cs : List Char) : Option SourceFile :=
  (Syntax.parseChars cs).map fun root =>
    { path, root, text := String.ofList cs, bytes := cs.flatMap String.utf8EncodeChar
      bytes_eq := by simp [utf8] }

theorem fileOfChars?_eq (path : String) (cs : List Char) :
    fileOfChars? path cs = SourceFile.parse path (String.ofList cs) := by
  unfold fileOfChars? SourceFile.parse SourceFile.parseWith Syntax.parse
  rw [String.toList_ofList]
  cases Syntax.parseChars cs with
  | none => rfl
  | some root => simp [utf8]

/-- What is found of the rockets before and after the fix. -/
theorem rockets_found :
    emojiFrom 0 0 rocketChars = [⟨String.ofList rocketChars, 0⟩] ∧
    rocketChars = rocketChars.take Violation.elementLimit ++ ['🚀'] ∧
    (rocketChars.flatMap String.utf8EncodeChar).length = 284 ∧
    emojiNames.lookup (rocketChars.map Char.toNat) = none ∧
    (∃ f ∈ fileOfChars? "a.tsx" ("<p>".toList ++ rocketChars ++ "</p>".toList),
      (openTexts f).map (fun s => (s.node.start, s.node.stop)) = [(3, 287)]) ∧
    ∃ g ∈ fileOfChars? "a.tsx" ("<p>".toList ++ (spanOpening "emoji").toList ++
        rocketChars.take Violation.elementLimit ++ spanClosing.toList ++
          ("🚀".toList ++ "</p>".toList)),
      ∃ w ∈ emojiAlt.scan {} g, w.element = "🚀" := by
  decide +kernel

/-- What is reported of a file with one text, and one emoji in it. -/
theorem scan_of_alone (settings : RuleSettings) {s : Syntax.Site} {text : String} {m : EmojiMatch}
    (alone : openTexts f = [s]) (stands : f.nodeText s.node = text) (emoji : findEmoji text = [m]) :
    emojiAlt.scan settings f = [emojiViolation f s.node.start text m] := by
  change (openTexts f).flatMap (fun s =>
    emojiReports f s.node.start (f.nodeText s.node) (findEmoji (f.nodeText s.node))) = _
  rw [alone, List.flatMap_singleton, stands, emoji]
  rfl

/-- A node over a part of the text has the part as its text. -/
theorem nodeText_of_parts {n : Syntax.Node} {front part back : String}
    (parts : f.text = front ++ part ++ back) (start : n.start = (utf8 front).length)
    (stop : n.stop = n.start + (utf8 part).length) : f.nodeText n = part := by
  have here : slice f.bytes n.start (n.start + (utf8 part).length) = utf8 part := by
    refine slice_of_prefix ?_
    rw [start, f.bytes_eq, parts, utf8_append, utf8_append, List.append_assoc, List.drop_left]
    exact List.prefix_append _ _
  rw [SourceFile.nodeText, SourceFile.textBetween, stop, here, decode?_utf8]
  rfl

/-- Of 41 joined rockets, which are one emoji, the report shows 80 characters. So the last rocket is
left outside of the span, and it is reported again. -/
theorem emojiAlt_cuts_rockets :
    let text := String.ofList rocketChars
    text.length = 81 ∧ findEmoji text = [⟨text, 0⟩] ∧
      ∃ f ∈ SourceFile.parse "a.tsx" ("<p>" ++ text ++ "</p>"),
        (∃ v, emojiAlt.scan {} f = [v] ∧ v.fix.isSome) ∧
        ∃ after, apply Syntax.parse f (emojiAlt.scan {} f) = .ok (after, emojiAlt.scan {} f) ∧
          ∃ g ∈ SourceFile.parse "a.tsx" after, ∃ w ∈ emojiAlt.scan {} g, w.element = "🚀" := by
  obtain ⟨found, cut, size, unnamed, ⟨f, read, texts⟩, g, parsed, again⟩ := rockets_found
  intro text
  let m : EmojiMatch := ⟨text, 0⟩
  have emoji : findEmoji text = [m] := by
    rw [findEmoji, String.toList_ofList]
    exact found
  have shows : (shown m).emoji = String.ofList (rocketChars.take Violation.elementLimit) := by
    rw [shown, takeChars, String.toList_ofList]
  have last : text = (shown m).emoji ++ "🚀" := by
    rw [shows]
    exact (congrArg String.ofList cut).trans String.ofList_append
  rw [fileOfChars?_eq, String.ofList_append, String.ofList_append, String.ofList_toList,
    String.ofList_toList] at read
  obtain ⟨-, path, whole⟩ := parseWith_eq_some read
  have base : (utf8 "<p>").length = 3 := by decide +kernel
  obtain ⟨s, alone, place⟩ := List.map_eq_singleton_iff.mp texts
  obtain ⟨start, stop⟩ := Prod.mk.inj place
  have stands : f.nodeText s.node = text := by
    refine nodeText_of_parts whole (start.trans base.symm) ?_
    rw [stop, start, utf8, String.toList_ofList, size]
  have one : emojiAlt.scan {} f = [emojiViolation f 3 text m] :=
    start ▸ scan_of_alone {} alone stands emoji
  have reads : g ∈ SourceFile.parse f.path ("<p>" ++ spanned m ++ ("🚀" ++ "</p>")) := by
    have name : emojiName text = "emoji" := by
      rw [emojiName, String.toList_ofList, unnamed]
      rfl
    rw [fileOfChars?_eq] at parsed
    simp only [String.ofList_append, String.ofList_toList] at parsed
    rw [path, spanned, name, shows]
    simpa only [String.append_assoc] using parsed
  have parts : f.text = "<p>" ++ (shown m).emoji ++ ("🚀" ++ "</p>") := by
    have joined : (shown m).emoji ++ ("🚀" ++ "</p>") = text ++ "</p>" := by
      rw [← String.append_assoc, ← last]
    rw [whole, String.append_assoc, String.append_assoc, joined]
  have fixed := fixOne?_emojiViolation (f := f) (m := m) ((charOffset_zero 3 text).trans base.symm)
    parts reads
  have ended := apply_single fixed
  rw [← one] at ended
  refine ⟨?_, emoji, f, read, ⟨_, one, rfl⟩, _, ended, g, ?_, again⟩
  · rw [String.length_ofList]
    decide +kernel
  · rw [(parseWith_eq_some reads).2.2, ← path]
    exact reads

end JsxAudit.Repair
