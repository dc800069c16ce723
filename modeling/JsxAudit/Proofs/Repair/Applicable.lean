import JsxAudit.Proofs.Repair.Place
import JsxAudit.Proofs.Rule.Metadata

/-!
Every fix that a rule prescribes can be carried out on the file that it was prescribed for.

A rule reports a violation after it has looked at the tree, and the edit of its fix looks at the
tree again, with conditions of its own. The two agree: on the same file the edit finds something to
write, and all it writes lies on what was flagged (`inPlace_of_mem_scan`).
-/

namespace JsxAudit.Rule

open Source Syntax

variable {f : SourceFile} {n : Node}

/-- Without a title, no property of the metadata has its name. -/
theorem not_isSet_of_hasTitle (missing : hasTitle f = false) (h : metadataObject? f = some n) :
    (n.namedChildren.any fun part => part.kind = .pair && (part.child? .key).any fun key =>
      Text.trimMatching isQuote (f.nodeText key) = "title") = false := by
  rw [hasTitle, h, Option.any_some, List.any_eq_false] at missing
  rw [List.any_eq_false]
  intro part mem set
  refine missing part mem ?_
  simp only [Bool.and_eq_true, decide_eq_true_eq] at set
  rw [isTitle, set.1]
  exact set.2

end JsxAudit.Rule

namespace JsxAudit.Repair

open Source Syntax Audit Rule Text

variable {f : SourceFile} {v : Violation} {e : Element} {value : String}

/-- The bytes that a violation is about: the element it was raised on, the emoji, or the whole
module if it has no title. -/
inductive Flagged (f : SourceFile) (v : Violation) : Nat → Nat → Prop
  | element {e : Element} : RaisedOn f v e → Flagged f v e.node.start e.node.stop
  | emoji {s : Site} {start : Nat} : v.rule = "emoji-alt" → s ∈ f.site.descendants →
      s.node.kind = .jsxText → StandsAt f v s.node start →
      Flagged f v start (start + (utf8 v.element).length)
  | module : v.rule = "next-metadata-title" → v.anchor = some 0 → Flagged f v 0 f.bytes.length

/-- Splices that carry out the fix of a violation at its place: there is at least one, all are
ranges of the file on what is flagged, none before the anchor, and no two overlap. -/
structure InPlace (f : SourceFile) (v : Violation) (splices : List Splice) : Prop where
  given : splices ≠ []
  range : ∀ s ∈ splices, s.start ≤ s.stop ∧ s.stop ≤ f.bytes.length
  flagged : ∃ start stop, Flagged f v start stop ∧
    ∀ s ∈ splices, start ≤ s.start ∧ s.stop ≤ stop
  anchored : ∃ anchor, v.anchor = some anchor ∧ ∀ s ∈ splices, anchor ≤ s.start
  apart : splices.Pairwise fun a b => a.stop ≤ b.start ∨ b.stop ≤ a.start

namespace Flagged

variable {start stop : Nat}

theorem anchor (h : Flagged f v start stop) : v.anchor = some start := by
  cases h with
  | element raised => exact raised.anchor
  | emoji _ _ _ stands => exact stands.anchor
  | module _ anchor => exact anchor

theorem stop_le (program : f.IsProgram) (h : Flagged f v start stop) :
    stop ≤ f.bytes.length := by
  cases h with
  | element raised => exact program.stop_le (SourceFile.holds_of_mem_elements raised.mem)
  | emoji _ mem _ stands => exact Nat.le_trans stands.stop_le (program.stop_le ⟨_, mem, rfl⟩)
  | module => exact Nat.le_refl _

/-- Splices on what is flagged are not before the anchor, since it is the start of what is
flagged. -/
theorem inPlace (program : f.IsProgram) (h : Flagged f v start stop) {splices : List Splice}
    (given : splices ≠ [])
    (inside : ∀ s ∈ splices, start ≤ s.start ∧ s.start ≤ s.stop ∧ s.stop ≤ stop)
    (apart : splices.Pairwise fun a b => a.stop ≤ b.start ∨ b.stop ≤ a.start) :
    InPlace f v splices where
  given := given
  range s mem := ⟨(inside s mem).2.1, Nat.le_trans (inside s mem).2.2 (h.stop_le program)⟩
  flagged := ⟨start, stop, h, fun s mem => ⟨(inside s mem).1, (inside s mem).2.2⟩⟩
  anchored := ⟨start, h.anchor, fun s mem => (inside s mem).1⟩
  apart := apart

theorem inPlace_singleton (program : f.IsProgram) (h : Flagged f v start stop) {a b : Nat}
    {text : String} (first : start ≤ a) (span : a ≤ b) (last : b ≤ stop) :
    InPlace f v [⟨a, b, text⟩] := by
  refine h.inPlace program (List.cons_ne_nil _ _) ?_ (List.pairwise_singleton _ _)
  intro s mem
  rw [List.mem_singleton.mp mem]
  exact ⟨first, span, last⟩

end Flagged

/-! ### Edits of elements -/

section

variable (program : f.IsProgram) (raised : RaisedOn f v e)

include program raised

theorem element_wellFormed : e.node.WellFormed :=
  program.wellFormed (SourceFile.holds_of_mem_elements raised.mem)

theorem inPlace_insertAttr {name : String} (tagged : e.tag ≠ "")
    (attr : v.fix.bind (·.attr) = some name) (missing : e.hasAttribute name = false) :
    InPlace f v (insertAttr f v value) := by
  obtain ⟨tag, named⟩ := Element.exists_name tagged
  have within := Element.name_within (element_wellFormed program raised) named
  have span := within.span
  unfold insertAttr
  simp only [attr, element?_raised program raised tagged, named, missing, Bool.false_eq_true,
    if_false]
  exact (Flagged.element raised).inPlace_singleton program (Nat.le_trans within.start_le span)
    (Nat.le_refl _) within.stop_le

theorem inPlace_replaceAttr {name : String} (tagged : e.tag ≠ "")
    (attr : v.fix.bind (·.attr) = some name) (found : e.hasAttribute name = true) :
    InPlace f v (replaceAttr f v value) := by
  obtain ⟨old, there⟩ := Option.isSome_iff_exists.mp found
  have within := Element.attribute_within (element_wellFormed program raised) there
  unfold replaceAttr
  simp only [attr, element?_raised program raised tagged, there]
  exact (Flagged.element raised).inPlace_singleton program within.start_le within.span
    within.stop_le

/-- The element is found even if it has no tag: then the violation shows no element either. -/
theorem locate?_tabIndex (shown : v.element = takeChars Violation.elementLimit e.tag) :
    locate? f v ((expectedTag? v).or (some v.element)) = some e := by
  refine locate?_raised program raised fun tag given => ?_
  by_cases tagged : e.tag = ""
  · rw [expectedTag?, raised.tag, shown, tagged] at given
    exact (Option.some.inj given).symm.trans tagged.symm
  · rw [expectedTag?_raised raised tagged] at given
    exact (Option.some.inj given).symm

theorem inPlace_resetTabIndex {attr : Attribute} {n : Int}
    (shown : v.element = takeChars Violation.elementLimit e.tag)
    (there : e.attribute? "tabIndex" = some attr) (number : integerValue? attr = some n)
    (positive : 0 < n) : InPlace f v (resetTabIndex f v value) := by
  have outer := Element.attribute_within (element_wellFormed program raised) there
  have replaced {m : Node} {text : String} (inner : m.Within attr.node) :
      InPlace f v [⟨m.start, m.stop, text⟩] := by
    have within := outer.trans inner
    exact (Flagged.element raised).inPlace_singleton program within.start_le within.span
      within.stop_le
  unfold resetTabIndex
  simp only [locate?_tabIndex program raised shown, Option.bind_some, there, number,
    Option.any_some, positive, decide_true, if_true]
  split
  · rename_i expression braces
    exact replaced (Attribute.within_of_expression? outer.wellFormed braces)
  · rename_i node bare given
    exact replaced (Attribute.within_of_valueNode? outer.wellFormed given)
  · rename_i bare none
    -- A number was read, so there is a value.
    simp [integerValue?, bare, Attribute.stringValue?, none] at number

theorem inPlace_unwrapAnchor (tagged : e.tag ≠ "") (nested : (nestedAnchor? e).isSome) :
    InPlace f v (unwrapAnchor f v value) := by
  have shaped := element_wellFormed program raised
  obtain ⟨tag, named⟩ := Element.exists_name tagged
  obtain ⟨anchor, found⟩ := Option.isSome_iff_exists.mp nested
  have child := List.mem_of_find?_eq_some found
  have apart := Element.name_apart_of_mem_childElements shaped named child
  have opens := Element.name_within shaped named
  have inner := Node.within_of_mem_children shaped
    (Element.mem_children_of_mem_childElements child).2.1
  have tagSpan := opens.span
  have anchorSpan := inner.span
  have start := opens.start_le
  have stop := opens.stop_le
  unfold unwrapAnchor
  simp only [element?_raised program raised tagged, found, named]
  split
  · exact (Flagged.element raised).inPlace_singleton program inner.start_le anchorSpan
      inner.stop_le
  · refine (Flagged.element raised).inPlace program (List.cons_ne_nil _ _) ?_ ?_
    · intro s mem
      rcases List.mem_cons.mp mem with rfl | mem
      · exact ⟨Nat.le_trans start tagSpan, Nat.le_refl _, stop⟩
      · rw [List.mem_singleton.mp mem]
        exact ⟨inner.start_le, anchorSpan, inner.stop_le⟩
    · exact List.pairwise_pair.mpr apart

end

/-! ### Edits of other places -/

theorem inPlace_wrapEmoji {s : Site} {start : Nat} (program : f.IsProgram)
    (rule : v.rule = "emoji-alt") (mem : s ∈ f.site.descendants) (kind : s.node.kind = .jsxText)
    (h : StandsAt f v s.node start) : InPlace f v (wrapEmoji f v value) := by
  unfold wrapEmoji
  simp only [placeOf?_of_standsAt h]
  exact (Flagged.emoji rule mem kind h).inPlace_singleton program (Nat.le_refl _)
    (Nat.le_add_right _ _) (Nat.le_refl _)

theorem inPlace_insertMetadata (program : f.IsProgram) (rule : v.rule = "next-metadata-title")
    (anchor : v.anchor = some 0) (attr : v.fix.bind (·.attr) = some "title")
    (missing : hasTitle f = false) : InPlace f v (insertMetadata f v value) := by
  have only {a b : Nat} {text : String} (span : a ≤ b) (stop : b ≤ f.bytes.length) :
      InPlace f v [⟨a, b, text⟩] :=
    (Flagged.module rule anchor).inPlace_singleton program (Nat.zero_le _) span stop
  unfold insertMetadata
  rw [attr]
  dsimp only
  cases found : metadataObject? f with
  | some metadata =>
    obtain ⟨⟨s, mem, rfl⟩, object⟩ := holds_of_metadataObject? found
    have braces := program.braced s mem object
    have stop := program.stop_le ⟨s, mem, rfl⟩
    dsimp only
    rw [not_isSet_of_hasTitle missing found, if_neg Bool.false_ne_true]
    split
    · exact only (by omega) (by omega)
    · exact only (Nat.le_refl _) (by omega)
  | none =>
    dsimp only
    split
    · rename_i last imported
      have stop := program.stop_le (SourceFile.holds_of_lastImport? imported)
      exact only (Nat.le_refl _) stop
    · exact only (Nat.le_refl _) (Nat.zero_le _)

/-! ### All rules -/

/-- The edit of a prescribed fix writes in place, whatever the text of the fix is. -/
theorem inPlace_of_prescribed {fix : Fix} (program : f.IsProgram) (given : v.fix = some fix)
    (prescribed : Prescribed f v fix) (value : String) :
    InPlace f v (editFor v.rule fix.type f v value) := by
  have attr : v.fix.bind (·.attr) = fix.attr := by rw [given, Option.bind_some]
  cases prescribed with
  | insertion general raised tagged label missing =>
    rw [editFor_insertAttr general]
    exact inPlace_insertAttr program raised tagged attr missing
  | replacement general raised tagged label found =>
    rw [editFor_replaceAttr general]
    exact inPlace_replaceAttr program raised tagged attr found
  | tabIndex rule raised shown there number positive =>
    rw [rule, editFor_tabIndex]
    exact inPlace_resetTabIndex program raised shown there number positive
  | nestedAnchor rule raised imported nested =>
    rw [rule, editFor_nestedAnchor]
    have tagged := SourceFile.localDefault?_ne program (by decide) imported
    exact inPlace_unwrapAnchor program raised tagged nested
  | emoji text found eq =>
    obtain ⟨mem, kind⟩ := List.mem_filter.mp text
    have rule : v.rule = "emoji-alt" := eq ▸ rfl
    obtain ⟨start, stands⟩ := exists_standsAt found
    rw [rule, editFor_emoji]
    exact inPlace_wrapEmoji program rule mem (by simpa using kind) (eq ▸ stands)
  | title rule anchor missing =>
    rw [rule, editFor_title]
    exact inPlace_insertMetadata program rule anchor attr missing

/-- Every fix that a rule reports can be carried out on the file it is reported for: whatever text
it writes, its edit finds a place for it on what is flagged. -/
theorem inPlace_of_mem_scan {r : Rule} {settings : RuleSettings} {fix : Fix}
    (program : f.IsProgram) (known : r ∈ Rule.all) (h : v ∈ r.scan settings f)
    (given : v.fix = some fix) (value : String) :
    InPlace f v (editFor v.rule fix.type f v value) :=
  inPlace_of_prescribed program given ((reports_of_mem_scan known h).prescribed fix given) value

/-- The nested anchor of a link can be unwrapped. -/
theorem inPlace_of_mem_scan_link :
    ∃ f ∈ SourceFile.parse "a.tsx"
        "import Link from \"next/link\"; <Link><a id=\"x\">Go</a></Link>;",
      ∃ v ∈ nestedAnchor.scan {} f, ∃ fix, f.IsProgram ∧ v.fix = some fix ∧
        InPlace f v (editFor v.rule fix.type f v "") := by
  have reported : ∃ f ∈ SourceFile.parse "a.tsx"
        "import Link from \"next/link\"; <Link><a id=\"x\">Go</a></Link>;",
      f.IsProgram ∧ ∃ v ∈ nestedAnchor.scan {} f, v.fix.isSome := by
    decide +kernel
  obtain ⟨f, parsed, program, v, mem, given⟩ := reported
  obtain ⟨fix, given⟩ := Option.isSome_iff_exists.mp given
  have known : nestedAnchor ∈ Rule.all := by simp [Rule.all]
  exact ⟨f, parsed, v, mem, fix, program, given, inPlace_of_mem_scan program known mem given ""⟩

end JsxAudit.Repair
