import JsxAudit.Proofs.Label.Spoken
import JsxAudit.Proofs.Repair.Attribute
import JsxAudit.Proofs.Repair.Place

/-!
What repeated controls are called before and after their labels name the item.

The label that is written names what stands in the source of the old one, and then the item
(`readLabel?_wrap`). So the old label is kept if and only if it says what stands in its source:
`isVerbatim_iff`. A quoted text with character references does not, and neither does a string or a
template with a backslash.
-/

namespace JsxAudit.Rule

open Source Audit Label Repair Text

/-! ### Literal attributes -/

/-- What an attribute says that is set to a literal: a quoted text with its character references
decoded, or a string or template with its escapes decoded. -/
def spoken? (referent? : Referents) (attr : Attribute) : Option (List Nat) :=
  attr.stringValue?.bind fun written =>
    if attr.isString then some (unitsOf (decode referent? written.toList))
    else LoopVariable.cooked? written.toList

/-- The attribute says what is written in it: the character references of a quoted text change
nothing but its ends of lines, and there is no backslash in a string or template. -/
def IsVerbatim (referent? : Referents) (attr : Attribute) (written : String) : Prop :=
  if attr.isString then decode referent? written.toList = lineFeedChars written.toList
  else '\\' ∉ written.toList

variable {f : SourceFile} {v : Violation} {e : Element} {kind : ControlKind}
  {settings : RuleSettings} {attr : Attribute} {written item : String} {referent? : Referents}
  {old units : List Nat}

/-- A literal attribute says what is written in it if its text reads that way. -/
theorem isVerbatim_iff (literal : attr.stringValue? = some written)
    (said : spoken? referent? attr = some old) :
    old = unitsOf (lineFeedChars written.toList) ↔ IsVerbatim referent? attr written := by
  rw [spoken?, literal, Option.bind_some] at said
  unfold IsVerbatim
  split at said
  · rename_i quoted
    rw [if_pos quoted, ← Option.some.inj said]
    exact ⟨LoopVariable.unitsOf_injective, congrArg unitsOf⟩
  · rename_i quoted
    rw [if_neg quoted]
    exact LoopVariable.cooked?_eq_iff said

/-! ### Labels that name the item -/

/-- A label that is made to name the item is set to a literal, and the item has a name in the
control. -/
theorem nameItem?_eq_some {rule : String} (h : nameItem? rule e = some v) :
    ∃ attr written item, e.attribute? "aria-label" = some attr ∧
      attr.stringValue? = some written ∧ LoopVariable.find? e true = some item ∧
      v = violationAt rule e "Use variable in aria-label for better screen reader context"
        (some ⟨.replaceAttr, .literal (LoopVariable.wrap written item), some "aria-label"⟩)
        none := by
  unfold nameItem? at h
  simp only [Option.bind_eq_bind, Option.bind_eq_some_iff] at h
  obtain ⟨written, filled, item, found, eq⟩ := h
  have literal := (Option.filter_eq_some_iff.mp filled).1
  obtain ⟨attr, given, literal⟩ := Option.bind_eq_some_iff.mp literal
  exact ⟨attr, written, item, given, literal, found, (Option.some.inj eq).symm⟩

/-- An attribute is replaced on a control only to make its label name the item. -/
theorem nameItem?_of_mem_scanControls (h : v ∈ scanControls kind settings f)
    (relabels : v.fix.map (·.type) = some .replaceAttr) :
    ∃ e ∈ f.elements, e.tag ∈ kind.tags f ∧ nameItem? kind.rule e = some v := by
  obtain ⟨e, mem, found⟩ := List.mem_filterMap.mp h
  obtain ⟨mem, tag⟩ := mem_elementsTagged.mp mem
  refine ⟨e, mem, tag, ?_⟩
  unfold checkControl at found
  split at found
  · cases found
  · split at found
    · exact found
    · split at found
      · cases found
      · obtain rfl := Option.some.inj found
        cases relabels

/-- What buttons and links have in common: their fixes are not carried out in a way of their own,
and their tags have names. -/
theorem named_of_mem_kinds (known : kind ∈ [buttons, links]) :
    kind.rule ∉ ownEdits ∧ ∀ tag ∈ kind.tags f, tag ≠ "" := by
  simp only [List.mem_cons, List.not_mem_nil, or_false] at known
  rcases known with rfl | rfl
  · refine ⟨by decide, fun tag mem => ?_⟩
    rw [List.mem_singleton.mp mem]
    decide
  · exact ⟨by decide, fun tag mem => mem_tagsWith (by decide) mem⟩

/-- A label of a repeated control that is made to name the item is replaced as a whole. The new one
says what is written in the source of the old one, then a space, then what the item says. So it says
what the old one did and then the item if and only if the old one said what is written in it. -/
theorem readLabel?_relabelled (program : f.IsProgram) (known : kind ∈ [buttons, links])
    (reported : v ∈ scanControls kind settings f)
    (relabels : v.fix.map (·.type) = some .replaceAttr) :
    ∃ e ∈ f.elements, RaisedOn f v e ∧ ∃ attr written item,
      e.attribute? "aria-label" = some attr ∧ attr.stringValue? = some written ∧
      LoopVariable.find? e true = some item ∧
      ∃ label, v.fix = some ⟨.replaceAttr, .literal label, some "aria-label"⟩ ∧
        editFor v.rule .replaceAttr f v label =
          [⟨attr.node.start, attr.node.stop, attributeText "aria-label" label⟩] ∧
        (LoopVariable.IsUnmarked item.toList → ∀ item? units, item? item.toList = some units →
          ∃ new, (∀ rest, LoopVariable.readLabel? item? "aria-label"
              ((attributeText "aria-label" label).toList ++ rest) = some (new, rest)) ∧
            ∀ referent? old, spoken? referent? attr = some old →
              (new = old ++ unitsOf [' '] ++ units ↔ IsVerbatim referent? attr written)) := by
  obtain ⟨e, mem, tag, named⟩ := nameItem?_of_mem_scanControls reported relabels
  obtain ⟨attr, written, item, given, literal, found, rfl⟩ := nameItem?_eq_some named
  obtain ⟨general, tagged⟩ := named_of_mem_kinds (f := f) known
  have raised (message : String) (fix : Option Fix) :
      RaisedOn f (violationAt kind.rule e message fix none) e := raisedOn_violationAt mem
  refine ⟨e, mem, raised _ _, attr, written, item, given, literal, found, _, rfl, ?_, ?_⟩
  · rw [show (violationAt kind.rule e _ _ none).rule = kind.rule from rfl,
      editFor_replaceAttr general]
    unfold replaceAttr
    rw [element?_raised program (raised _ _) (tagged _ tag)]
    simp only [violationAt, Violation.cut, Option.bind_some, given,
      Element.name_of_attribute? given]
  · intro unmarked item? units spoken
    refine ⟨_, LoopVariable.readLabel?_wrap unmarked spoken "aria-label", ?_⟩
    intro referent? old said
    rw [unitsOf_append, List.append_cancel_right_eq, List.append_cancel_right_eq,
      eq_comm, isVerbatim_iff literal said]

/-- A label with a character reference, which the new one takes for what is written. -/
theorem readLabel?_relabelled_reference :
    let referent? : Referents := fun inside => [("amp", ['&'])].lookup (String.ofList inside)
    let item? : List Char → Option (List Nat) := fun source =>
      [("x.name", unitsOf "Ann".toList)].lookup (String.ofList source)
    ∃ f ∈ SourceFile.parse "a.tsx"
        ("export default (\x7b xs \x7d) => xs.map((x) => " ++
          "<button aria-label=\"Tom &amp; Jerry\">\x7bx.name\x7d</button>);"),
      ∃ v ∈ scanControls buttons {} f, f.IsProgram ∧ buttons ∈ [buttons, links] ∧
        v.fix.map (·.type) = some .replaceAttr ∧
        ∃ label new old, v.fix = some ⟨.replaceAttr, .literal label, some "aria-label"⟩ ∧
          (∀ rest, LoopVariable.readLabel? item? "aria-label"
            ((attributeText "aria-label" label).toList ++ rest) = some (new, rest)) ∧
          (∃ e ∈ f.elements, ∃ attr, e.attribute? "aria-label" = some attr ∧
            spoken? referent? attr = some old) ∧
          new ≠ old ++ unitsOf [' '] ++ unitsOf "Ann".toList := by
  intro referent? item?
  have found : ∃ f ∈ SourceFile.parse "a.tsx"
        ("export default (\x7b xs \x7d) => xs.map((x) => " ++
          "<button aria-label=\"Tom &amp; Jerry\">\x7bx.name\x7d</button>);"),
      ∃ v ∈ scanControls buttons {} f, f.IsProgram ∧ v.fix.map (·.type) = some .replaceAttr ∧
        ∀ e ∈ f.elements, (∀ item ∈ LoopVariable.find? e true, item = "x.name") ∧
          ∀ attr ∈ e.attribute? "aria-label", attr.isString = true ∧
          ∀ written ∈ attr.stringValue?, written = "Tom &amp; Jerry" := by
    decide +kernel
  obtain ⟨f, parsed, v, reported, program, relabels, facts⟩ := found
  have known : buttons ∈ [buttons, links] := List.mem_cons_self
  obtain ⟨e, mem, -, attr, written, item, given, literal, named, label, fix, -, reads⟩ :=
    readLabel?_relabelled program known reported relabels
  obtain ⟨isItem, isAttr⟩ := facts e mem
  obtain rfl := isItem item named
  obtain ⟨quoted, isWritten⟩ := isAttr attr given
  obtain rfl := isWritten written literal
  have unmarked : LoopVariable.IsUnmarked "x.name".toList :=
    LoopVariable.isUnmarked_of_all (by decide)
  have spoken : item? "x.name".toList = some (unitsOf "Ann".toList) := by decide +kernel
  obtain ⟨new, read, kept⟩ := reads unmarked item? _ spoken
  have said : spoken? referent? attr =
      some (unitsOf (decode referent? "Tom &amp; Jerry".toList)) := by
    rw [spoken?, literal, Option.bind_some, if_pos quoted]
  have apart : ¬ IsVerbatim referent? attr "Tom &amp; Jerry" := by
    unfold IsVerbatim
    rw [if_pos quoted]
    decide +kernel
  exact ⟨f, parsed, v, reported, program, known, relabels, label, new, _, fix, read,
    ⟨e, mem, attr, given, said⟩, fun same => apart ((kept referent? _ said).mp same)⟩

end JsxAudit.Rule
