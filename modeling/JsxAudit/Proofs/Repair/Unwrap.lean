import JsxAudit.Proofs.Repair.Place
import JsxAudit.Proofs.Repair.Replay
import Mathlib.Data.List.Basic

/-!
Nested anchors unwrapped.

Nodes of a program begin and end where its text can be cut (`IsProgram.isCut`), so that what the
edit takes out of the text is what stands there. The text that is written has the attributes of the
anchor behind the name of the link, what stands between the tags of the anchor in its place, and is
otherwise the same: `fixOne?_nestedAnchor`. Of the attributes, spreads do not move.
-/

namespace JsxAudit.Source

open Syntax Text

/-! ### Cutting out nodes -/

namespace SourceFile

variable {f : SourceFile} {n c : Node} {start stop : Nat}

namespace IsProgram

variable (program : f.IsProgram)

include program

theorem start_lt_stop (h : f.Holds n) : n.start < n.stop := by
  have given := program.nodeText_ne h
  exact lt_of_utf8_eq_slice given (utf8_textBetween given)

/-- A node begins and ends where the text can be cut. -/
theorem isCut (h : f.Holds n) : IsCut f.text n.start ∧ IsCut f.text n.stop := by
  have given := program.nodeText_ne h
  have bytes := utf8_textBetween given
  have inside := program.stop_le h
  rw [f.bytes_eq] at bytes inside
  exact isCut_of_utf8_eq_slice given inside bytes

/-- The text of a node has the bytes of its range. -/
theorem utf8_nodeText (h : f.Holds n) : utf8 (f.nodeText n) = slice f.bytes n.start n.stop :=
  utf8_textBetween (program.nodeText_ne h)

end IsProgram

theorem isText_slice (le : start ≤ stop) (inside : stop ≤ f.bytes.length)
    (left : IsCut f.text start) (right : IsCut f.text stop) :
    IsText (slice f.bytes start stop) := by
  rw [f.bytes_eq] at inside ⊢
  exact (isText_slice_iff le inside).mpr (.inr ⟨left, right⟩)

theorem utf8_textBetween_of_isText (h : IsText (slice f.bytes start stop)) :
    utf8 (f.textBetween start stop) = slice f.bytes start stop := by
  obtain ⟨t, eq⟩ := h
  rw [textBetween, ← eq, decode?_utf8, Option.getD_some]

end SourceFile

/-! ### Tags -/

namespace Element

variable {f : SourceFile} {e inner : Element} {n c : Node}

/-- The element is closed in itself, or it begins with its opening tag, in which something stands
behind the name, and ends with its closing tag. -/
def isTagged (e : Element) : Bool :=
  e.isSelfClosing ||
    match e.node.child? .openTag, e.node.child? .closeTag with
    | some opening, some closing =>
      opening.start = e.node.start && closing.stop = e.node.stop &&
        (opening.child? .name).all (·.stop < opening.stop)
    | _, _ => false

/-- The two tags of an element. -/
structure Tags (e : Element) (closing : Node) : Prop where
  opens : e.node.child? .openTag = some e.opening
  closes : e.node.child? .closeTag = some closing
  start_eq : e.opening.start = e.node.start
  stop_eq : closing.stop = e.node.stop
  name_lt : ∀ n, e.opening.child? .name = some n → n.stop < e.opening.stop

theorem exists_tags (paired : e.isSelfClosing = false) (tagged : e.isTagged = true) :
    ∃ closing, e.Tags closing := by
  unfold isTagged at tagged
  rw [paired, Bool.false_or] at tagged
  split at tagged
  next opening closing opens closes =>
    have same : e.opening = opening := by
      rw [Element.opening, paired, if_neg Bool.false_ne_true, opens, Option.getD_some]
    simp only [Bool.and_eq_true, decide_eq_true_eq, Option.all_eq_true] at tagged
    exact ⟨closing, same ▸ opens, closes, same ▸ tagged.1.1, tagged.1.2, same ▸ tagged.2⟩
  next => cases tagged

theorem holds_opening (held : f.Holds e.node) : f.Holds e.opening := by
  unfold opening
  split
  · exact held
  · cases found : e.node.child? .openTag with
    | none => exact held
    | some o => exact held.child (Node.mem_children_of_child? found)

/-- Everything else in an element stands behind its opening tag. -/
theorem Tags.opening_le {closing : Node} (tags : e.Tags closing) (program : f.IsProgram)
    (held : f.Holds e.node) (mem : c ∈ e.node.children) (other : c.role ≠ some .openTag) :
    e.opening.stop ≤ c.start := by
  have shaped := program.wellFormed held
  have opens := Node.mem_children_of_child? tags.opens
  have ne : e.opening ≠ c := by
    rintro rfl
    exact other (by simpa using List.find?_some tags.opens)
  have front := (Node.within_of_mem_children shaped mem).start_le
  have filled := program.start_lt_stop (held.child mem)
  have start := tags.start_eq
  rcases Node.apart_of_mem_children shaped opens mem ne with before | behind
  · exact before
  · omega

theorem mem_elements_of_mem_childElements (mem : e ∈ f.elements) (h : inner ∈ e.childElements) :
    inner ∈ f.elements := by
  obtain ⟨s, inside, rfl⟩ := List.mem_map.mp mem
  obtain ⟨t, child, rfl⟩ := List.mem_map.mp h
  obtain ⟨child, element⟩ := List.mem_filter.mp child
  have below : t ∈ f.site.descendants := by
    unfold children at child
    split at child
    · cases child
    · obtain ⟨n, direct, rfl⟩ := List.mem_map.mp (List.mem_filter.mp child).1
      exact Site.child_mem_descendants (List.mem_filter.mp inside).1
        (Node.mem_children_of_mem_namedChildren direct)
  exact List.mem_map.mpr ⟨t, List.mem_filter.mpr ⟨below, element⟩, rfl⟩

/-- The bytes between the tags of an element. -/
def innerBytes (e : Element) : List UInt8 :=
  if e.isSelfClosing then []
  else slice e.file.bytes e.opening.stop
    (((e.node.child? .closeTag).map (·.start)).getD e.node.stop)

end Element

end JsxAudit.Source

namespace JsxAudit.Repair

open Source Audit Rule Syntax Text

variable {f : SourceFile} {v : Violation} {link anchor : Element} {name : Node}
  {settings : RuleSettings}

/-! ### Attributes that move -/

/-- What stands in the tag of an anchor for the link to take over: each spread, and each attribute
but the address and those that the link has. -/
def isCarried (link : Element) (n : Node) : Bool :=
  n.kind = .jsxExpression || (n.kind = .jsxAttribute &&
    let attr : Attribute := ⟨link.file, n⟩
    attr.name ≠ "href" && !link.hasAttribute attr.name)

def carried (link anchor : Element) : List Node :=
  anchor.opening.namedChildren.filter (isCarried link)

/-- What the link does take over. -/
def moved (link anchor : Element) : List Node :=
  (carried link anchor).filter (·.kind = .jsxAttribute)

theorem moved_eq_carried_iff :
    moved link anchor = carried link anchor ↔ anchor.hasSpread = false := by
  rw [moved, List.filter_eq_self, Element.hasSpread, List.any_eq_false]
  simp only [carried, List.mem_filter, decide_eq_true_eq, and_imp]
  constructor
  · intro named n mem spread
    have goes : isCarried link n = true := by simp [isCarried, spread]
    exact absurd ((named n mem goes).symm.trans spread) (by decide)
  · intro none n mem goes
    simp only [isCarried, none n mem, Bool.or_eq_true, Bool.and_eq_true, decide_eq_true_eq,
      false_or] at goes
    exact goes.1

theorem hoisted_eq (link : Element) (same : anchor.file = link.file) :
    hoisted link.file link anchor = (moved link anchor).map link.file.nodeText := by
  unfold hoisted moved carried Element.attributes
  rw [List.filter_map, List.map_map, List.filter_filter, List.filter_filter, same]
  refine congrArg₂ List.map rfl (List.filter_congr fun n _ => ?_)
  by_cases kind : n.kind = .jsxAttribute
  · simp [isCarried, kind]
  · simp [kind]

theorem utf8_spaced {parts : List String} (some : parts ≠ []) :
    utf8 (" " ++ " ".intercalate parts) = parts.flatMap fun part => utf8 (" " ++ part) := by
  induction parts with
  | nil => exact absurd rfl some
  | cons part rest ih =>
    by_cases last : rest = []
    · subst last
      rw [String.intercalate_singleton, List.flatMap_singleton]
    · rw [String.intercalate_cons_of_ne_nil last, List.flatMap_cons, ← ih last, ← utf8_append,
        String.append_assoc, String.append_assoc]

/-! ### The text that is written -/

/-- The sources of the attributes that the link takes over, a space before each. -/
def movedBytes (f : SourceFile) (link anchor : Element) : List UInt8 :=
  (moved link anchor).flatMap fun n => 32 :: slice f.bytes n.start n.stop

/-- The bytes of the file with the attributes behind the name of the link, and what stands between
the tags of the anchor in its place. -/
def unwrapped (f : SourceFile) (link anchor : Element) (name : Node) : List UInt8 :=
  f.bytes.take name.stop ++ movedBytes f link anchor ++
    slice f.bytes name.stop anchor.node.start ++ anchor.innerBytes ++
    f.bytes.drop anchor.node.stop

/-- The name of a link stands in its opening tag, and a nested anchor behind the tag. -/
structure Layout (link anchor : Element) (name : Node) : Prop where
  start_le : link.opening.start ≤ name.start
  name_lt : name.stop < link.opening.stop
  opening_le : link.opening.stop ≤ anchor.node.start

section

variable (program : f.IsProgram) (mem : link ∈ f.elements)
  (nested : nestedAnchor? link = some anchor)

include mem nested

theorem mem_elements_of_nestedAnchor? : anchor ∈ f.elements :=
  Element.mem_elements_of_mem_childElements mem (List.mem_of_find?_eq_some nested)

include program

/-- The sources of the attributes that the edit moves are the bytes that stand there. -/
theorem movedBytes_eq :
    movedBytes f link anchor = (hoisted f link anchor).flatMap fun part => utf8 (" " ++ part) := by
  have inner := mem_elements_of_nestedAnchor? mem nested
  have opening := Element.holds_opening (SourceFile.holds_of_mem_elements inner)
  have here := file_of_mem_elements mem
  have parts := hoisted_eq link ((file_of_mem_elements inner).trans here.symm)
  rw [here] at parts
  rw [parts, List.flatMap_map, movedBytes]
  refine List.flatMap_congr fun n mem => ?_
  have held := opening.namedChild (List.mem_filter.mp (List.mem_filter.mp mem).1).1
  rw [utf8_append, program.utf8_nodeText held]
  rfl

variable (tagged : ∀ e ∈ f.elements, e.isTagged = true)

include tagged

theorem layout (named : link.opening.child? .name = some name) : Layout link anchor name := by
  obtain ⟨paired, child, role⟩ :=
    Element.mem_children_of_mem_childElements (List.mem_of_find?_eq_some nested)
  obtain ⟨closing, tags⟩ := Element.exists_tags paired (tagged link mem)
  have held := SourceFile.holds_of_mem_elements mem
  have opening := held.child (Node.mem_children_of_child? tags.opens)
  have inside := Node.within_of_mem_children (program.wellFormed opening)
    (Node.mem_children_of_child? named)
  exact ⟨inside.start_le, tags.name_lt name named, tags.opening_le program held child role⟩

/-- What the edit leaves of the anchor are the bytes between its tags. -/
theorem utf8_innerText : utf8 (innerText f anchor) = anchor.innerBytes := by
  have inner := mem_elements_of_nestedAnchor? mem nested
  unfold innerText Element.innerBytes
  cases paired : anchor.isSelfClosing with
  | true => exact utf8_empty
  | false =>
    obtain ⟨closing, tags⟩ := Element.exists_tags paired (tagged anchor inner)
    have held := SourceFile.holds_of_mem_elements inner
    have opens := held.child (Node.mem_children_of_child? tags.opens)
    have child := Node.mem_children_of_child? tags.closes
    have closes := held.child child
    have role : closing.role = some .closeTag := by simpa using List.find?_some tags.closes
    have le := tags.opening_le program held child (by rw [role]; decide)
    have stop := program.stop_le closes
    have span := program.start_lt_stop closes
    rw [tags.closes, file_of_mem_elements inner, Option.map_some, Option.getD_some]
    exact SourceFile.utf8_textBetween_of_isText (SourceFile.isText_slice le (by omega)
      (program.isCut opens).2 (program.isCut closes).1)

variable (named : link.opening.child? .name = some name)

include named

/-- The splices of the edit, however many there are, write the attributes and what the anchor
holds. -/
theorem bytesAfter_unwrapAnchor (raised : RaisedOn f v link) (given : link.tag ≠ "")
    (value : String) :
    Splice.bytesAfter f.bytes (unwrapAnchor f v value) = unwrapped f link anchor name := by
  have held := SourceFile.holds_of_mem_elements (mem_elements_of_nestedAnchor? mem nested)
  have span := program.start_lt_stop held
  have stop := program.stop_le held
  obtain ⟨-, name_lt, opening_le⟩ := layout program mem nested tagged named
  have behind : name.stop < anchor.node.start := Nat.lt_of_lt_of_le name_lt opening_le
  have front : slice f.bytes 0 anchor.node.start =
      f.bytes.take name.stop ++ slice f.bytes name.stop anchor.node.start := by
    rw [take_append_slice _ (Nat.le_of_lt behind), slice, List.drop_zero]
  unfold unwrapAnchor unwrapped
  simp only [element?_raised program raised given, nested, named]
  rw [movedBytes_eq program mem nested, ← utf8_innerText program mem nested tagged]
  split
  next none =>
    rw [List.isEmpty_iff.mp none, List.nil_append, Splice.bytesAfter_eq_weave]
    · simp [Splice.weave, front]
    · exact List.pairwise_singleton _ _
    · exact ⟨Nat.zero_le _, Nat.le_of_lt span, stop⟩
  next some =>
    have some : hoisted f link anchor ≠ [] := fun none => some (by rw [none]; rfl)
    rw [List.singleton_append, Splice.bytesAfter_eq_weave, ← utf8_spaced some]
    · simp [Splice.weave, slice]
    · exact List.pairwise_pair.mpr behind
    · exact ⟨Nat.zero_le _, Nat.le_refl _, Nat.le_of_lt behind, Nat.le_of_lt span, stop⟩

theorem isText_unwrapped : IsText (unwrapped f link anchor name) := by
  have inner := SourceFile.holds_of_mem_elements (mem_elements_of_nestedAnchor? mem nested)
  have held := (Element.holds_opening (SourceFile.holds_of_mem_elements mem)).child
    (Node.mem_children_of_child? named)
  have span := program.start_lt_stop inner
  have stop := program.stop_le inner
  obtain ⟨-, name_lt, opening_le⟩ := layout program mem nested tagged named
  have behind : name.stop ≤ anchor.node.start :=
    Nat.le_of_lt (Nat.lt_of_lt_of_le name_lt opening_le)
  have front : IsText (f.bytes.take name.stop) := by
    have cut := SourceFile.isText_slice (Nat.zero_le _) (by omega) (isCut_zero f.text)
      (program.isCut held).2
    rwa [slice, List.drop_zero] at cut
  have attributes : IsText (movedBytes f link anchor) := by
    rw [movedBytes_eq program mem nested]
    exact isText_flatMap fun part _ => isText_utf8 _
  have middle : IsText (slice f.bytes name.stop anchor.node.start) :=
    SourceFile.isText_slice behind (by omega) (program.isCut held).2 (program.isCut inner).1
  have content : IsText anchor.innerBytes :=
    ⟨_, utf8_innerText program mem nested tagged⟩
  have back : IsText (f.bytes.drop anchor.node.stop) := by
    have cut := SourceFile.isText_slice stop (Nat.le_refl _) (program.isCut inner).2
      (f.bytes_eq ▸ isCut_length f.text)
    rwa [slice, List.take_length] at cut
  exact (((front.append attributes).append middle).append content).append back

end

/-! ### Reported anchors -/

/-- What is reported on a link: an anchor stands in it. -/
theorem nestedAnchor_cases (program : f.IsProgram) (h : v ∈ nestedAnchor.scan settings f) :
    v.rule = "next-link-no-nested-a" ∧ v.fix = some ⟨.removeElement, .literal "", none⟩ ∧
      ∃ link ∈ f.elements, RaisedOn f v link ∧ link.tag ≠ "" ∧
        ∃ anchor, nestedAnchor? link = some anchor := by
  unfold nestedAnchor at h
  dsimp only at h
  split at h
  · cases h
  · rename_i tag imported
    obtain ⟨link, mem, rfl⟩ := List.mem_map.mp h
    obtain ⟨mem, nested⟩ := List.mem_filter.mp mem
    obtain ⟨mem, same⟩ := mem_elementsTagged.mp mem
    have given := SourceFile.localDefault?_ne program (by decide) imported
    rw [← List.mem_singleton.mp same] at given
    exact ⟨rfl, rfl, link, mem, raisedOn_violationAt mem, given,
      Option.isSome_iff_exists.mp nested⟩

/-- Every anchor that is reported in a link is unwrapped, unless the parser refuses the text. The
text has the attributes of the anchor behind the name of the link, each with its source and once,
and what stands between the tags of the anchor in its place. All else stays as it is. Of what the
link should take over, nothing is lost if and only if there is no spread on the anchor. -/
theorem fixOne?_nestedAnchor (program : f.IsProgram) (tagged : ∀ e ∈ f.elements, e.isTagged = true)
    (reported : v ∈ nestedAnchor.scan settings f) (parser : TreeParser) :
    ∃ link ∈ f.elements, RaisedOn f v link ∧ ∃ anchor name, nestedAnchor? link = some anchor ∧
      link.opening.child? .name = some name ∧ Layout link anchor name ∧
      (∃ text, fixOne? parser f v = .ok (SourceFile.parseWith parser f.path text) ∧
        utf8 text = unwrapped f link anchor name) ∧
      (moved link anchor = carried link anchor ↔ anchor.hasSpread = false) := by
  obtain ⟨rule, fix, link, mem, raised, given, anchor, nested⟩ :=
    nestedAnchor_cases program reported
  obtain ⟨name, named⟩ := Element.exists_name given
  obtain ⟨text, written⟩ := isText_unwrapped program mem nested tagged named
  have after := bytesAfter_unwrapAnchor program mem nested tagged named raised given ""
  refine ⟨link, mem, raised, anchor, name, nested, named, layout program mem nested tagged named,
    ⟨text, ?_, written⟩, moved_eq_carried_iff⟩
  have edit : editFor v.rule .removeElement f v "" = unwrapAnchor f v "" := by
    rw [rule, editFor_nestedAnchor]
  refine fixOne?_eq _ "" text _ fix rfl edit ?_ ?_
  · unfold unwrapAnchor
    simp [element?_raised program raised given, nested, named]
  · rw [Splice.spliced?, after, ← written, decode?_utf8]

/-- An anchor with an attribute, which moves, and a spread, which does not. -/
theorem fixOne?_nestedAnchor_spread :
    ∃ f ∈ SourceFile.parse "a.tsx" ("import Link from \"next/link\"; " ++
        "export default (p) => <Link href=\"/\"><a id=\"x\" \x7b...p\x7d>Go</a></Link>;"),
      ∃ v ∈ nestedAnchor.scan {} f, f.IsProgram ∧ (∀ e ∈ f.elements, e.isTagged = true) ∧
        ∃ link anchor name, nestedAnchor? link = some anchor ∧ Layout link anchor name ∧
          (∃ text, fixOne? Syntax.parse f v = .ok (SourceFile.parse "a.tsx" text) ∧
            utf8 text = unwrapped f link anchor name) ∧
          moved link anchor ≠ [] ∧ moved link anchor ≠ carried link anchor := by
  have found : ∃ f ∈ SourceFile.parse "a.tsx" ("import Link from \"next/link\"; " ++
        "export default (p) => <Link href=\"/\"><a id=\"x\" \x7b...p\x7d>Go</a></Link>;"),
      ∃ v ∈ nestedAnchor.scan {} f, f.IsProgram ∧ (∀ e ∈ f.elements, e.isTagged = true) ∧
        f.path = "a.tsx" ∧ ∀ link ∈ f.elements, ∀ anchor ∈ nestedAnchor? link,
          (moved link anchor).isEmpty = false ∧ anchor.hasSpread = true := by
    decide +kernel
  obtain ⟨f, parsed, v, reported, program, tagged, path, facts⟩ := found
  obtain ⟨link, mem, -, anchor, name, nested, -, places, ⟨text, fixed, written⟩, lost⟩ :=
    fixOne?_nestedAnchor program tagged reported Syntax.parse
  obtain ⟨some, spread⟩ := facts link mem anchor nested
  rw [path] at fixed
  refine ⟨f, parsed, v, reported, program, tagged, link, anchor, name, nested, places,
    ⟨text, fixed, written⟩, fun none => ?_, fun same => ?_⟩
  · rw [none] at some
    cases some
  · rw [lost.mp same] at spread
    cases spread

end JsxAudit.Repair
