import JsxAudit.Proofs.Repair.Place
import JsxAudit.Proofs.Repair.Replay

/-!
Fixes bring no carriage returns into a file.

What an edit writes consists of the text of the fix, of names and punctuation that are fixed, and of
stretches of the file as it is (`noReturns_editFor`). So a text without carriage returns stays one
from fix to fix, and reading it back from a disk gives it unchanged.
-/

namespace JsxAudit.Text

variable {s t : String}

/-! ### Texts put together -/

@[simp] theorem noReturns_append : NoReturns (s ++ t) ↔ NoReturns s ∧ NoReturns t := by
  simp [NoReturns, not_or]

theorem noReturns_ofList {cs : List Char} : NoReturns (String.ofList cs) ↔ '\r' ∉ cs := by
  rw [NoReturns, String.toList_ofList]

theorem noReturns_intercalate {sep : String} {parts : List String} (between : NoReturns sep)
    (each : ∀ part ∈ parts, NoReturns part) : NoReturns (sep.intercalate parts) :=
  not_mem_intercalate between each

end JsxAudit.Text

namespace JsxAudit.Source.SourceFile

open Text

/-- A stretch of a text without carriage returns has none either. -/
theorem noReturns_textBetween {f : SourceFile} (whole : NoReturns f.text) (start stop : Nat) :
    NoReturns (f.textBetween start stop) := by
  rw [noReturns_iff, ← f.bytes_eq] at whole
  unfold textBetween
  cases read : decode? (slice f.bytes start stop) with
  | none => simp [NoReturns]
  | some s =>
    rw [Option.getD_some, noReturns_iff, decode?_eq_some.mp read]
    exact fun mem => whole (List.mem_of_mem_take (List.mem_of_mem_drop mem))

end JsxAudit.Source.SourceFile

namespace JsxAudit.Repair

open Source Audit Rule Text

variable {f g : SourceFile} {v : Violation} {value : String} {parser : TreeParser}

/-! ### What edits write -/

theorem noReturns_escapeQuotes (h : NoReturns value) : NoReturns (escapeQuotes value) := by
  rw [escapeQuotes, noReturns_ofList, List.mem_flatMap]
  rintro ⟨c, mem, escaped⟩
  split at escaped
  · simp at escaped
  · exact h (List.mem_singleton.mp escaped ▸ mem)

theorem noReturns_escapeString (h : NoReturns value) : NoReturns (escapeString value) := by
  rw [escapeString, noReturns_ofList, List.mem_flatMap]
  rintro ⟨c, mem, escaped⟩
  split at escaped
  · rcases List.mem_cons.mp escaped with slash | escaped
    · cases slash
    · exact h (List.mem_singleton.mp escaped ▸ mem)
  · exact h (List.mem_singleton.mp escaped ▸ mem)

theorem noReturns_attributeText {name : String} (named : NoReturns name) (h : NoReturns value) :
    NoReturns (attributeText name value) := by
  unfold attributeText
  split
  · simp +decide [named, h]
  · simp +decide [named, noReturns_escapeQuotes h]

/-- The splices write no carriage returns. -/
def WriteNoReturns (splices : List Splice) : Prop :=
  ∀ s ∈ splices, NoReturns s.text

theorem writeNoReturns_nil : WriteNoReturns [] := nofun

theorem writeNoReturns_singleton {start stop : Nat} {text : String} (h : NoReturns text) :
    WriteNoReturns [⟨start, stop, text⟩] := by
  rintro s mem
  rw [List.mem_singleton.mp mem]
  exact h

theorem noReturns_insertAttr (names : ∀ name ∈ v.fix.bind (·.attr), NoReturns name)
    (h : NoReturns value) : WriteNoReturns (insertAttr f v value) := by
  rcases insertAttr_cases f v value with none | ⟨name, place, given, made⟩
  · rw [none]
    exact writeNoReturns_nil
  · have clean := noReturns_attributeText (names name given) h
    rw [made]
    exact writeNoReturns_singleton (noReturns_append.mpr ⟨by decide, clean⟩)

theorem noReturns_replaceAttr (names : ∀ name ∈ v.fix.bind (·.attr), NoReturns name)
    (h : NoReturns value) : WriteNoReturns (replaceAttr f v value) := by
  unfold replaceAttr
  split
  · rename_i name e given _
    split
    · rename_i attr there
      refine writeNoReturns_singleton (noReturns_attributeText ?_ h)
      rw [Element.name_of_attribute? there]
      exact names name given
    · exact noReturns_insertAttr names h
  · exact writeNoReturns_nil

theorem noReturns_resetTabIndex (h : NoReturns value) :
    WriteNoReturns (resetTabIndex f v value) := by
  unfold resetTabIndex
  split
  · exact writeNoReturns_nil
  · split
    · split
      · exact writeNoReturns_singleton h
      · refine writeNoReturns_singleton ?_
        simp +decide [h]
      · exact writeNoReturns_nil
    · exact writeNoReturns_nil

theorem noReturns_insertMetadata (names : ∀ name ∈ v.fix.bind (·.attr), NoReturns name)
    (h : NoReturns value) : WriteNoReturns (insertMetadata f v value) := by
  unfold insertMetadata
  split
  · exact writeNoReturns_nil
  · rename_i name given
    have property : NoReturns (propertyText name value) := by
      simp +decide [propertyText, names name given, noReturns_escapeString h]
    dsimp only
    split
    · split
      · exact writeNoReturns_nil
      · split
        · refine writeNoReturns_singleton ?_
          simp +decide [property]
        · refine writeNoReturns_singleton ?_
          rw [noReturns_append, noReturns_append]
          refine ⟨⟨?_, property⟩, by decide⟩
          split <;> decide
    · split
      · refine writeNoReturns_singleton ?_
        simp +decide [property]
      · refine writeNoReturns_singleton ?_
        simp +decide [property]

/-- The flagged text is copied from the file. -/
theorem noReturns_wrapEmoji (whole : NoReturns f.text) (h : NoReturns value) :
    WriteNoReturns (wrapEmoji f v value) := by
  unfold wrapEmoji
  split
  · exact writeNoReturns_nil
  · rename_i start found
    have copied : NoReturns v.element := by
      rw [noReturns_iff, ← f.bytes_eq] at whole
      rw [noReturns_iff, ← slice_of_placeOf? found]
      exact fun mem => whole (List.mem_of_mem_take (List.mem_of_mem_drop mem))
    refine writeNoReturns_singleton ?_
    simp +decide [copied, noReturns_escapeQuotes h]

/-- What is moved out of a nested anchor, and what stays in its place, is copied from the file. -/
theorem noReturns_unwrapAnchor (whole : NoReturns f.text) :
    WriteNoReturns (unwrapAnchor f v value) := by
  have copied := SourceFile.noReturns_textBetween whole
  unfold unwrapAnchor
  split
  · exact writeNoReturns_nil
  · rename_i link located
    split
    · rename_i anchor tag nested named
      intro s mem
      rcases List.mem_append.mp mem with attributes | inner
      · split at attributes
        · cases attributes
        · rw [List.mem_singleton.mp attributes, noReturns_append]
          refine ⟨by decide, noReturns_intercalate (by decide) fun part moved => ?_⟩
          obtain ⟨attr, -, rfl⟩ := List.mem_map.mp moved
          exact copied _ _
      · rw [List.mem_singleton.mp inner]
        change NoReturns (innerText f anchor)
        unfold innerText
        split
        · decide
        · exact copied _ _
    · exact writeNoReturns_nil

/-! ### Whole runs -/

theorem noReturns_of_mem_labelAttributes {name : String} (h : name ∈ labelAttributes) :
    NoReturns name := by
  have all : ∀ name ∈ labelAttributes, NoReturns name := by decide
  exact all name h

/-- The edit of a prescribed fix writes no carriage returns into a text without them, if there are
none in the text of the fix. The violation may have been found in an earlier text of the file. -/
theorem noReturns_editFor {fix : Fix} (given : v.fix = some fix) (prescribed : Prescribed f v fix)
    (whole : NoReturns g.text) (h : NoReturns value) :
    WriteNoReturns (editFor v.rule fix.type g v value) := by
  have names : ∀ {label : String}, fix.attr = some label → NoReturns label →
      ∀ name ∈ v.fix.bind (·.attr), NoReturns name := by
    intro label attr named name mem
    rw [given, Option.bind_some, attr, Option.mem_some] at mem
    exact mem ▸ named
  cases prescribed with
  | insertion general raised tagged label missing =>
    rw [editFor_insertAttr general]
    exact noReturns_insertAttr (names rfl (noReturns_of_mem_labelAttributes label)) h
  | replacement general raised tagged label found =>
    rw [editFor_replaceAttr general]
    exact noReturns_replaceAttr (names rfl (noReturns_of_mem_labelAttributes label)) h
  | tabIndex rule =>
    rw [rule, editFor_tabIndex]
    exact noReturns_resetTabIndex h
  | nestedAnchor rule =>
    rw [rule, editFor_nestedAnchor]
    exact noReturns_unwrapAnchor whole
  | emoji text found eq =>
    have rule : v.rule = "emoji-alt" := eq ▸ rfl
    rw [rule, editFor_emoji]
    exact noReturns_wrapEmoji whole h
  | title rule =>
    rw [rule, editFor_title]
    exact noReturns_insertMetadata (names rfl (by decide)) h

/-- The text of a fix, if it can be found without a service, holds no carriage returns. -/
def FixNoReturns (v : Violation) : Prop :=
  ∀ fix, v.fix = some fix → ∀ text, Deferred.resolve fix.value = .ok (some text) → NoReturns text

instance (v : Violation) : Decidable (FixNoReturns v) :=
  decidable_of_iff (∀ fix ∈ v.fix, ∀ text ∈ (Deferred.resolve fix.value).toOption.join,
      NoReturns text) <| by
    refine forall_congr' fun fix => forall_congr' fun _ => forall_congr' fun text => ?_
    rcases Deferred.resolve fix.value with e | none | other <;> simp [Except.toOption]

theorem noReturns_spliced? {bytes : List UInt8} {splices : List Splice} {text : String}
    (whole : (13 : UInt8) ∉ bytes) (h : WriteNoReturns splices)
    (spliced : Splice.spliced? bytes splices = some text) : NoReturns text := by
  have kept (splices : List Splice) (h : WriteNoReturns splices) (bytes : List UInt8)
      (whole : (13 : UInt8) ∉ bytes) : (13 : UInt8) ∉ splices.foldl Splice.replaceIn bytes := by
    induction splices generalizing bytes with
    | nil => exact whole
    | cons s rest ih =>
      refine ih (fun x mem => h x (List.mem_cons_of_mem _ mem)) _ ?_
      have written := noReturns_iff.mp (h s List.mem_cons_self)
      unfold Splice.replaceIn
      rw [List.mem_append, List.mem_append]
      rintro ((before | inside) | after)
      · exact whole (List.mem_of_mem_take before)
      · exact written inside
      · exact whole (List.mem_of_mem_drop after)
  rw [noReturns_iff, decode?_eq_some.mp spliced]
  exact kept _ (fun s mem => h s (List.mem_mergeSort.mp mem)) _ whole

/-- One fix that is carried out keeps the text free of carriage returns. -/
theorem noReturns_fixOne? {v : Violation} {file : SourceFile} (whole : NoReturns g.text)
    (prescribed : ∀ fix, v.fix = some fix → Prescribed f v fix) (clean : FixNoReturns v)
    (fixed : fixOne? parser g v = .ok (some file)) : NoReturns file.text := by
  obtain ⟨fix, value, text, given, known, -, spliced, parsed⟩ := fixOne?_cases fixed
  obtain ⟨-, -, rfl⟩ := parseWith_eq_some parsed
  have written := noReturns_editFor given (prescribed fix given) whole (clean fix given value known)
  rw [noReturns_iff, ← g.bytes_eq] at whole
  exact noReturns_spliced? whole written spliced

/-- Fixing a file of its own violations keeps its text free of carriage returns. -/
theorem noReturns_apply {violations : List Violation} {text : String} {applied : List Violation}
    (whole : NoReturns f.text)
    (prescribed : ∀ v ∈ violations, ∀ fix, v.fix = some fix → Prescribed f v fix)
    (clean : ∀ v ∈ violations, FixNoReturns v)
    (h : apply parser f violations = .ok (text, applied)) : NoReturns text := by
  obtain ⟨file, rfl, kept⟩ := apply_invariant (fun v mem g file whole fixed =>
    noReturns_fixOne? whole (prescribed v mem) (clean v mem) fixed) whole h
  exact kept

end JsxAudit.Repair
