import JsxAudit.Proofs.Data.Keyed
import JsxAudit.Proofs.Resolution.Turns
import JsxAudit.Proofs.Rule.Report
import JsxAudit.Proofs.Source.Program
import JsxAudit.Proofs.Text.Bytes

/-!
Which labels share an entry of the cache.

The key of a label is the digest of a text whose parts stand between colons. In a file whose tags
are written as tags are (`Tagged`), the parts can be told from each other although some of them may
hold colons themselves: the name of a rule holds none, and an element begins with an angle bracket,
which no name of a tag has behind a colon. So two labels share a key if rule, icon and what is shown
of the element agree (`label_keys_eq_iff`). Of an element only the beginning is shown, and elements
that begin alike share their label (`label_keys_of_twins`).
-/

namespace JsxAudit.Source

open Syntax

/-! ### Names of tags -/

/-- What a reader of the name of a tag is in: the name, a comment, or the mark of one. -/
inductive NamePlace where
  | name | slash | block | star | line
  deriving DecidableEq

/-- A slash begins a comment. Outside of comments a name has no angle bracket. -/
def NamePlace.next : NamePlace → Char → Option NamePlace
  | .name, c => if c = '<' then none else some (if c = '/' then .slash else .name)
  | .slash, c => if c = '/' then some .line else if c = '*' then some .block else none
  | .block, c => some (if c = '*' then .star else .block)
  | .star, c => some (if c = '/' then .name else if c = '*' then .star else .block)
  | .line, c => some (if endsLine c then .name else .line)

/-- The text can be the name of a tag, together with the comments that stand in it. -/
def IsTagName (s : String) : Prop :=
  s.toList.foldlM NamePlace.next .name = some .name

instance (s : String) : Decidable (IsTagName s) :=
  inferInstanceAs (Decidable (_ = _))

/-- No name goes on with a colon and an angle bracket where another one ends. -/
theorem IsTagName.not_opening {s t : String} (h : IsTagName s) (h' : IsTagName t)
    (rest : List Char) : t.toList ≠ s.toList ++ ':' :: '<' :: rest := by
  intro longer
  rw [IsTagName, longer, List.foldlM_append, h] at h'
  cases h'

/-- Tags are written as tags are: elements begin with an angle bracket, and what follows it is a
name. -/
structure SourceFile.Tagged (f : SourceFile) : Prop where
  opened : ∀ e ∈ f.elements, e.text.toList.head? = some '<'
  named : ∀ e ∈ f.elements, IsTagName e.tag

instance (f : SourceFile) : Decidable f.Tagged :=
  decidable_of_iff ((∀ e ∈ f.elements, e.text.toList.head? = some '<') ∧
      ∀ e ∈ f.elements, IsTagName e.tag)
    ⟨fun ⟨opened, named⟩ => ⟨opened, named⟩, fun ⟨opened, named⟩ => ⟨opened, named⟩⟩

/-! ### Elements inside elements -/

theorem mem_elements_of_mem_descendantElements {f : SourceFile} {e child : Element}
    (mem : e ∈ f.elements) (inside : child ∈ e.descendantElements) : child ∈ f.elements := by
  obtain ⟨s, found, rfl⟩ := List.mem_map.mp mem
  unfold Element.descendantElements at inside
  split at inside
  · cases inside
  · obtain ⟨t, below, rfl⟩ := List.mem_map.mp inside
    obtain ⟨below, element⟩ := List.mem_filter.mp below
    refine List.mem_map.mpr ⟨t, List.mem_filter.mpr ⟨?_, element⟩, rfl⟩
    exact Site.mem_descendants_trans (List.mem_filter.mp found).1 below

theorem text_of_bytes {f : SourceFile} {e : Element} {s : String} (mem : e ∈ f.elements)
    (bytes : Text.slice f.bytes e.node.start e.node.stop = Text.utf8 s) : e.text = s := by
  rw [Element.text, Rule.file_of_mem_elements mem, SourceFile.nodeText, SourceFile.textBetween,
    bytes, Text.decode?_utf8, Option.getD_some]

end JsxAudit.Source

namespace JsxAudit.Resolution

open Audit Cache Rule Source

/-! ### Parts of a key -/

theorem toList_keyText (a b c d e : String) : (keyText [a, b, c, d, e]).toList =
    a.toList ++ ':' :: (b.toList ++ ':' :: c.toList) ++ ':' :: (d.toList ++ ':' :: e.toList) := by
  simp [keyText, String.intercalate_cons_cons]

/-- What stands before the first mark, and what stands behind it. -/
theorem split_at_mark {α : Type} {x : α} {as as' bs bs' : List α} (no : x ∉ as) (no' : x ∉ as')
    (same : as ++ x :: bs = as' ++ x :: bs') : as = as' ∧ bs = bs' := by
  induction as generalizing as' with
  | nil =>
    cases as' with
    | nil => exact ⟨rfl, (List.cons.inj same).2⟩
    | cons a' as' => exact absurd ((List.cons.inj same).1 ▸ List.mem_cons_self) no'
  | cons a as ih =>
    cases as' with
    | nil => exact absurd ((List.cons.inj same).1 ▸ List.mem_cons_self) no
    | cons a' as' =>
      obtain ⟨rfl, rest⟩ := List.cons.inj same
      obtain ⟨rfl, rfl⟩ := ih (fun mem => no (List.mem_cons_of_mem _ mem))
        (fun mem => no' (List.mem_cons_of_mem _ mem)) rest
      exact ⟨rfl, rfl⟩

/-- Where the names of two tags end, each before a colon and an element, neither goes on. -/
theorem eq_nil_of_longer {icon icon' : String} {more cs cs' : List Char} (named : IsTagName icon)
    (named' : IsTagName icon') (longer : icon'.toList = icon.toList ++ more)
    (rest : ':' :: '<' :: cs = more ++ ':' :: '<' :: cs') : more = [] := by
  match more with
  | [] => rfl
  | [c] => simp at rest
  | c :: d :: more =>
    simp only [List.cons_append, List.cons.injEq] at rest
    obtain ⟨rfl, rfl, -⟩ := rest
    exact absurd longer (named.not_opening named' more)

/-- The name of a tag is told from the element that stands behind it. -/
theorem split_at_element {icon icon' : String} {cs cs' : List Char} (named : IsTagName icon)
    (named' : IsTagName icon') (opened : cs.head? = some '<') (opened' : cs'.head? = some '<')
    (same : icon.toList ++ ':' :: cs = icon'.toList ++ ':' :: cs') : icon = icon' ∧ cs = cs' := by
  obtain ⟨element, rfl⟩ := List.head?_eq_some_iff.mp opened
  obtain ⟨element', rfl⟩ := List.head?_eq_some_iff.mp opened'
  have names : icon = icon' := by
    rcases List.append_eq_append_iff.mp same with ⟨more, longer, rest⟩ | ⟨more, longer, rest⟩
    · rw [eq_nil_of_longer named named' longer rest, List.append_nil] at longer
      exact String.toList_inj.mp longer.symm
    · rw [eq_nil_of_longer named' named longer rest, List.append_nil] at longer
      exact String.toList_inj.mp longer
  subst names
  exact ⟨rfl, (List.cons.inj (List.append_cancel_left same)).2⟩

/-! ### Labels -/

variable {f : SourceFile} {v w : Violation} {e d : Element} {locale : String}

/-- The icon that comes with a label that is to be found. -/
def icon? (v : Violation) : Option String :=
  (pending? v).bind fun (_, _, params) => params.lookup "icon"

/-- The text that the key of a label is the digest of. -/
def labelKeyText (locale : String) (f : SourceFile) (v : Violation) : String :=
  keyText [v.rule, orUnknown (icon? v), v.element, (PageContext.of f).component, locale]

/-- The rules about accessible names. -/
def labelRules : List Rule :=
  [buttonLabel, linkLabel, inputLabel]

/-- What is found about the name of an element. -/
structure LabelFinding (f : SourceFile) (v : Violation) (e : Element) : Prop where
  on : RaisedOn f v e
  rule : v.rule ∈ labelRules.map (·.id)
  element : v.element = Text.takeChars Violation.elementLimit e.text
  icon : ∀ icon, icon? v = some icon → ∃ child ∈ f.elements, child.tag = icon

/-- A parameter of a deferred text is one that was given for it. -/
theorem mem_of_icon? {resolver icon : String}
    {params : List (String × Option String)} {fix : Fix} (given : v.fix = some fix)
    (deferred : fix.value = FixValue.deferredOf resolver params) (h : icon? v = some icon) :
    ("icon", some icon) ∈ params := by
  obtain ⟨⟨subject, fix', params'⟩, pending, found⟩ := Option.bind_eq_some_iff.mp h
  obtain ⟨-, given', resolver', deferred'⟩ := pending?_eq_some_iff.mp pending
  cases given.symm.trans given'
  cases deferred.symm.trans deferred'
  obtain ⟨⟨key, value⟩, mem, same⟩ := List.mem_filterMap.mp (Data.Keyed.mem_of_lookup found)
  obtain ⟨text, filled, same⟩ := Option.map_eq_some_iff.mp same
  cases same
  rw [(Option.filter_eq_some_iff.mp filled).1] at mem
  exact mem

theorem icon?_of_literal {text : String} {fix : Fix} (given : v.fix = some fix)
    (literal : fix.value = .literal text) : icon? v = none := by
  rw [icon?, Option.bind_eq_none_iff]
  rintro ⟨subject, fix', params⟩ pending
  obtain ⟨-, given', resolver, deferred⟩ := pending?_eq_some_iff.mp pending
  cases given.symm.trans given'
  cases literal.symm.trans deferred

theorem labelFinding_of_control {kind : ControlKind} {settings : RuleSettings}
    (rule : kind.rule ∈ labelRules.map (·.id)) (found : v ∈ scanControls kind settings f) :
    ∃ e, LabelFinding f v e := by
  obtain ⟨e, mem, -, ⟨-, _, _, rfl⟩ | ⟨-, rfl⟩⟩ := scanControls_cases found
  · refine ⟨e, raisedOn_violationAt mem, rule, rfl, fun icon h => ?_⟩
    rw [icon?_of_literal rfl rfl] at h
    cases h
  · refine ⟨e, raisedOn_violationAt mem, rule, rfl, fun icon h => ?_⟩
    have given := mem_of_icon? rfl rfl h
    simp only [List.mem_cons, Prod.mk.injEq, String.reduceEq, false_and, true_and,
      List.not_mem_nil, or_false] at given
    obtain ⟨child, inside, tag⟩ := List.mem_map.mp (List.mem_of_find?_eq_some given.symm)
    exact ⟨child, mem_elements_of_mem_descendantElements mem inside, tag⟩

/-- What these rules report is found at an element, and its icon is a tag of the file. -/
theorem labelFinding_of_mem_scan {rule : Rule} {settings : RuleSettings} (known : rule ∈ labelRules)
    (found : v ∈ rule.scan settings f) : ∃ e, LabelFinding f v e := by
  simp only [labelRules, List.mem_cons, List.not_mem_nil, or_false] at known
  rcases known with rfl | rfl | rfl
  · exact labelFinding_of_control (by decide) found
  · exact labelFinding_of_control (by decide) found
  · obtain ⟨e, mem, rfl⟩ := List.mem_map.mp found
    obtain ⟨mem, -⟩ := mem_elementsTagged.mp (List.mem_filter.mp mem).1
    have rule : "input-label" ∈ labelRules.map (·.id) := by decide
    refine ⟨e, raisedOn_violationAt mem, rule, rfl, fun icon h => ?_⟩
    have given := mem_of_icon? rfl rfl h
    simp at given

theorem LabelFinding.unique (h : LabelFinding f v e) (apart : (f.elements.map (·.anchor)).Nodup)
    (on : RaisedOn f v d) : d = e := by
  have same : d.anchor = e.anchor := Option.some.inj (on.anchor.symm.trans h.on.anchor)
  have first := SourceFile.find?_eq_of_nodup apart h.on.mem
  have second := SourceFile.find?_eq_of_nodup apart on.mem
  rw [same, first] at second
  exact (Option.some.inj second).symm

theorem LabelFinding.isTagName (h : LabelFinding f v e) (tagged : f.Tagged) :
    IsTagName (orUnknown (icon? v)) := by
  unfold orUnknown
  cases given : (icon? v).filter (· != "") with
  | none => exact (by decide : IsTagName "unknown")
  | some icon =>
    obtain ⟨child, mem, rfl⟩ := h.icon icon (Option.filter_eq_some_iff.mp given).1
    exact tagged.named child mem

theorem LabelFinding.opened (h : LabelFinding f v e) (tagged : f.Tagged) :
    v.element.toList.head? = some '<' := by
  have opened := tagged.opened e h.on.mem
  rw [h.element, Text.takeChars, String.toList_ofList, List.head?_take, if_neg (by decide), opened]

theorem LabelFinding.colon_notMem (h : LabelFinding f v e) : ':' ∉ v.rule.toList := by
  have ids : ∀ id ∈ labelRules.map (·.id), ':' ∉ id.toList := by decide
  exact ids _ h.rule

/-- Two labels have keys of one text if rule, icon, and what is shown of the elements agree. -/
theorem labelKeyText_eq_iff (tagged : f.Tagged) (h : LabelFinding f v e) (h' : LabelFinding f w d) :
    labelKeyText locale f v = labelKeyText locale f w ↔
      v.rule = w.rule ∧ orUnknown (icon? v) = orUnknown (icon? w) ∧
        Text.takeChars Violation.elementLimit e.text =
          Text.takeChars Violation.elementLimit d.text := by
  rw [← h.element, ← h'.element]
  constructor
  · intro same
    have chars := congrArg String.toList same
    rw [labelKeyText, labelKeyText, toList_keyText, toList_keyText, List.append_cancel_right_eq]
      at chars
    obtain ⟨rules, behind⟩ := split_at_mark h.colon_notMem h'.colon_notMem chars
    obtain ⟨icons, elements⟩ := split_at_element (h.isTagName tagged) (h'.isTagName tagged)
      (h.opened tagged) (h'.opened tagged) behind
    exact ⟨String.toList_inj.mp rules, icons, String.toList_inj.mp elements⟩
  · rintro ⟨rules, icons, elements⟩
    rw [labelKeyText, labelKeyText, rules, icons, elements]

/-! ### Keys -/

variable {σ : Type} {sv : Services σ} {files : List (String × SourceFile)} {t t' : Turn σ}
  {q q' : Query}

theorem LabelFinding.due (h : LabelFinding f v e) (known : files.lookup f.path = some f)
    (path : v.filePath = f.path) (needs : needsResolution v) :
    ∃ fix params, Due files v .label fix params f := by
  obtain ⟨⟨subject, fix, params⟩, pending⟩ := Option.isSome_iff_exists.mp needs
  have labels : ∀ id ∈ labelRules.map (·.id), subjectOf? id = some .label := by decide
  have named := (pending?_eq_some_iff.mp pending).1
  rw [labels _ h.rule] at named
  cases named
  exact ⟨fix, params, pending, path ▸ known⟩

/-- A label that is to be found is looked up. -/
theorem LabelFinding.exists_query (h : LabelFinding f t.violation e)
    (known : files.lookup f.path = some f) (path : t.violation.filePath = f.path)
    (needs : needsResolution t.violation) : ∃ q, t.query? sv files = some q := by
  obtain ⟨fix, params, due⟩ := h.due known path needs
  exact ⟨_, Turn.query?_eq_some_iff.mpr ⟨.label, fix, params, f, due, rfl⟩⟩

/-- The key of a label is the digest of its text. -/
theorem LabelFinding.key_eq (h : LabelFinding f t.violation e)
    (known : files.lookup f.path = some f) (path : t.violation.filePath = f.path)
    (query : t.query? sv files = some q) :
    q.key = keyOfText (labelKeyText sv.locale f t.violation) := by
  obtain ⟨subject, fix, params, f', due, asked⟩ := Turn.query?_eq_some_iff.mp query
  have needs : needsResolution t.violation := by
    rw [needsResolution, due.pending]
    rfl
  obtain ⟨fix', params', due'⟩ := h.due known path needs
  cases due.pending.symm.trans due'.pending
  cases due.found.symm.trans due'.found
  cases asked
  rw [labelKeyText, icon?, due.pending]
  rfl

theorem path_of_mem_scan {rule : Rule} {settings : RuleSettings} (known : rule ∈ labelRules)
    (found : v ∈ rule.scan settings f) : v.filePath = f.path := by
  have all : rule ∈ Rule.all := by
    simp only [labelRules, List.mem_cons, List.not_mem_nil, or_false] at known
    rcases known with rfl | rfl | rfl <;> simp [Rule.all]
  exact (reports_of_mem_scan all found).path

/-- Two labels that are missing in a file are looked up under one key if they are reported by one
rule, have the same icon or none, and stand on elements that begin with the same eighty characters.
Here the digest is supposed to tell apart the two texts that it is made of. -/
theorem label_keys_eq_iff (program : f.IsProgram) (tagged : f.Tagged)
    (known : files.lookup f.path = some f) {rule rule' : Rule} {settings settings' : RuleSettings}
    (label : rule ∈ labelRules) (label' : rule' ∈ labelRules)
    (found : t.violation ∈ rule.scan settings f) (found' : t'.violation ∈ rule'.scan settings' f)
    (on : RaisedOn f t.violation e) (on' : RaisedOn f t'.violation d)
    (query : t.query? sv files = some q) (query' : t'.query? sv files = some q')
    (apart : keyOfText (labelKeyText sv.locale f t.violation) =
        keyOfText (labelKeyText sv.locale f t'.violation) →
      labelKeyText sv.locale f t.violation = labelKeyText sv.locale f t'.violation) :
    q.key = q'.key ↔ t.violation.rule = t'.violation.rule ∧
      orUnknown (icon? t.violation) = orUnknown (icon? t'.violation) ∧
      Text.takeChars Violation.elementLimit e.text =
        Text.takeChars Violation.elementLimit d.text := by
  obtain ⟨e', finding⟩ := labelFinding_of_mem_scan label found
  obtain ⟨d', finding'⟩ := labelFinding_of_mem_scan label' found'
  cases finding.unique program.apart on
  cases finding'.unique program.apart on'
  have key := finding.key_eq known (path_of_mem_scan label found) query
  have key' := finding'.key_eq known (path_of_mem_scan label' found') query'
  rw [key, key', ← labelKeyText_eq_iff tagged finding finding']
  exact ⟨apart, congrArg keyOfText⟩

/-- Services that have nothing to write. -/
def silent : Services Unit where
  model := "m"
  write _ _ := (.ok { text := "" }, ())
  image _ _ _ _ := (.ok none, ())
  locale := "en"
  now := ""

/-- The turn of a violation before anything is cached. -/
def firstTurn (d : Storage.Disk) (v : Violation) : Turn Unit :=
  ⟨v, { state := (), disk := d, cache := { folder := "/cache" } }⟩

/-- A button and a link are looked up apart. -/
theorem label_keys_eq_iff_button :
    ∃ f ∈ SourceFile.parse "a.tsx" "<p><button/><a/></p>;", f.IsProgram ∧ f.Tagged ∧
      ∃ v ∈ buttonLabel.scan {} f, ∃ w ∈ linkLabel.scan {} f, ∃ q q',
        (firstTurn {} v).query? silent [(f.path, f)] = some q ∧
          (firstTurn {} w).query? silent [(f.path, f)] = some q' ∧ q.key ≠ q'.key := by
  have computed : ∃ f ∈ SourceFile.parse "a.tsx" "<p><button/><a/></p>;", f.IsProgram ∧ f.Tagged ∧
      ∃ v ∈ buttonLabel.scan {} f, ∃ w ∈ linkLabel.scan {} f,
        v.rule ≠ w.rule ∧ needsResolution v ∧ needsResolution w ∧
          labelKeyText "en" f v = "button-label:unknown:<button/>:A:en" ∧
          labelKeyText "en" f w = "link-label:unknown:<a/>:A:en" := by
    decide +kernel
  have apart : keyOfText "button-label:unknown:<button/>:A:en" ≠
      keyOfText "link-label:unknown:<a/>:A:en" := by
    decide +kernel
  obtain ⟨f, parsed, program, tagged, v, found, w, found', rules, needs, needs', text, text'⟩ :=
    computed
  rw [← text, ← text'] at apart
  have label : buttonLabel ∈ labelRules := List.mem_cons_self
  have label' : linkLabel ∈ labelRules := by simp [labelRules]
  have known : [(f.path, f)].lookup f.path = some f := by simp
  obtain ⟨e, finding⟩ := labelFinding_of_mem_scan label found
  obtain ⟨d, finding'⟩ := labelFinding_of_mem_scan label' found'
  obtain ⟨q, query⟩ := finding.exists_query (t := firstTurn {} v) known (path_of_mem_scan label found)
    needs
  obtain ⟨q', query'⟩ := finding'.exists_query (t := firstTurn {} w) known
    (path_of_mem_scan label' found') needs'
  refine ⟨f, parsed, program, tagged, v, found, w, found', q, q', query, query', fun same => ?_⟩
  have found : (firstTurn {} v).violation ∈ buttonLabel.scan {} f := found
  have found' : (firstTurn {} w).violation ∈ linkLabel.scan {} f := found'
  exact rules ((label_keys_eq_iff program tagged known label label' found found' finding.on
    finding'.on query query' fun same => absurd same apart).mp same).1

/-- A button that differs from others in what it does, and begins as they do. -/
def saveButton : String :=
  "<button className=\"flex h-9 items-center justify-center gap-2 rounded-md px-4 py-2\" " ++
  "onClick=\x7bsave\x7d/>"

/-- A button that begins in the same way. -/
def dropButton : String :=
  "<button className=\"flex h-9 items-center justify-center gap-2 rounded-md px-4 py-2\" " ++
  "onClick=\x7bdrop\x7d/>"

/-- Buttons of different texts share a key, whatever the digest, if they begin alike. -/
theorem label_keys_of_twins :
    ∃ f ∈ SourceFile.parse "a.tsx" ("<p>" ++ saveButton ++ dropButton ++ "</p>;"),
      ∃ v ∈ buttonLabel.scan {} f, ∃ w ∈ buttonLabel.scan {} f, ∃ e d,
        RaisedOn f v e ∧ RaisedOn f w d ∧ e.text ≠ d.text ∧
          labelKeyText "en" f v = labelKeyText "en" f w ∧ ∃ q q',
            (firstTurn {} v).query? silent [(f.path, f)] = some q ∧
              (firstTurn {} w).query? silent [(f.path, f)] = some q' ∧ q.key = q'.key := by
  have computed : ∃ f ∈ SourceFile.parse "a.tsx" ("<p>" ++ saveButton ++ dropButton ++ "</p>;"),
      (f.elements.map (·.anchor)).Nodup ∧
      ∃ v ∈ buttonLabel.scan {} f, ∃ w ∈ buttonLabel.scan {} f, ∃ e ∈ f.elements, ∃ d ∈ f.elements,
        v.anchor = some e.anchor ∧ v.tag = some e.tag ∧ w.anchor = some d.anchor ∧
          w.tag = some d.tag ∧ Text.slice f.bytes e.node.start e.node.stop = Text.utf8 saveButton ∧
          Text.slice f.bytes d.node.start d.node.stop = Text.utf8 dropButton ∧
          needsResolution v ∧ needsResolution w ∧ v.rule = w.rule ∧
          orUnknown (icon? v) = orUnknown (icon? w) := by
    decide +kernel
  have begin_alike : Text.takeChars Violation.elementLimit saveButton =
      Text.takeChars Violation.elementLimit dropButton := by
    decide +kernel
  have differ : saveButton ≠ dropButton := by decide +kernel
  obtain ⟨f, parsed, apart, v, found, w, found', e, mem, d, mem', anchor, tag, anchor', tag', bytes,
    bytes', needs, needs', rules, icons⟩ := computed
  have on : RaisedOn f v e := ⟨mem, anchor, tag⟩
  have on' : RaisedOn f w d := ⟨mem', anchor', tag'⟩
  have save := text_of_bytes mem bytes
  have drop := text_of_bytes mem' bytes'
  have label : buttonLabel ∈ labelRules := List.mem_cons_self
  have known : [(f.path, f)].lookup f.path = some f := by simp
  obtain ⟨e', finding⟩ := labelFinding_of_mem_scan label found
  obtain ⟨d', finding'⟩ := labelFinding_of_mem_scan label found'
  cases finding.unique apart on
  cases finding'.unique apart on'
  have same : labelKeyText "en" f v = labelKeyText "en" f w := by
    rw [labelKeyText, labelKeyText, rules, icons, finding.element, finding'.element, save, drop,
      begin_alike]
  have path := path_of_mem_scan label found
  have path' := path_of_mem_scan label found'
  obtain ⟨q, query⟩ := finding.exists_query (t := firstTurn {} v) known path needs
  obtain ⟨q', query'⟩ := finding'.exists_query (t := firstTurn {} w) known path' needs'
  have key := finding.key_eq (t := firstTurn {} v) known path query
  have key' := finding'.key_eq (t := firstTurn {} w) known path' query'
  refine ⟨f, parsed, v, found, w, found', e, d, on, on', by rwa [save, drop], same, q, q', query,
    query', ?_⟩
  exact key.trans ((congrArg keyOfText same).trans key'.symm)

end JsxAudit.Resolution
