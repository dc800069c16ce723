import JsxAudit.Proofs.Repair.Applicable
import JsxAudit.Proofs.Repair.Unwrap
import JsxAudit.Proofs.Rule.Metadata

/-!
Pages that are given a title.

The title goes into the metadata that the page exports, or, if the rule finds none, into a new
declaration behind the last import, which is the beginning of the file if there is no import. What
then is declared and what opens the file is compared with what was before: `fixOne?_metadataTitle`
says for which pages the result is a module with one declaration of the metadata and with its
directives in place.
-/

namespace JsxAudit.Syntax

/-- The node begins with a token of one byte and ends with one, as an object does. -/
def Node.isBraced (n : Node) : Bool :=
  match n.children.head?, n.children.getLast? with
  | some first, some last => first.stop = n.start + 1 && last.start + 1 = n.stop
  | _, _ => false

theorem Node.exists_braces {n : Node} (h : n.isBraced = true) :
    ∃ first ∈ n.children, ∃ last ∈ n.children,
      first.stop = n.start + 1 ∧ last.start + 1 = n.stop := by
  unfold isBraced at h
  split at h
  next first last head tail =>
    simp only [Bool.and_eq_true, decide_eq_true_eq] at h
    exact ⟨first, List.mem_of_mem_head? head, last, List.mem_of_getLast? tail, h.1, h.2⟩
  next => cases h

end JsxAudit.Syntax

namespace JsxAudit.Repair

open Source Audit Rule Syntax Text

variable {f g : SourceFile} {v : Violation} {x : Node} {settings : RuleSettings}
  {title : String}

/-! ### The place -/

/-- Where the title is written: behind the opening brace of the metadata, or, if there is none,
behind the last import or at the beginning. -/
inductive TitlePlace (f : SourceFile) : Nat → Prop
  | metadata {x : Node} : metadataObject? f = some x → TitlePlace f (x.start + 1)
  | imports {last : Node} : metadataObject? f = none → f.lastImport? = some last →
      TitlePlace f last.stop
  | top : metadataObject? f = none → f.lastImport? = none → TitlePlace f 0

theorem isText_replaceIn {s : Splice} (span : s.start ≤ s.stop) (stop : s.stop ≤ f.bytes.length)
    (left : IsCut f.text s.start) (right : IsCut f.text s.stop) :
    IsText (s.replaceIn f.bytes) := by
  have front := SourceFile.isText_slice (Nat.zero_le _) (by omega) (isCut_zero f.text) left
  have back := SourceFile.isText_slice stop (Nat.le_refl _) right (f.bytes_eq ▸ isCut_length f.text)
  rw [slice, List.drop_zero] at front
  rw [slice, List.take_length] at back
  exact (front.append (isText_utf8 _)).append back

section

variable (program : f.IsProgram)

include program

/-- Inside its braces the metadata can be cut on both sides, and no part of it reaches over the
opening brace. -/
theorem inside_braces (held : f.Holds x) (braced : x.isBraced = true) :
    IsCut f.text (x.start + 1) ∧ IsCut f.text (x.stop - 1) ∧ x.stop - 1 ≤ f.bytes.length ∧
      ∀ c ∈ x.children, ¬ c.Covers (x.start + 1) := by
  obtain ⟨first, mem, last, mem', opens, closes⟩ := Node.exists_braces braced
  have shaped := program.wellFormed held
  have begins := (Node.within_of_mem_children shaped mem).start_le
  have filled := program.start_lt_stop (held.child mem)
  have stop := program.stop_le held
  refine ⟨opens ▸ (program.isCut (held.child mem)).2, ?_, by omega, fun c child covers => ?_⟩
  · rw [show x.stop - 1 = last.start by omega]
    exact (program.isCut (held.child mem')).1
  · have within := Node.within_of_mem_children shaped child
    have start := within.start_le
    have other : first ≠ c := by
      rintro rfl
      exact absurd covers.2 (by omega)
    have before := covers.1
    have behind := covers.2
    rcases Node.apart_of_mem_children shaped mem child other with apart | apart
    · omega
    · omega

/-- There is one place for the title, where the text can be cut. -/
theorem exists_titleSplice (braced : ∀ x ∈ metadataObject? f, x.isBraced = true)
    (attr : v.fix.bind (·.attr) = some "title") (missing : hasTitle f = false) (title : String) :
    ∃ s, insertMetadata f v title = [s] ∧ TitlePlace f s.start ∧ IsText (s.replaceIn f.bytes) := by
  unfold insertMetadata
  rw [attr]
  dsimp only
  cases found : metadataObject? f with
  | some x =>
    obtain ⟨held, object⟩ := holds_of_metadataObject? found
    obtain ⟨left, right, inside, -⟩ := inside_braces program held (braced x found)
    obtain ⟨s, mem, rfl⟩ := held
    have braces := program.braced s mem object
    dsimp only
    rw [not_isSet_of_hasTitle missing found, if_neg Bool.false_ne_true]
    split
    · exact ⟨_, rfl, .metadata found, isText_replaceIn (by dsimp only; omega) inside left right⟩
    · exact ⟨_, rfl, .metadata found,
        isText_replaceIn (Nat.le_refl _) (by dsimp only; omega) left left⟩
  | none =>
    dsimp only
    split
    next last imported =>
      have held := SourceFile.holds_of_lastImport? imported
      have cut := (program.isCut held).2
      exact ⟨_, rfl, .imports found imported,
        isText_replaceIn (Nat.le_refl _) (program.stop_le held) cut cut⟩
    next none =>
      have cut := isCut_zero f.text
      exact ⟨_, rfl, .top found none, isText_replaceIn (Nat.le_refl _) (Nat.zero_le _) cut cut⟩

end

/-! ### The module with the title -/

/-- The statement exports metadata with a title, and declares nothing else. -/
def declaresTitle (g : SourceFile) (n : Node) : Bool :=
  n.kind = .exportStatement && g.boundNames n = ["metadata"] &&
    (metadataIn? g [n]).any fun x => x.namedChildren.any (isTitle g)

/-- What a file is given as a title: a part of its metadata, or a declaration if it has none. -/
def isAddition (f g : SourceFile) (news : List Node) : Bool :=
  match metadataObject? f with
  | some _ => news.any (isTitle g)
  | none =>
    match news with
    | [n] => declaresTitle g n
    | _ => false

/-- The second file is read as the first one with the title at the offset. -/
def Titled (f g : SourceFile) (offset : Nat) : Prop :=
  InsertedAll f g offset (isAddition f g) f.root.children g.root.children

instance (f g : SourceFile) (offset : Nat) : Decidable (Titled f g offset) :=
  inferInstanceAs (Decidable (InsertedAll ..))

/-- Either the metadata is declared once and the title can go into it, or nothing is called like it
and no directive is in the way of a declaration. -/
def takesTitle (f : SourceFile) : Prop :=
  match metadataObject? f with
  | some _ => f.declaredNames.count "metadata" = 1
  | none => "metadata" ∉ f.declaredNames ∧ (f.lastImport?.isSome ∨ f.prologue = [])

instance (f : SourceFile) : Decidable (takesTitle f) := by
  unfold takesTitle
  split
  · infer_instance
  · infer_instance

theorem isNamed_of_isTitle {n : Node} (h : isTitle g n = true) : n.kind.isNamed = true := by
  unfold isTitle at h
  split at h
  next kind => rw [kind]; rfl
  next kind => rw [kind]; rfl
  next => cases h

section

variable (program : f.IsProgram)

include program

/-- In metadata that is there already the title is found, and nothing else changes. -/
theorem Titled.of_metadata (found : metadataObject? f = some x) (braced : x.isBraced = true)
    (titled : Titled f g (x.start + 1)) :
    hasTitle g = true ∧ g.declaredNames = f.declaredNames ∧ g.prologue = f.prologue := by
  obtain ⟨held, object⟩ := holds_of_metadataObject? found
  obtain ⟨-, -, -, outside⟩ := inside_braces program held braced
  have covers : x.Covers (x.start + 1) := by
    obtain ⟨s, mem, rfl⟩ := held
    have braces := program.braced s mem object
    unfold Node.Covers
    omega
  -- the search takes the same way through both files, and ends in the object with the title
  obtain ⟨e, mem, way⟩ := Passed.of_metadataIn? found covers
  have grown := Grown.all_of_passed program.nested mem way titled
  have same := Grown.metadataIn? grown
  rw [← metadataObject?_eq, ← metadataObject?_eq, found] at same
  refine ⟨?_, Grown.flatMap_boundNames grown, Grown.directives grown⟩
  unfold hasTitle
  generalize metadataObject? g = other at same
  cases same with
  | some both =>
    obtain ⟨-, -, inserted⟩ := (inserted_of_covers covers).mp both.inserted
    obtain ⟨-, -, front, news, back, -, parts, new, -⟩ :=
      exists_insertion (Node.ordered_children both.wellFormed) outside inserted
    unfold isAddition at new
    rw [found] at new
    obtain ⟨part, mem, set⟩ := List.any_eq_true.mp new
    rw [Option.any_some, List.any_eq_true]
    refine ⟨part, List.mem_filter.mpr ⟨?_, isNamed_of_isTitle set⟩, set⟩
    rw [parts]
    exact List.mem_append_left _ (List.mem_append_right _ mem)

/-- An import ends where no other statement goes on. -/
theorem outside_import {last : Node} (imported : f.lastImport? = some last) :
    ∀ c ∈ f.root.children, ¬ c.Covers last.stop := by
  intro c mem
  have statement := (List.mem_filter.mp (List.mem_of_getLast? imported)).1
  have mem' := Node.mem_children_of_mem_namedChildren statement
  have span := program.start_lt_stop (SourceFile.holds_of_mem_children mem')
  rw [Node.not_covers_iff]
  by_cases same : c = last
  · exact .inl (Nat.le_of_eq (congrArg Node.stop same))
  · rcases Node.apart_of_mem_children program.nested mem mem' same with before | behind
    · exact .inl (by omega)
    · exact .inr behind

/-- A new declaration stands between statements that stay as they are. -/
theorem Titled.exists_declaration {offset : Nat} (none : metadataObject? f = none)
    (outside : ∀ c ∈ f.root.children, ¬ c.Covers offset) (titled : Titled f g offset) :
    ∃ xs ys front n back, f.root.children = xs ++ ys ∧ g.root.children = front ++ ([n] ++ back) ∧
      declaresTitle g n = true ∧ List.Forall₂ (Grown f g offset (isAddition f g)) xs front ∧
      List.Forall₂ (Grown f g offset (isAddition f g)) ys back ∧
      (∀ x ∈ xs, x.stop ≤ offset) ∧ ∀ y ∈ ys, offset ≤ y.start := by
  obtain ⟨xs, ys, front, news, back, split, joined, new, left, right, before, behind⟩ :=
    exists_insertion (Node.ordered_children program.nested) outside titled
  have shaped {c : Node} (mem : c ∈ f.root.children) : c.WellFormed :=
    (Node.within_of_mem_children program.nested mem).wellFormed
  have inFront {c : Node} (mem : c ∈ xs) : c ∈ f.root.children := by simp [split, mem]
  have inBack {c : Node} (mem : c ∈ ys) : c ∈ f.root.children := by simp [split, mem]
  unfold isAddition at new
  rw [none] at new
  dsimp only at new
  split at new
  next n =>
    exact ⟨xs, ys, front, n, back, split, by rw [joined, List.append_assoc], new,
      Grown.all_of_copied (fun c mem => shaped (inFront mem)) (fun c mem => outside c (inFront mem))
        left,
      Grown.all_of_copied (fun c mem => shaped (inBack mem)) (fun c mem => outside c (inBack mem))
        right, before, behind⟩
  next => cases new

/-- A new declaration is found by the search, and is one more of the name. -/
theorem Titled.of_none {offset : Nat} (none : metadataObject? f = none)
    (outside : ∀ c ∈ f.root.children, ¬ c.Covers offset) (titled : Titled f g offset) :
    hasTitle g = true ∧
      g.declaredNames.count "metadata" = f.declaredNames.count "metadata" + 1 := by
  obtain ⟨xs, ys, front, n, back, split, joined, declared, left, right, -⟩ :=
    titled.exists_declaration program none outside
  simp only [declaresTitle, Bool.and_eq_true, decide_eq_true_eq, Option.any_eq_true] at declared
  obtain ⟨⟨-, names⟩, x, found, set⟩ := declared
  constructor
  · -- nothing is found in front of the declaration, as nothing was found there before
    rw [metadataObject?_eq, split, metadataIn?_append, Option.or_eq_none_iff] at none
    have before := isSome_eq_of_rel (Grown.metadataIn? left)
    rw [none.1, eq_comm, Option.isSome_none, Option.isSome_eq_false_iff, Option.isNone_iff_eq_none]
      at before
    rw [hasTitle, metadataObject?_eq, joined, metadataIn?_append, metadataIn?_append, before, found,
      Option.none_or, Option.some_or, Option.any_some, set]
  · rw [SourceFile.declaredNames, SourceFile.declaredNames, split, joined, List.flatMap_append,
      List.flatMap_append, List.flatMap_append, List.flatMap_singleton, names,
      Grown.flatMap_boundNames left, Grown.flatMap_boundNames right, List.count_append,
      List.count_append, List.count_append, List.count_singleton_self]
    omega

/-- Behind an import a new declaration comes after the directives. -/
theorem Titled.prologue_eq {last : Node} (none : metadataObject? f = none)
    (imported : f.lastImport? = some last) (titled : Titled f g last.stop) :
    g.prologue = f.prologue := by
  obtain ⟨statement, kind⟩ := List.mem_filter.mp (List.mem_of_getLast? imported)
  have mem := Node.mem_children_of_mem_namedChildren statement
  have filled := program.start_lt_stop (SourceFile.holds_of_mem_children mem)
  obtain ⟨xs, ys, front, n, back, split, joined, -, left, -, -, behind⟩ :=
    titled.exists_declaration program none (outside_import program imported)
  have inFront : last ∈ xs := by
    rw [split] at mem
    refine (List.mem_append.mp mem).resolve_right fun late => ?_
    have := behind last late
    omega
  have ends : xs.any (·.endsPrologue) = true := by
    refine List.any_eq_true.mpr ⟨last, inFront, ?_⟩
    simp [Node.endsPrologue, Node.isDirective, Kind.isRemark, decide_eq_true_iff.mp kind]
  rw [SourceFile.prologue, SourceFile.prologue, split, joined,
    SourceFile.directives_append ends, SourceFile.directives_append, Grown.directives left]
  rw [Grown.any_endsPrologue left, ends]

/-- At the beginning a new declaration stands before the directives, so that there are none. -/
theorem Titled.prologue_eq_nil (none : metadataObject? f = none) (titled : Titled f g 0) :
    g.prologue = [] := by
  have outside (c : Node) (_ : c ∈ f.root.children) : ¬ c.Covers 0 :=
    Node.not_covers_iff.mpr (.inr (Nat.zero_le _))
  obtain ⟨xs, ys, front, n, back, split, joined, declared, left, -, before, -⟩ :=
    titled.exists_declaration program none outside
  have empty : xs = [] := by
    refine List.eq_nil_iff_forall_not_mem.mpr fun c mem => ?_
    have held := SourceFile.holds_of_mem_children (f := f) (c := c) (by simp [split, mem])
    have filled := program.start_lt_stop held
    have nothing := before c mem
    omega
  rw [empty, List.forall₂_nil_left_iff] at left
  simp only [declaresTitle, Bool.and_eq_true, decide_eq_true_eq] at declared
  have ends : [n].any (·.endsPrologue) = true := by
    simp [Node.endsPrologue, Node.isDirective, Kind.isRemark, declared.1.1]
  rw [SourceFile.prologue, joined, left, List.nil_append, SourceFile.directives_append ends]
  simp [SourceFile.directives, Node.isDirective, Kind.isRemark, declared.1.1]

/-- The title is in the module, and the rest depends on whether the module takes a title. -/
theorem Titled.outcome {offset : Nat} (braced : ∀ x ∈ metadataObject? f, x.isBraced = true)
    (place : TitlePlace f offset) (titled : Titled f g offset) :
    hasTitle g = true ∧ (g.declaredNames.count "metadata" = 1 ∧ g.prologue = f.prologue ↔
      takesTitle f) := by
  unfold takesTitle
  cases place with
  | metadata found =>
    obtain ⟨given, names, opening⟩ := titled.of_metadata program found (braced _ found)
    rw [found, names]
    exact ⟨given, and_iff_left opening⟩
  | imports none imported =>
    obtain ⟨given, names⟩ := titled.of_none program none (outside_import program imported)
    rw [none, names, imported]
    refine ⟨given, ?_⟩
    simp [titled.prologue_eq program none imported, List.count_eq_zero]
  | top none free =>
    obtain ⟨given, names⟩ := titled.of_none program none fun c _ =>
      Node.not_covers_iff.mpr (.inr (Nat.zero_le _))
    rw [none, names, free, titled.prologue_eq_nil program none]
    refine ⟨given, ?_⟩
    simp [List.count_eq_zero, @eq_comm _ [] f.prologue]

end

/-! ### Reported pages -/

/-- For every page that is reported to have no title, whatever title it is to get, the fix writes
one text, and leads to what the parser makes of it. Whenever the parser reads the text as the page
with the title at its place, the metadata of the page has a title. It is declared once, and the page
is opened by the directives that opened it before, if and only if the page takes a title. -/
theorem fixOne?_metadataTitle (program : f.IsProgram)
    (braced : ∀ x ∈ metadataObject? f, x.isBraced = true)
    (reported : v ∈ metadataTitle.scan settings f) (real : title ≠ Deferred.placeholder)
    (parser : TreeParser) :
    ∃ s text, insertMetadata f v title = [s] ∧ utf8 text = s.replaceIn f.bytes ∧
      fixOne? parser f { v with fix := v.fix.map (·.withText title) } =
        .ok (SourceFile.parseWith parser f.path text) ∧
      ∀ g ∈ SourceFile.parseWith parser f.path text, Titled f g s.start →
        hasTitle g = true ∧ (g.declaredNames.count "metadata" = 1 ∧ g.prologue = f.prologue ↔
          takesTitle f) := by
  obtain ⟨missing, message, eq⟩ := metadataTitle_cases reported
  have given : v.fix = some (titleFix f) := by rw [eq]; rfl
  have attr : v.fix.bind (·.attr) = some "title" := by rw [given]; rfl
  obtain ⟨s, edit, place, text, written⟩ := exists_titleSplice program braced attr missing title
  refine ⟨s, text, edit, written, ?_, fun g _ titled => titled.outcome program braced place⟩
  refine fixOne?_eq ((titleFix f).withText title) title text [s] ?_ ?_ ?_ (List.cons_ne_nil _ _) ?_
  · rw [given]
    rfl
  · simp [Deferred.resolve, Deferred.resolveValue, Fix.withText, real]
  · subst eq
    exact edit
  · rw [Splice.spliced?_singleton, ← written, decode?_utf8]

/-- A page with a directive and no imports, whose metadata is declared in front of the directive. -/
theorem fixOne?_metadataTitle_directive :
    let page := "\"use client\";\nexport default () => <p/>;\n"
    let written := "export const metadata = \x7b title: \"Home\" \x7d;\n\n" ++ page
    ∃ f ∈ SourceFile.parse "app/page.tsx" page, ∃ v ∈ metadataTitle.scan {} f,
      fixOne? Syntax.parse f { v with fix := v.fix.map (·.withText "Home") } =
        .ok (SourceFile.parse "app/page.tsx" written) ∧
      ∃ g ∈ SourceFile.parse "app/page.tsx" written, hasTitle g = true ∧
        g.declaredNames.count "metadata" = 1 ∧ g.prologue ≠ f.prologue := by
  intro page written
  have found : ∃ f ∈ SourceFile.parse "app/page.tsx" page, f.path = "app/page.tsx" ∧
      f.IsProgram ∧ (∀ x ∈ metadataObject? f, x.isBraced = true) ∧
      ∃ v ∈ metadataTitle.scan {} f,
        (∀ s ∈ insertMetadata f v "Home", s.replaceIn f.bytes = utf8 written) ∧
        ∃ g ∈ SourceFile.parse "app/page.tsx" written,
          (∀ s ∈ insertMetadata f v "Home", Titled f g s.start) ∧
          g.declaredNames.count "metadata" = 1 ∧ ¬ takesTitle f := by
    decide +kernel
  have real : "Home" ≠ Deferred.placeholder := by decide
  obtain ⟨f, parsed, path, program, braced, v, reported, replaced, g, read, titled, once, barred⟩ :=
    found
  obtain ⟨s, text, edit, bytes, fixed, outcome⟩ :=
    fixOne?_metadataTitle program braced reported real Syntax.parse
  rw [edit] at replaced titled
  obtain rfl : text = written :=
    utf8_injective (bytes.trans (replaced s (List.mem_singleton_self s)))
  rw [path] at fixed outcome
  obtain ⟨given, kept⟩ := outcome g read (titled s (List.mem_singleton_self s))
  refine ⟨f, parsed, v, reported, fixed, g, read, given, once, fun same => ?_⟩
  exact barred (kept.mp ⟨once, same⟩)

end JsxAudit.Repair
