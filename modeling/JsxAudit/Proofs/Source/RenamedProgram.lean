import JsxAudit.Proofs.Source.RenamedElement
import JsxAudit.Rule.Page

/-!
What a file imports and exports, before and after a name is replaced.

The imports bind the same things, one of them perhaps under the new name (`RenamedFile.imports`). The
exports have names that read alike, so that the component of a page does as well, and metadata has a
title before if and only if it has one afterwards.
-/

namespace JsxAudit

open Syntax

namespace Source

variable {r : Renaming} {f f' : SourceFile} {n n' : Node}

/-! ### Imports -/

/-- The module of a binding is the one it is asked for. -/
theorem specifierBinding?_eq (f : SourceFile) (module : String) (n : Node) :
    f.specifierBinding? module n =
      (f.specifierBinding? "" n).map fun b => { b with module := module } := by
  unfold SourceFile.specifierBinding?
  cases n.child? .name with
  | none => rfl
  | some name => rfl

theorem Renamed.specifierBinding? (h : Renamed r f f' n n') (kind : n.kind = .importSpecifier)
    (module : String) :
    Option.Rel r.Binds (f.specifierBinding? module n) (f'.specifierBinding? module n') := by
  rw [specifierBinding?_eq, specifierBinding?_eq f']
  exact rel_map_option (h.alike.specifier kind) fun b b' binds =>
    ⟨rfl, binds.imported, binds.name⟩

theorem Renamed.clauseBindings (h : Renamed r f f' n n') (module : String) :
    List.Forall₂ r.Binds (f.clauseBindings module n) (f'.clauseBindings module n') := by
  unfold SourceFile.clauseBindings
  rw [h.kind]
  cases kind : n.kind with
  | identifier => exact .cons ⟨rfl, rfl, h.alike.identifier kind⟩ .nil
  | namespaceImport =>
    have shown : n.isClosable = false := Node.isClosable_of_kind (by rw [kind]; rfl)
    have names := rel_filter (p := (·.kind = .identifier)) (q := (·.kind = .identifier))
      (h.namedChildren shown (by rw [kind]; decide)) fun c c' child => by rw [child.kind]
    exact rel_map names fun c c' ⟨is, child⟩ =>
      ⟨rfl, rfl, child.alike.identifier (of_decide_eq_true is)⟩
  | namedImports =>
    have shown : n.isClosable = false := Node.isClosable_of_kind (by rw [kind]; rfl)
    have specifiers := rel_filter (p := (·.kind = .importSpecifier))
      (q := (·.kind = .importSpecifier)) (h.namedChildren shown (by rw [kind]; decide))
      fun c c' child => by rw [child.kind]
    exact rel_filterMap specifiers fun c c' ⟨is, child⟩ =>
      child.specifierBinding? (of_decide_eq_true is) module
  | _ => exact .nil

theorem Renamed.statementBindings (h : Renamed r f f' n n') (kind : n.kind = .importStatement) :
    List.Forall₂ r.Binds (f.statementBindings n) (f'.statementBindings n') := by
  have shown : n.isClosable = false := Node.isClosable_of_kind (by rw [kind]; rfl)
  have source := h.child? shown .source
  unfold SourceFile.statementBindings
  generalize n.child? .source = a at source
  generalize n'.child? .source = b at source
  cases source with
  | none => exact .nil
  | @some a b related =>
    dsimp only
    rw [related.stringValue?]
    have clauses := rel_filter (p := (·.kind = .importClause))
      (q := (·.kind = .importClause)) (h.namedChildren shown (by rw [kind]; decide))
      fun c c' child => by rw [child.kind]
    refine rel_flatMap clauses fun c c' ⟨is, clause⟩ => ?_
    have is := of_decide_eq_true is
    have open' : c.isClosable = false := Node.isClosable_of_kind (by rw [is]; rfl)
    exact rel_flatMap (clause.namedChildren open' (by rw [is]; decide)) fun d d' part =>
      part.clauseBindings _

namespace RenamedFile

variable (h : RenamedFile r f f')

include h

theorem root_namedChildren :
    List.Forall₂ (Renamed r f f') f.root.namedChildren f'.root.namedChildren :=
  h.tree.namedChildren (Node.isClosable_of_kind (by rw [h.program]; rfl))
    (by rw [h.program]; decide)

theorem imports : List.Forall₂ r.Binds f.imports f'.imports := by
  have statements := rel_filter (p := (·.kind = .importStatement))
    (q := (·.kind = .importStatement)) h.root_namedChildren fun c c' child => by rw [child.kind]
  exact rel_flatMap statements fun c c' ⟨is, child⟩ =>
    child.statementBindings (of_decide_eq_true is)

/-- What is imported from a module by default has a name before and afterwards, or at neither
time. -/
theorem localDefault? (module name : String) :
    Option.Rel r.Names (f.localDefault? module name) (f'.localDefault? module name) := by
  have bindings : List.Forall₂ r.Binds (f.importsFrom module) (f'.importsFrom module) :=
    (rel_filter h.imports fun b b' binds => by rw [binds.module]).imp fun _ _ both => both.2
  have found := rel_find? bindings (p := fun b => b.imported = "default" || b.imported = name)
    (q := fun b => b.imported = "default" || b.imported = name)
    fun b b' binds => by rw [binds.imported]
  exact rel_map_option found fun b b' both => both.2.name

/-! ### Exports -/

theorem exportStatements :
    List.Forall₂ (fun n n' => n.kind = .exportStatement ∧ Renamed r f f' n n')
      f.exportStatements f'.exportStatements :=
  (rel_filter (p := (·.kind = .exportStatement)) (q := (·.kind = .exportStatement))
    h.root_namedChildren fun c c' child => by rw [child.kind]).imp
      fun _ _ both => ⟨of_decide_eq_true both.1, both.2⟩

end RenamedFile

/-- Exports that say the same, with names that read alike. -/
inductive ExportAlike (r : Renaming) : PageContext.Export → PageContext.Export → Prop
  | ofDefault {name name' : Option String} :
    Option.Rel r.Reads name name' → ExportAlike r (.default name) (.default name')
  | ofFunction {name name' : String} :
    r.Reads name name' → ExportAlike r (.function name) (.function name')
  | ofVariable {name name' : String} :
    r.Reads name name' → ExportAlike r (.variable name) (.variable name')
  | other : ExportAlike r .other .other

/-- A name of a declaration, read before and afterwards. -/
theorem Renamed.nameText (h : Renamed r f f' n n') (shown : n.isClosable = false) :
    Option.Rel r.Reads ((n.child? .name).map f.nodeText) ((n'.child? .name).map f'.nodeText) :=
  rel_map_option (h.child? shown .name) fun _ _ name => name.reads

theorem ne_object_of_declaration (h : isVariableDeclaration n.kind = true) : n.kind ≠ .object := by
  intro object
  rw [object] at h
  cases h

theorem exportOf_alike (h : Renamed r f f' n n') (kind : n.kind = .exportStatement) :
    ExportAlike r (PageContext.Export.of f n) (PageContext.Export.of f' n') := by
  have shown : n.isClosable = false := Node.isClosable_of_kind (by rw [kind]; rfl)
  have default := any_eq_of_rel (h.children shown (by rw [kind]; decide))
    (p := (·.kind = .token "default")) (q := (·.kind = .token "default"))
    fun c c' child => by rw [child.kind]
  have declaration := h.openChild? shown .declaration rfl
  have value := h.openChild? shown .value rfl
  unfold PageContext.Export.of
  dsimp only
  rw [← default]
  generalize n.child? .declaration = a at declaration ⊢
  generalize n'.child? .declaration = a' at declaration ⊢
  generalize n.child? .value = b at value ⊢
  generalize n'.child? .value = b' at value ⊢
  split
  · have target := rel_or declaration value
    generalize a.or b = t at target ⊢
    generalize a'.or b' = t' at target ⊢
    cases target with
    | none => exact .ofDefault .none
    | @some t t' related =>
      obtain ⟨open', renamed⟩ := related
      dsimp only
      rw [renamed.kind]
      split
      · exact .ofDefault (.some renamed.reads)
      · exact .ofDefault (renamed.nameText open')
  · cases declaration with
    | none => exact .other
    | @some d d' related =>
      obtain ⟨open', renamed⟩ := related
      dsimp only
      rw [renamed.kind]
      split
      · exact rel_getD (rel_map_option (renamed.child? open' .name) fun _ _ name =>
          .ofFunction name.reads) .other
      · split
        · rename_i declares
          have found := rel_find? (renamed.namedChildren open' (ne_object_of_declaration declares))
            (p := (·.kind = .variableDeclarator)) (q := (·.kind = .variableDeclarator))
            fun c c' child => by rw [child.kind]
          generalize d.namedChildren.find? _ = v at found ⊢
          generalize d'.namedChildren.find? _ = v' at found ⊢
          cases found with
          | none => exact .other
          | @some v v' related =>
            obtain ⟨kind, renamed⟩ := related
            have shown : v.isClosable = false :=
              Node.isClosable_of_kind (by rw [of_decide_eq_true kind]; rfl)
            exact rel_getD (rel_map_option (renamed.child? shown .name) fun _ _ name =>
              .ofVariable name.reads) .other
        · exact .other

namespace RenamedFile

variable (h : RenamedFile r f f')

include h

/-- The names of the component of a page read alike. -/
theorem componentOf : r.Reads (PageContext.componentOf f) (PageContext.componentOf f') := by
  have stem : r.Reads (Text.capitalize (Text.pathStem f.path))
      (Text.capitalize (Text.pathStem f'.path)) := by
    rw [h.path]
    exact Renaming.Reads.refl _
  have exports : List.Forall₂ (ExportAlike r) (f.exportStatements.map (PageContext.Export.of f))
      (f'.exportStatements.map (PageContext.Export.of f')) :=
    rel_map h.exportStatements fun n n' ⟨kind, renamed⟩ => exportOf_alike renamed kind
  unfold PageContext.componentOf
  dsimp only
  refine rel_getD (rel_or (rel_or ?_ ?_) ?_) stem
  · refine rel_findSome? exports fun _ _ alike => ?_
    cases alike with
    | ofDefault name => exact name
    | _ => exact .none
  · refine rel_findSome? exports fun _ _ alike => ?_
    cases alike with
    | ofFunction name => exact .some name
    | _ => exact .none
  · refine rel_findSome? exports fun _ _ alike => ?_
    cases alike with
    | ofVariable name => exact .some name
    | _ => exact .none

/-! ### Metadata -/

theorem exportedDeclarations :
    List.Forall₂ (fun n n' => n.isClosable = false ∧ Renamed r f f' n n')
      f.exportedDeclarations f'.exportedDeclarations :=
  rel_filterMap h.exportStatements fun n n' ⟨kind, renamed⟩ =>
    renamed.openChild? (Node.isClosable_of_kind (by rw [kind]; rfl)) .declaration rfl

theorem exportedVariables :
    List.Forall₂ (fun n n' => n.isClosable = false ∧ Renamed r f f' n n')
      (Rule.exportedVariables f) (Rule.exportedVariables f') := by
  have declarations := rel_filter h.exportedDeclarations
    (p := fun d => isVariableDeclaration d.kind) (q := fun d => isVariableDeclaration d.kind)
    fun d d' related => by rw [related.2.kind]
  refine rel_flatMap declarations fun d d' ⟨declares, open', renamed⟩ => ?_
  have declarators := rel_filter (renamed.namedChildren open' (ne_object_of_declaration declares))
    (p := (·.kind = .variableDeclarator)) (q := (·.kind = .variableDeclarator))
    fun c c' child => by rw [child.kind]
  exact declarators.imp fun v v' ⟨kind, renamed⟩ =>
    ⟨Node.isClosable_of_kind (by rw [of_decide_eq_true kind]; rfl), renamed⟩

end RenamedFile

/-- The name of a declaration is a given one that is neither the old nor the new one. -/
theorem Renamed.isNamed (h : Renamed r f f' n n') (shown : n.isClosable = false) {name : String}
    (free : r.IsFree (Text.pieces name.toList)) :
    Rule.isNamed f' name n' = Rule.isNamed f name n := by
  have found := h.child? shown .name
  unfold Rule.isNamed
  generalize n.child? .name = a at found ⊢
  generalize n'.child? .name = b at found ⊢
  cases found with
  | none => simp only [Option.any_none]
  | some named =>
    rw [Option.any_some, Option.any_some, decide_eq_decide]
    exact (named.reads.eq_iff free).symm

theorem isTitle_of_pair (kind : n.kind = .pair) :
    Rule.isTitle f n = (n.child? .key).any fun key =>
      Text.trimMatching isQuote (f.nodeText key) = "title" := by
  unfold Rule.isTitle
  rw [kind]

theorem isTitle_of_shorthand (kind : n.kind = .shorthandProperty) :
    Rule.isTitle f n = (f.nodeText n = "title" : Bool) := by
  unfold Rule.isTitle
  rw [kind]

theorem isTitle_of_other (pair : n.kind ≠ .pair) (shorthand : n.kind ≠ .shorthandProperty) :
    Rule.isTitle f n = false := by
  unfold Rule.isTitle
  split
  · exact absurd ‹n.kind = .pair› pair
  · exact absurd ‹n.kind = .shorthandProperty› shorthand
  · rfl

theorem isQuote_cases {c : Char} (h : isQuote c = true) : c = '"' ∨ c = Char.ofNat 39 := by
  simpa [isQuote] using h

theorem isQuote_of_isNameChar (c : Char) (name : isNameChar c = true) : isQuote c = false := by
  by_contra quote
  rcases isQuote_cases (by simpa using quote) with rfl | rfl
  · exact absurd name (by decide)
  · exact absurd name (by decide)

/-- The key of a pair is the word `title` before if and only if it is afterwards. -/
theorem isTitleText_iff {s s' : String} (h : r.Reads s s') :
    Text.trimMatching isQuote s = "title" ↔ Text.trimMatching isQuote s' = "title" := by
  refine h.trimMatching_iff (fun c quote => ?_) (by decide)
  rcases isQuote_cases quote with rfl | rfl
  · decide
  · decide

/-- A part of metadata sets the title before if and only if it does so afterwards. A property that
becomes a pair keeps its key, and that is no title. -/
theorem isTitle_eq {inObject : Bool} (h : Parts r f f' inObject n n') :
    Rule.isTitle f n = Rule.isTitle f' n' := by
  rcases h with renamed | ⟨-, turned⟩
  · have kind' := renamed.kind
    by_cases pair : n.kind = .pair
    · have shown : n.isClosable = false := Node.isClosable_of_kind (by rw [pair]; rfl)
      have key := renamed.child? shown .key
      rw [isTitle_of_pair pair, isTitle_of_pair (kind'.trans pair)]
      generalize n.child? .key = a at key ⊢
      generalize n'.child? .key = b at key ⊢
      cases key with
      | none => simp only [Option.any_none]
      | some named =>
        rw [Option.any_some, Option.any_some, decide_eq_decide]
        exact isTitleText_iff named.reads
    · by_cases shorthand : n.kind = .shorthandProperty
      · rw [isTitle_of_shorthand shorthand, isTitle_of_shorthand (kind'.trans shorthand),
          decide_eq_decide]
        exact renamed.reads.eq_iff (Renaming.isFree_of_no_capital (by decide))
      · rw [isTitle_of_other pair shorthand,
          isTitle_of_other (kind'.symm ▸ pair) (kind'.symm ▸ shorthand)]
  · rw [isTitle_of_shorthand turned.kind, isTitle_of_pair turned.kind', turned.text]
    have key := turned.key
    cases eq : n'.child? .key with
    | none =>
      rw [eq] at key
      cases key
    | some k =>
      rw [eq, Option.map_some, Option.some_inj] at key
      rw [Option.any_some, key, r.old_isComponentName.trimMatching_eq isQuote_of_isNameChar]

/-- The parts of an object that set a title are at the same places. -/
theorem any_isTitle_eq (h : Renamed r f f' n n') (object : n.kind = .object) :
    n.namedChildren.any (Rule.isTitle f) = n'.namedChildren.any (Rule.isTitle f') :=
  any_eq_of_rel (h.namedParts (Node.isClosable_of_kind (by rw [object]; rfl)))
    fun _ _ part => isTitle_eq part

namespace RenamedFile

variable (h : RenamedFile r f f')

include h

theorem metadataObject? :
    Option.Rel (fun n n' => n.kind = .object ∧ Renamed r f f' n n')
      (Rule.metadataObject? f) (Rule.metadataObject? f') := by
  refine rel_findSome? h.exportedVariables fun v v' ⟨shown, renamed⟩ => ?_
  refine rel_bind (renamed.child? shown .value) fun value value' inside => ?_
  have inner := inside.unwrapThrough (p := Rule.isWrapper) fun k is => by
    simp only [Rule.isWrapper, Bool.or_eq_true, decide_eq_true_eq] at is
    rcases is with (rfl | rfl) | rfl <;> decide
  have named : Rule.isNamed f' "metadata" v' = Rule.isNamed f "metadata" v :=
    renamed.isNamed shown (Renaming.isFree_of_heads (by decide))
  dsimp only
  rw [named, inner.kind]
  split
  · rename_i both
    rw [Bool.and_eq_true, decide_eq_true_eq] at both
    exact .some ⟨both.2, inner⟩
  · exact .none

theorem hasTitle : Rule.hasTitle f' = Rule.hasTitle f := by
  have metadata := h.metadataObject?
  unfold Rule.hasTitle
  generalize Rule.metadataObject? f = a at metadata ⊢
  generalize Rule.metadataObject? f' = b at metadata ⊢
  cases metadata with
  | none => simp only [Option.any_none]
  | some both => rw [Option.any_some, Option.any_some, any_isTitle_eq both.2 both.1]

theorem exportsGenerator : Rule.exportsGenerator f' = Rule.exportsGenerator f := by
  have free : r.IsFree (Text.pieces "generateMetadata".toList) :=
    Renaming.isFree_of_heads (by decide)
  have declared := any_eq_of_rel h.exportedDeclarations
    (p := fun d => d.kind = .functionDeclaration && Rule.isNamed f "generateMetadata" d)
    (q := fun d => d.kind = .functionDeclaration && Rule.isNamed f' "generateMetadata" d)
    fun d d' ⟨shown, renamed⟩ => by rw [renamed.isNamed shown free, renamed.kind]
  have assigned := any_eq_of_rel h.exportedVariables (p := Rule.isNamed f "generateMetadata")
    (q := Rule.isNamed f' "generateMetadata")
    fun v v' ⟨shown, renamed⟩ => (renamed.isNamed shown free).symm
  rw [Rule.exportsGenerator, Rule.exportsGenerator, declared, assigned]

end RenamedFile

end Source

end JsxAudit
