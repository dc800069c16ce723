import JsxAudit.Proofs.Source.RenamedElement
import JsxAudit.Label.LoopVariable

/-!
The variable that tells repeated controls apart, before and after a name is replaced.

The function that renders the items of a list and the name of the item correspond, and so do the
accesses to the item in it: behind the item they say the same (`AccessAlike`). The best of them is
chosen by what it says there, so that the choices correspond (`find?_alike`).
-/

namespace JsxAudit.Label.LoopVariable

open Syntax Source

variable {r : Renaming} {f f' : SourceFile} {n n' : Node} {item item' : String}

/-! ### The enclosing callback -/

theorem isIterated_eq {above above' : List Node}
    (h : List.Forall₂ (Renamed r f f') above above') : isIterated f above = isIterated f' above' := by
  cases h with
  | nil => rfl
  | @cons arguments arguments' _ _ first rest =>
    cases rest with
    | nil => rfl
    | @cons call call' _ _ second _ =>
      rw [isIterated, isIterated, first.kind, second.kind]
      by_cases kind : call.kind = .call
      · have shown : call.isClosable = false := Node.isClosable_of_kind (by rw [kind]; rfl)
        have callee := second.child? shown .callee
        congr 1
        generalize call.child? .callee = a at callee ⊢
        generalize call'.child? .callee = b at callee ⊢
        cases callee with
        | none => simp only [Option.any_none]
        | some named =>
          rw [Option.any_some, Option.any_some]
          have ends (method : String) (free : r.IsFree (Text.pieces method.toList))
              (mark : ∀ c ∈ method.toList.head?, isNameChar c = false) :=
            named.reads.endsWith_iff free mark
          simp only [iterationMethods, List.any_cons, List.any_nil]
          rw [ends ".map" (Renaming.isFree_of_heads (by decide)) (by decide),
            ends ".flatMap" (Renaming.isFree_of_heads (by decide)) (by decide),
            ends ".forEach" (Renaming.isFree_of_heads (by decide)) (by decide)]
      · simp [kind]

theorem enclosingCallback?_alike {above above' : List Node}
    (h : List.Forall₂ (Renamed r f f') above above') :
    Option.Rel (fun n n' => n.isClosable = false ∧ Renamed r f f' n n')
      (enclosingCallback? f above) (enclosingCallback? f' above') := by
  induction h with
  | nil => exact .none
  | @cons n n' above above' first rest ih =>
    rw [enclosingCallback?, enclosingCallback?, first.kind, ← isIterated_eq rest]
    split
    · rename_i iterated
      simp only [Bool.and_eq_true, Bool.or_eq_true, decide_eq_true_eq] at iterated
      have shown : n.isClosable = false := by
        refine Node.isClosable_of_kind ?_
        rcases iterated.1 with kind | kind
        · rw [kind]; rfl
        · rw [kind]; rfl
      exact .some ⟨shown, first⟩
    · exact ih

/-! ### The item -/

/-- The first of a list of parameters has its name, perhaps the new one. -/
theorem firstParameterOf_alike {inObject : Bool} {ps ps' : List Node}
    (h : List.Forall₂ (Parts r f f' inObject) ps ps') :
    Option.Rel r.Names (firstParameterOf f ps) (firstParameterOf f' ps') := by
  induction h with
  | nil => exact .none
  | @cons p p' ps ps' first _ ih =>
    rw [firstParameterOf, firstParameterOf]
    rcases first with renamed | ⟨-, turned⟩
    · have pattern' (shown : p.isClosable = false) : Option.Rel r.Names
          (((p.child? .pattern).filter (·.kind = .identifier)).map f.nodeText)
          (((p'.child? .pattern).filter (·.kind = .identifier)).map f'.nodeText) := by
        have found := renamed.child? shown .pattern
        generalize p.child? .pattern = a at found ⊢
        generalize p'.child? .pattern = b at found ⊢
        cases found with
        | none => exact .none
        | @some c c' child =>
          rw [Option.filter_some, Option.filter_some, child.kind]
          by_cases kind : c.kind = .identifier
          · simp only [kind]
            exact .some (child.alike.identifier kind)
          · simp only [kind]
            exact .none
      rw [renamed.kind]
      cases kind : p.kind with
      | identifier => exact .some (renamed.alike.identifier kind)
      | requiredParameter => exact pattern' (Node.isClosable_of_kind (by rw [kind]; rfl))
      | optionalParameter => exact pattern' (Node.isClosable_of_kind (by rw [kind]; rfl))
      | comment => exact ih
      | _ => exact .none
    · rw [turned.kind, turned.kind']
      exact .none

theorem firstParameter?_alike (h : Renamed r f f' n n') (shown : n.isClosable = false) :
    Option.Rel r.Names (firstParameter? f n) (firstParameter? f' n') := by
  have single := h.child? shown .parameter
  have several := h.openChild? shown .parameters rfl
  unfold firstParameter?
  generalize n.child? .parameter = a at single ⊢
  generalize n'.child? .parameter = b at single ⊢
  cases single with
  | none => exact rel_bind several fun ps ps' ⟨open', renamed⟩ =>
      firstParameterOf_alike (renamed.namedParts open')
  | @some p p' renamed =>
    dsimp only
    rw [renamed.kind]
    split
    · rename_i kind
      exact .some (renamed.alike.identifier kind)
    · exact .none

/-! ### Accesses to the item -/

/-- Texts that begin with the item and say the same behind it. -/
def Follows (item item' text text' : String) : Prop :=
  ∃ rest, text.toList = item.toList ++ rest ∧ text'.toList = item'.toList ++ rest

/-- Accesses to the same property of the item. -/
structure AccessAlike (r : Renaming) (item item' : String) (a a' : Access) : Prop where
  follows : Follows item item' a.text a'.text
  property : a'.property = a.property
  reads : r.Reads a.text a'.text

theorem Follows.eq_iff {s s' t t' : String} (h : Follows item item' s s')
    (h' : Follows item item' t t') : s = t ↔ s' = t' := by
  obtain ⟨rest, eq, eq'⟩ := h
  obtain ⟨more, same, same'⟩ := h'
  rw [← String.toList_inj, ← String.toList_inj, eq, eq', same, same', List.append_cancel_left_eq,
    List.append_cancel_left_eq]

/-- What is behind the object of an access, and the object, make up its text. -/
theorem text_of_behindObject? {object : Node} {rest : List Char}
    (is : n.child? .object = some object) (h : behindObject? f n = some rest) :
    (f.nodeText n).toList = (f.nodeText object).toList ++ rest := by
  rw [behindObject?, is, Option.bind_some, Text.dropStart] at h
  split at h
  · rename_i begins
    obtain ⟨tail, eq⟩ := List.isPrefixOf_iff_prefix.mp begins
    rw [← eq, List.drop_left, Option.some_inj] at h
    rw [← eq, h]
  · cases h

theorem accessOf?_alike (h : Renamed r f f' n n') (name : r.Names item item') :
    Option.Rel (AccessAlike r item item') (accessOf? f item n) (accessOf? f' item' n') := by
  by_cases kind : n.kind = .member
  · have shown : n.isClosable = false := Node.isClosable_of_kind (by rw [kind]; rfl)
    have objects := h.child? shown .object
    have same := h.alike.property kind
    have behind := h.alike.behind kind
    unfold accessOf?
    cases is : n.child? .object with
    | none =>
      rw [is] at objects
      generalize n'.child? .object = b at objects ⊢
      cases objects
      exact .none
    | some object =>
      rw [is] at objects behind
      cases is' : n'.child? .object with
      | none =>
        rw [is'] at objects
        cases objects
      | some object' =>
        rw [is'] at objects
        obtain ⟨renamed⟩ := objects
        obtain ⟨given, unchanged⟩ := behind rfl
        obtain ⟨rest, eq⟩ := Option.isSome_iff_exists.mp given
        have text := text_of_behindObject? is eq
        have text' := text_of_behindObject? is' (unchanged.trans eq)
        simp only [Option.bind_eq_bind, Option.bind_some]
        cases asks : n.child? .property with
        | none =>
          rw [asks, Option.map_none, Option.map_eq_none_iff] at same
          rw [same]
          exact .none
        | some property =>
          rw [asks, Option.map_some, Option.map_eq_some_iff] at same
          obtain ⟨property', asks', same⟩ := same
          rw [asks', Option.bind_some, Option.bind_some, h.kind, renamed.kind, same]
          by_cases name' : object.kind = .identifier
          · have is := (renamed.alike.identifier name').eq_iff name
            by_cases hit : f.nodeText object = item
            · rw [hit] at text
              rw [is.mp hit] at text'
              simp only [kind, name', hit, is.mp hit]
              exact .some ⟨⟨rest, text, text'⟩, rfl, h.reads⟩
            · have miss : ¬f'.nodeText object' = item' := fun hit' => hit (is.mpr hit')
              simp only [hit, miss]
              simp
          · simp [name']
  · have none (f : SourceFile) (item : String) {n : Node} (other : n.kind ≠ .member) :
        accessOf? f item n = none := by
      unfold accessOf?
      simp [other]
    rw [none f item kind, none f' item' (h.kind ▸ kind)]
    exact .none

/-- An access whose object is known. -/
def isAccess (n : Node) : Bool :=
  n.kind = .member && (n.child? .object).isSome

theorem accessOf?_eq_none (h : isAccess n = false) : accessOf? f item n = none := by
  unfold accessOf?
  cases is : n.child? .object with
  | none => rfl
  | some object =>
    have other : n.kind ≠ .member := by simpa [isAccess, is] using h
    simp [other]

/-- Accesses are looked for among the nodes that a renaming keeps track of. -/
theorem accesses_eq (f : SourceFile) (item : String) (n : Node) :
    accesses f item n = ((Site.preorder [] n).filter (isAccess ·.node)).filterMap
      (accessOf? f item ·.node) := by
  have nodes : n :: (⟨n, []⟩ : Site).descendants.map (·.node) =
      (Site.preorder [] n).map (·.node) := by
    rw [Site.preorder_eq_cons ⟨n, []⟩, List.map_cons]
  rw [accesses, nodes, List.filterMap_map, List.filterMap_filter]
  refine List.filterMap_congr fun s _ => ?_
  split
  · rfl
  · rename_i other
    exact accessOf?_eq_none (by simpa using other)

theorem accesses_alike (h : Renamed r f f' n n') (name : r.Names item item') :
    List.Forall₂ (AccessAlike r item item') (accesses f item n) (accesses f' item' n') := by
  have sought (n : Node) (access : isAccess n = true) : n.isSought = true := by
    rw [isAccess, Bool.and_eq_true, decide_eq_true_eq] at access
    rw [Node.isSought, access.1]
    exact access.2
  have same (n n' : Node) (h : Renamed r f f' n n') : isAccess n = isAccess n' := by
    rw [isAccess, isAccess, h.kind]
    by_cases kind : n.kind = .member
    · rw [isSome_eq_of_rel (h.child? (Node.isClosable_of_kind (by rw [kind]; rfl)) .object)]
    · simp [kind]
  rw [accesses_eq, accesses_eq]
  exact rel_filterMap (filter_preorder sought same h .nil) fun s s' alike =>
    accessOf?_alike alike.node name

theorem best?_alike {found found' : List Access}
    (h : List.Forall₂ (AccessAlike r item item') found found') :
    Option.Rel r.Reads (best? found) (best? found') := by
  have words : List.Forall₂ Eq labelProperties labelProperties :=
    List.forall₂_same.mpr fun _ _ => rfl
  refine rel_or (rel_findSome? words fun word word' same => ?_) ?_
  · subst same
    refine rel_map_option (rel_find? h fun a a' alike => ?_) fun _ _ both => both.2.reads
    rw [alike.property]
  · refine rel_map_option (rel_find? h fun a a' alike => ?_) fun _ _ both => both.2.reads
    rw [alike.property]

/-- The best property of the item for an element is the same before and afterwards. -/
theorem find?_alike {e e' : Element} (h : ElementAlike r f f' e e') (inContent : Bool) :
    Option.Rel r.Reads (find? e inContent) (find? e' inContent) := by
  unfold find?
  rw [h.file, h.file']
  refine rel_bind (enclosingCallback?_alike h.site.above) fun c c' ⟨shown, callback⟩ => ?_
  refine rel_bind (firstParameter?_alike callback shown) fun item item' name => ?_
  refine rel_bind (callback.child? shown .body) fun body body' inside => ?_
  have found := accesses_alike inside name
  dsimp only
  split
  · have rendered : List.Forall₂ (Follows item item')
        (e.children.flatMap fun s => (accesses f item s.node).map (·.text))
        (e'.children.flatMap fun s => (accesses f' item' s.node).map (·.text)) :=
      rel_flatMap h.children fun s s' alike =>
        rel_map (accesses_alike alike.node name) fun _ _ access => access.follows
    refine best?_alike ((rel_filter found fun a a' access => ?_).imp fun _ _ both => both.2)
    rw [List.contains_eq_any_beq, List.contains_eq_any_beq]
    refine any_eq_of_rel rendered fun text text' follows => ?_
    rw [Bool.eq_iff_iff, beq_iff_eq, beq_iff_eq]
    exact access.follows.eq_iff follows
  · exact best?_alike found

end JsxAudit.Label.LoopVariable
