import JsxAudit.Proofs.Label.LoopVariable
import JsxAudit.Proofs.Source.Scope

/-!
What the name of a list's item means where it is used.

The property that is found for an element is one of the item that the nearest callback around the
element is called with, in so far as names are read without looking at what binds them. What they
mean is said by their scopes (`SourceFile.binder?`). The name of the item is that of a parameter
(`mem_parameterNames`), so it means the item at every place in the callback unless something nearer
declares it again, be it around the element or around the access (`find?_unshadowed`).
-/

namespace JsxAudit.Label.LoopVariable

open Syntax Source

variable {f : SourceFile} {item text : String} {n : Node} {callback place : Site}

/-! ### The callback around an element -/

/-- The node is a function that is handed to an iteration. -/
def IsCallback (f : SourceFile) (s : Site) : Prop :=
  (s.node.kind = .arrowFunction ∨ s.node.kind = .functionExpression) ∧ isIterated f s.above = true

/-- The callback stands above the place, and no other one between them. -/
structure Encloses (f : SourceFile) (callback place : Site) : Prop where
  isCallback : IsCallback f callback
  nearest : ∃ inner, place.above = inner ++ callback.node :: callback.above ∧
    ∀ first m rest, inner = first ++ m :: rest →
      ¬ IsCallback f ⟨m, rest ++ callback.node :: callback.above⟩

theorem encloses_of_enclosingCallback? (h : enclosingCallback? f place.above = some n) :
    ∃ outer, Encloses f ⟨n, outer⟩ place := by
  obtain ⟨c, above⟩ := place
  dsimp only at h
  induction above generalizing c with
  | nil => cases h
  | cons m above ih =>
    rw [enclosingCallback?] at h
    by_cases found : IsCallback f ⟨m, above⟩
    · rw [if_pos (by simpa [IsCallback] using found)] at h
      cases h
      exact ⟨above, found, [], rfl, fun first _ _ eq => by simp at eq⟩
    · rw [if_neg (by simpa [IsCallback] using found)] at h
      obtain ⟨outer, isCallback, inner, eq, nearest⟩ := ih m h
      refine ⟨outer, isCallback, m :: inner, congrArg (m :: ·) eq, fun first m' rest split => ?_⟩
      cases first with
      | nil =>
        cases split
        obtain rfl : above = inner ++ n :: outer := eq
        exact found
      | cons m first => exact nearest first m' rest (List.cons.inj split).2

/-! ### The item -/

theorem boundNames_of_identifier (kind : n.kind = .identifier) :
    f.boundNames n = [f.nodeText n] := by
  refine SourceFile.boundNames_of_spelling? ?_
  rw [Node.spelling?, kind]

theorem exists_of_firstParameterOf {ps : List Node} (h : firstParameterOf f ps = some item) :
    ∃ p ∈ ps, ∃ q, p.boundPattern? = some q ∧ q.kind = .identifier ∧ f.nodeText q = item := by
  induction ps with
  | nil => cases h
  | cons p rest ih =>
    rw [firstParameterOf] at h
    have behindPattern (other : p.kind ≠ .identifier)
        (h : ((p.child? .pattern).filter (·.kind = .identifier)).map f.nodeText = some item) :
        ∃ q, p.boundPattern? = some q ∧ q.kind = .identifier ∧ f.nodeText q = item := by
      obtain ⟨q, found, text⟩ := Option.map_eq_some_iff.mp h
      obtain ⟨pattern, kind⟩ := Option.filter_eq_some_iff.mp found
      exact ⟨q, by rw [Node.boundPattern?, if_neg other, pattern], of_decide_eq_true kind, text⟩
    cases kind : p.kind with
    | identifier =>
      rw [kind] at h
      exact ⟨p, List.mem_cons_self, p, if_pos kind, kind, Option.some.inj h⟩
    | requiredParameter | optionalParameter =>
      rw [kind] at h
      exact ⟨p, List.mem_cons_self, behindPattern (by simp [kind]) h⟩
    | comment =>
      rw [kind] at h
      obtain ⟨p', mem, found⟩ := ih h
      exact ⟨p', List.mem_cons_of_mem _ mem, found⟩
    | _ =>
      rw [kind] at h
      cases h

/-- The item has the name of a parameter. -/
theorem mem_parameterNames (h : firstParameter? f n = some item) : item ∈ f.parameterNames n := by
  have listed {q : Node} (mem : q ∈ n.parameterPatterns) (kind : q.kind = .identifier)
      (text : f.nodeText q = item) : item ∈ f.parameterNames n := by
    refine List.mem_flatMap.mpr ⟨q, mem, ?_⟩
    rw [boundNames_of_identifier kind, text]
    exact List.mem_singleton_self _
  unfold firstParameter? at h
  cases single : n.child? .parameter with
  | some q =>
    rw [single] at h
    dsimp only at h
    split at h
    · rename_i kind
      refine listed (List.mem_append_left _ ?_) kind (Option.some.inj h)
      rw [single]
      exact List.mem_singleton_self _
    · cases h
  | none =>
    rw [single] at h
    obtain ⟨ps, list, first⟩ := Option.bind_eq_some_iff.mp h
    obtain ⟨p, mem, q, pattern, kind, text⟩ := exists_of_firstParameterOf first
    refine listed (List.mem_append_right _ (List.mem_flatMap.mpr ⟨ps, ?_, ?_⟩)) kind text
    · have role := List.find?_some list
      exact List.mem_filter.mpr ⟨Node.mem_children_of_child? list, by simpa using Or.inl role⟩
    · exact List.mem_filterMap.mpr ⟨p, mem, pattern⟩

/-- A callback declares its parameters for everything in it. -/
theorem IsCallback.declares (h : IsCallback f callback)
    (named : firstParameter? f callback.node = some item) (c : Node) :
    item ∈ f.scopeNames callback c := by
  refine SourceFile.mem_scopeNames_of_parameter (mem_parameterNames named) ?_
  rcases h.1 with kind | kind <;> rw [Node.hides, kind]

/-! ### The access -/

theorem mem_of_best? {found : List Access} (h : best? found = some text) :
    ∃ a ∈ found, a.text = text := by
  have chosen {p : Access → Bool} (h : (found.find? p).map (·.text) = some text) :
      ∃ a ∈ found, a.text = text := by
    obtain ⟨a, first, eq⟩ := Option.map_eq_some_iff.mp h
    exact ⟨a, List.mem_of_find?_eq_some first, eq⟩
  rcases Option.or_eq_some_iff.mp h with preferred | ⟨-, fallback⟩
  · obtain ⟨_, -, first⟩ := List.exists_of_findSome?_eq_some preferred
    exact chosen first
  · exact chosen fallback

/-- An access in a node is made by one of the nodes of its tree, wherever the tree stands. -/
theorem exists_of_mem_accesses {a : Access} (above : List Node) (h : a ∈ accesses f item n) :
    ∃ s ∈ Site.preorder above n, accessOf? f item s.node = some a := by
  rw [accesses_eq, List.mem_filterMap] at h
  obtain ⟨s, mem, made⟩ := h
  have node : s.node ∈ (Site.preorder above n).map (·.node) := by
    rw [Node.preorder_nodes]
    exact List.mem_map_of_mem (List.mem_filter.mp mem).1
  obtain ⟨t, inside, eq⟩ := List.mem_map.mp node
  exact ⟨t, inside, eq ▸ made⟩

/-- A place in the body of a callback where the item is asked for a property, in these words. -/
structure AccessIn (f : SourceFile) (callback : Site) (item text : String) (place : Site) :
    Prop where
  inside : ∃ body, callback.node.child? .body = some body ∧
    place ∈ Site.preorder (callback.node :: callback.above) body
  made : ∃ property, accessOf? f item place.node = some ⟨text, property⟩

theorem exists_of_find? {e : Element} {inContent : Bool} (h : find? e inContent = some text) :
    ∃ n item, enclosingCallback? e.file e.site.above = some n ∧
      firstParameter? e.file n = some item ∧
      ∀ outer, ∃ place, AccessIn e.file ⟨n, outer⟩ item text place := by
  simp only [find?, Option.bind_eq_bind, Option.bind_eq_some_iff] at h
  obtain ⟨n, callback, item, named, body, isBody, best⟩ := h
  have taken : ∃ a ∈ accesses e.file item body, a.text = text := by
    split at best
    · obtain ⟨a, mem, eq⟩ := mem_of_best? best
      exact ⟨a, (List.mem_filter.mp mem).1, eq⟩
    · exact mem_of_best? best
  obtain ⟨⟨_, property⟩, mem, rfl⟩ := taken
  refine ⟨n, item, callback, named, fun outer => ?_⟩
  obtain ⟨place, inside, made⟩ := exists_of_mem_accesses (n :: outer) mem
  exact ⟨place, ⟨body, isBody, inside⟩, property, made⟩

theorem Encloses.mem (h : Encloses f callback place) (mem : place ∈ f.site.descendants) :
    callback ∈ Site.preorder [] f.root := by
  obtain ⟨inner, above, -⟩ := h.nearest
  have tree : Site.preorder [] f.root = f.site :: f.site.descendants :=
    Site.preorder_eq_cons f.site
  refine Site.mem_preorder_of_above ?_ above (Nat.zero_le _)
  rw [tree]
  exact List.mem_cons_of_mem _ mem

theorem AccessIn.mem (h : AccessIn f callback item text place)
    (mem : callback ∈ Site.preorder [] f.root) : place ∈ f.site.descendants := by
  obtain ⟨body, isBody, inside⟩ := h.inside
  have below : place ∈ callback.descendants := by
    rw [Site.descendants_eq]
    exact List.mem_flatMap.mpr ⟨body, Node.mem_children_of_child? isBody, inside⟩
  have tree : Site.preorder [] f.root = f.site :: f.site.descendants :=
    Site.preorder_eq_cons f.site
  rw [tree] at mem
  rcases List.mem_cons.mp mem with rfl | mem
  · exact below
  · exact Site.mem_descendants_trans mem below

theorem AccessIn.below (h : AccessIn f callback item text place) :
    ∃ inner, place.above = inner ++ callback.node :: callback.above := by
  obtain ⟨body, -, inside⟩ := h.inside
  obtain ⟨inner, eq⟩ := Site.suffix_of_mem_preorder inside
  exact ⟨inner, eq.symm⟩

/-- The property that is found for an element of a list is asked of a name that the nearest callback
around the element has for its first parameter, in the body of this callback. At the element and at
every such access the name is bound by the callback if and only if no function, parameter or
declaration between them binds it again. -/
theorem find?_unshadowed {e : Element} {inContent : Bool} (mem : e ∈ f.elements)
    (found : find? e inContent = some text) :
    ∃ callback item, callback ∈ Site.preorder [] f.root ∧ Encloses f callback e.site ∧
      firstParameter? f callback.node = some item ∧
      (∃ place ∈ f.site.descendants, AccessIn f callback item text place) ∧
      (f.binder? item e.site = some callback ↔ f.Unshadowed item callback e.site) ∧
      ∀ place, AccessIn f callback item text place →
        (f.binder? item place = some callback ↔ f.Unshadowed item callback place) := by
  obtain ⟨s, inTree, rfl⟩ := List.mem_map.mp mem
  obtain ⟨n, item, callback, named, taken⟩ := exists_of_find? found
  obtain ⟨outer, encloses⟩ := encloses_of_enclosingCallback? callback
  have held := encloses.mem (List.mem_filter.mp inTree).1
  have declared := encloses.isCallback.declares named
  obtain ⟨inner, above, -⟩ := encloses.nearest
  obtain ⟨place, access⟩ := taken outer
  refine ⟨⟨n, outer⟩, item, held, encloses, named, ⟨place, access.mem held, access⟩,
    SourceFile.binder?_eq_some_iff declared above, fun place access => ?_⟩
  obtain ⟨inner, above⟩ := access.below
  exact SourceFile.binder?_eq_some_iff declared above

/-- The access may be one to the parameter of a function in the callback. -/
theorem find?_unshadowed_inner :
    ∃ f ∈ SourceFile.parse "a.tsx" "xs.map(p => <a>\x7bys.find(p => p.name)\x7d</a>)",
      ∃ e ∈ f.elements, find? e false = some "p.name" ∧
        ∃ callback place, Encloses f callback e.site ∧
          firstParameter? f callback.node = some "p" ∧
          AccessIn f callback "p" "p.name" place ∧ ¬ f.Unshadowed "p" callback place := by
  have computed :
      ∃ f ∈ SourceFile.parse "a.tsx" "xs.map(p => <a>\x7bys.find(p => p.name)\x7d</a>)",
        (∃ e ∈ f.elements, find? e false = some "p.name") ∧
        (∀ s ∈ Site.preorder [] f.root, (firstParameter? f s.node).isSome →
          isIterated f s.above = true → s.node.start = 7 ∧ firstParameter? f s.node = some "p") ∧
        ∀ s ∈ f.site.descendants, (accessOf? f "p" s.node).isSome →
          (f.binder? "p" s).map (·.node.start) = some 24 := by
    decide +kernel
  obtain ⟨f, parsed, ⟨e, mem, found⟩, outside, inside⟩ := computed
  obtain ⟨callback, item, held, encloses, named, ⟨place, below, access⟩, -, bound⟩ :=
    find?_unshadowed mem found
  obtain ⟨start, first⟩ :=
    outside callback held (Option.isSome_of_eq_some named) encloses.isCallback.2
  obtain rfl : item = "p" := Option.some.inj (named.symm.trans first)
  refine ⟨f, parsed, e, mem, found, callback, place, encloses, named, access, fun unshadowed => ?_⟩
  obtain ⟨property, made⟩ := access.made
  have other := inside place below (Option.isSome_of_eq_some made)
  rw [(bound place access).mpr unshadowed, Option.map_some, start] at other
  cases other

end JsxAudit.Label.LoopVariable
