import JsxAudit.Asset.Expression
import Mathlib.Data.Finset.Card

/-!
When looking for the image of an expression ends.

An expression with an index is looked up in an object: the values of the object are asked one after
the other until one has an image (`Asks`), and each of them may be looked up in an object again.
`Finds` is what comes out if that ends. It does not end if the asking goes on for ever, and that is
the case as soon as it comes back to an object: there are only so many declarators, and an object
has the same values whenever it is asked. Whatever ends is found, with no regard to the number of
declarators (`image?_endless_iff`). In a file whose objects do not mention each other in a circle
every search ends (`image?_ends`).
-/

namespace JsxAudit.Asset

open Data Source Storage

variable {d : Disk} {root : String} {f : SourceFile} {e : String} {r : Except Fault (Option String)}

/-! ### Asking -/

mutual

/-- The image of an expression, if looking for it ends. -/
inductive Finds (d : Disk) (root : String) (f : SourceFile) :
    String → Except Fault (Option String) → Prop
  | plain {e : String} : indexedObject? e = none → Finds d root f e (plainImage d root f e)
  | object {e o : String} {r : Except Fault (Option String)} : indexedObject? e = some o →
    FindsFirst d root f (objectValues f o) r → Finds d root f e r

/-- The image of the first of some expressions that has one. -/
inductive FindsFirst (d : Disk) (root : String) (f : SourceFile) :
    List String → Except Fault (Option String) → Prop
  | nothing : FindsFirst d root f [] (.ok none)
  | here {e path : String} {rest : List String} : Finds d root f e (.ok (some path)) → path ≠ "" →
    FindsFirst d root f (e :: rest) (.ok (some path))
  | later {e : String} {rest : List String} {found : Option String}
    {r : Except Fault (Option String)} : Finds d root f e (.ok found) →
    found.filter (· != "") = none → FindsFirst d root f rest r → FindsFirst d root f (e :: rest) r
  | fault {e : String} {rest : List String} {fault : Fault} : Finds d root f e (.error fault) →
    FindsFirst d root f (e :: rest) (.error fault)

end

/-- An expression has no image. -/
def HasNone (d : Disk) (root : String) (f : SourceFile) (e : String) : Prop :=
  ∃ found, Finds d root f e (.ok found) ∧ found.filter (· != "") = none

/-- Looking for the image of an expression leads to another one: it is a value of the object in
which the expression is looked up, and the values before it have no image. -/
def Asks (d : Disk) (root : String) (f : SourceFile) (e next : String) : Prop :=
  ∃ o before after, indexedObject? e = some o ∧ objectValues f o = before ++ next :: after ∧
    ∀ x ∈ before, HasNone d root f x

/-- The asking goes on for ever. -/
def NeverEnds (d : Disk) (root : String) (f : SourceFile) (e : String) : Prop :=
  ∃ chain : Nat → String, chain 0 = e ∧ ∀ n, Asks d root f (chain n) (chain (n + 1))

/-- The asking comes back to an object. -/
def ComesBack (d : Disk) (root : String) (f : SourceFile) (e : String) : Prop :=
  ∃ (chain : Nat → String) (i j : Nat), chain 0 = e ∧ i < j ∧
    (∀ n < j, Asks d root f (chain n) (chain (n + 1))) ∧
    (indexedObject? (chain i)).isSome ∧ indexedObject? (chain i) = indexedObject? (chain j)

/-! ### Steps of a search -/

theorem expressionImage_plain (h : indexedObject? e = none) (fuel : Nat) :
    expressionImage d root f fuel e = plainImage d root f e := by
  unfold expressionImage
  rw [h]

theorem expressionImage_succ {o : String} (h : indexedObject? e = some o) (fuel : Nat) :
    expressionImage d root f (fuel + 1) e =
      firstImage (expressionImage d root f fuel) (objectValues f o) := by
  unfold expressionImage
  rw [h]

theorem expressionImage_zero {o : String} (h : indexedObject? e = some o) :
    expressionImage d root f 0 e =
      if (objectValues f o).isEmpty then .ok none else .error .endless := by
  unfold expressionImage
  rw [h]

/-! ### Faults of other kinds -/

/-- A fault that is not for want of an end. -/
def Answers {α : Type} (x : Except Fault α) : Prop :=
  x ≠ .error .endless

theorem Answers.bind {α β : Type} {x : Except Fault α} {g : α → Except Fault β} (h : Answers x)
    (next : ∀ a, Answers (g a)) : Answers (x >>= g) := by
  cases x with
  | error fault =>
    intro same
    cases same
    exact h rfl
  | ok a => exact next a

theorem answers_ok {α : Type} (a : α) : Answers (.ok a) := nofun

theorem answers_ofValue (root : String) (document : Value) :
    Answers (AliasTable.ofValue root document) := by
  unfold AliasTable.ofValue
  dsimp only
  split
  · split
    · exact Answers.bind (x := pure root) (answers_ok _) fun folder => by
        split <;> exact answers_ok _
    · exact Answers.bind (x := pure _) (answers_ok _) fun folder => by
        split <;> exact answers_ok _
    · nofun
  · nofun

theorem answers_firstMapping (v : Value) : Answers (firstMapping v) := by
  unfold firstMapping
  split <;> nofun

theorem answers_mapped? (folder pattern module : String) (mappings : Value) :
    Answers (mapped? folder pattern module mappings) := by
  unfold mapped?
  split
  · exact answers_ok _
  · split
    · split
      · exact answers_ok _
      · refine (answers_firstMapping mappings).bind fun v => ?_
        split <;> nofun
    · split
      · refine (answers_firstMapping mappings).bind fun v => ?_
        split <;> nofun
      · exact answers_ok _

theorem answers_firstMatch (folder module : String) (patterns : Fields) :
    Answers (AliasTable.firstMatch folder module patterns) := by
  induction patterns with
  | nil => exact answers_ok _
  | cons pair rest ih =>
    obtain ⟨pattern, mappings⟩ := pair
    unfold AliasTable.firstMatch
    refine (answers_mapped? folder pattern module mappings).bind fun found => ?_
    cases found with
    | none => exact ih
    | some path => exact answers_ok _

theorem answers_aliasPath? (d : Disk) (root module : String) :
    Answers (aliasPath? d root module) := by
  unfold aliasPath?
  refine Answers.bind ?_ fun table => answers_firstMatch _ _ _
  unfold AliasTable.read
  split
  · exact answers_ok _
  · exact answers_ofValue _ _

theorem answers_moduleFile? (d : Disk) (root file module : String) :
    Answers (moduleFile? d root file module) := by
  unfold moduleFile?
  refine Answers.bind ?_ fun path => answers_ok _
  unfold modulePath?
  split
  · exact answers_ok _
  · exact answers_aliasPath? d root module

theorem answers_imageOf? (d : Disk) (root file module : String) (name : Option String) :
    Answers (imageOf? d root file module name) := by
  unfold imageOf?
  split
  · exact answers_moduleFile? d root file module
  · split
    · exact answers_ok none
    · exact (answers_moduleFile? d root file module).bind fun path => answers_ok _

theorem answers_plainImage (d : Disk) (root : String) (f : SourceFile) (e : String) :
    Answers (plainImage d root f e) := by
  unfold plainImage
  dsimp only
  split
  · exact answers_ok none
  · split
    · exact answers_ok _
    · unfold importedImage?
      split
      · exact answers_ok none
      · exact answers_imageOf? _ _ _ _ _

/-! ### Searches that end -/

theorem filter_eq_none_or (found : Option String) :
    found.filter (· != "") = none ∨ ∃ path, found = some path ∧ path ≠ "" := by
  cases found with
  | none => exact .inl rfl
  | some path =>
    by_cases empty : path = "" <;> simp [Option.filter, empty]

theorem firstImage_later {image : String → Except Fault (Option String)} {found : Option String}
    {rest : List String} (h : image e = .ok found) (empty : found.filter (· != "") = none) :
    firstImage image (e :: rest) = firstImage image rest := by
  rw [firstImage, h]
  dsimp only [bind, Except.bind]
  rw [empty]

theorem firstImage_here {image : String → Except Fault (Option String)} {path : String}
    {rest : List String} (h : image e = .ok (some path)) (given : path ≠ "") :
    firstImage image (e :: rest) = .ok (some path) := by
  have filled : (some path).filter (· != "") = some path := by simp [Option.filter, given]
  rw [firstImage, h]
  dsimp only [bind, Except.bind]
  rw [filled]
  rfl

theorem firstImage_error {image : String → Except Fault (Option String)} {fault : Fault}
    {rest : List String} (h : image e = .error fault) :
    firstImage image (e :: rest) = .error fault := by
  rw [firstImage, h]
  rfl

/-- What comes out of a search that ends is found. -/
theorem findsFirst_of_firstImage {image : String → Except Fault (Option String)}
    (each : ∀ x, Answers (image x) → Finds d root f x (image x)) (values : List String)
    (ends : Answers (firstImage image values)) :
    FindsFirst d root f values (firstImage image values) := by
  induction values with
  | nil => exact .nothing
  | cons e rest ih =>
    cases h : image e with
    | error fault =>
      rw [firstImage_error h] at ends ⊢
      exact .fault (h ▸ each e (h ▸ ends))
    | ok found =>
      have finds : Finds d root f e (.ok found) := h ▸ each e (h ▸ answers_ok found)
      rcases filter_eq_none_or found with empty | ⟨path, rfl, given⟩
      · rw [firstImage_later h empty] at ends ⊢
        exact .later finds empty (ih ends)
      · rw [firstImage_here h given]
        exact .here finds given

theorem finds_of_answers (fuel : Nat) (e : String)
    (ends : Answers (expressionImage d root f fuel e)) :
    Finds d root f e (expressionImage d root f fuel e) := by
  induction fuel generalizing e with
  | zero =>
    cases object : indexedObject? e with
    | none =>
      rw [expressionImage_plain object]
      exact .plain object
    | some o =>
      rw [expressionImage_zero object] at ends ⊢
      split at ends
      · rename_i empty
        rw [if_pos empty]
        rw [List.isEmpty_iff] at empty
        exact .object object (empty ▸ .nothing)
      · exact absurd rfl ends
  | succ fuel ih =>
    cases object : indexedObject? e with
    | none =>
      rw [expressionImage_plain object]
      exact .plain object
    | some o =>
      rw [expressionImage_succ object] at ends ⊢
      exact .object object (findsFirst_of_firstImage ih _ ends)

mutual

theorem Finds.answers {e : String} {r : Except Fault (Option String)} :
    Finds d root f e r → Answers r
  | .plain _ => answers_plainImage d root f e
  | .object _ first => first.answers

theorem FindsFirst.answers {values : List String} {r : Except Fault (Option String)} :
    FindsFirst d root f values r → Answers r
  | .nothing => answers_ok none
  | .here _ _ => answers_ok _
  | .later _ _ rest => rest.answers
  | .fault first => first.answers

end

mutual

/-- A search that ends comes to what is found, unless the objects on the way are too many for it. -/
theorem Finds.eq_or_endless {e : String} {r : Except Fault (Option String)} :
    Finds d root f e r → ∀ fuel, expressionImage d root f fuel e = r ∨
      expressionImage d root f fuel e = .error .endless
  | .plain object, fuel => .inl (expressionImage_plain object fuel)
  | .object object first, 0 => by
    rw [expressionImage_zero object]
    split
    · rename_i empty
      rw [List.isEmpty_iff] at empty
      rw [empty] at first
      cases first
      exact .inl rfl
    · exact .inr rfl
  | .object object first, fuel + 1 => by
    rw [expressionImage_succ object]
    exact first.eq_or_endless fuel

theorem FindsFirst.eq_or_endless {values : List String} {r : Except Fault (Option String)} :
    FindsFirst d root f values r → ∀ fuel,
      firstImage (expressionImage d root f fuel) values = r ∨
        firstImage (expressionImage d root f fuel) values = .error .endless
  | .nothing, _ => .inl rfl
  | .here first given, fuel => (first.eq_or_endless fuel).imp (firstImage_here · given)
    firstImage_error
  | .later first empty rest, fuel => by
    rcases first.eq_or_endless fuel with same | endless
    · rw [firstImage_later same empty]
      exact rest.eq_or_endless fuel
    · exact .inr (firstImage_error endless)
  | .fault first, fuel => (first.eq_or_endless fuel).imp firstImage_error firstImage_error

end

mutual

/-- With enough fuel a search comes to what is found. -/
theorem Finds.eventually {e : String} {r : Except Fault (Option String)} :
    Finds d root f e r → ∃ n, ∀ fuel, n ≤ fuel → expressionImage d root f fuel e = r
  | .plain object => ⟨0, fun fuel _ => expressionImage_plain object fuel⟩
  | .object object first => by
    obtain ⟨n, same⟩ := first.eventually
    refine ⟨n + 1, fun fuel enough => ?_⟩
    obtain ⟨fuel, rfl⟩ := Nat.exists_eq_add_of_le' (Nat.le_of_add_left_le enough)
    rw [expressionImage_succ object, same fuel (Nat.le_of_add_le_add_right enough)]

theorem FindsFirst.eventually {values : List String} {r : Except Fault (Option String)} :
    FindsFirst d root f values r →
      ∃ n, ∀ fuel, n ≤ fuel → firstImage (expressionImage d root f fuel) values = r
  | .nothing => ⟨0, fun _ _ => rfl⟩
  | .here first given => by
    obtain ⟨n, same⟩ := first.eventually
    exact ⟨n, fun fuel enough => firstImage_here (same fuel enough) given⟩
  | .later first empty rest => by
    obtain ⟨n, same⟩ := first.eventually
    obtain ⟨m, others⟩ := rest.eventually
    refine ⟨max n m, fun fuel enough => ?_⟩
    rw [firstImage_later (same fuel (by omega)) empty, others fuel (by omega)]
  | .fault first => by
    obtain ⟨n, same⟩ := first.eventually
    exact ⟨n, fun fuel enough => firstImage_error (same fuel enough)⟩

end

/-! ### Searches that go on -/

theorem firstImage_endless {fuel : Nat} {before after : List String} {next : String}
    (none_before : ∀ x ∈ before, HasNone d root f x)
    (h : expressionImage d root f fuel next = .error .endless) :
    firstImage (expressionImage d root f fuel) (before ++ next :: after) = .error .endless := by
  induction before with
  | nil => exact firstImage_error h
  | cons x before ih =>
    obtain ⟨found, finds, empty⟩ := none_before x List.mem_cons_self
    have others := ih fun y mem => none_before y (List.mem_cons_of_mem _ mem)
    rcases finds.eq_or_endless fuel with same | endless
    · rw [List.cons_append, firstImage_later same empty, others]
    · exact firstImage_error endless

theorem endless_of_chain {chain : Nat → String}
    (asks : ∀ n, Asks d root f (chain n) (chain (n + 1))) (fuel n : Nat) :
    expressionImage d root f fuel (chain n) = .error .endless := by
  induction fuel generalizing n with
  | zero =>
    obtain ⟨o, before, after, object, values, -⟩ := asks n
    rw [expressionImage_zero object, values]
    simp
  | succ fuel ih =>
    obtain ⟨o, before, after, object, values, empty⟩ := asks n
    rw [expressionImage_succ object, values]
    exact firstImage_endless empty (ih (n + 1))

theorem split_of_firstImage_endless {image : String → Except Fault (Option String)}
    {values : List String} (h : firstImage image values = .error .endless) :
    ∃ before next after, values = before ++ next :: after ∧ image next = .error .endless ∧
      ∀ x ∈ before, ∃ found, image x = .ok found ∧ found.filter (· != "") = none := by
  induction values with
  | nil => cases h
  | cons e rest ih =>
    cases first : image e with
    | error fault =>
      rw [firstImage_error first] at h
      exact ⟨[], e, rest, rfl, first.trans h, nofun⟩
    | ok found =>
      rcases filter_eq_none_or found with empty | ⟨path, rfl, given⟩
      · rw [firstImage_later first empty] at h
        obtain ⟨before, next, after, rfl, endless, each⟩ := ih h
        exact ⟨e :: before, next, after, rfl, endless,
          List.forall_mem_cons.mpr ⟨⟨found, first, empty⟩, each⟩⟩
      · rw [firstImage_here first given] at h
        cases h

theorem exists_object_of_endless {fuel : Nat} {e : String}
    (h : expressionImage d root f fuel e = .error .endless) :
    ∃ o, indexedObject? e = some o ∧ objectValues f o ≠ [] := by
  cases object : indexedObject? e with
  | none =>
    rw [expressionImage_plain object] at h
    exact absurd h (answers_plainImage d root f e)
  | some o =>
    refine ⟨o, rfl, fun empty => ?_⟩
    cases fuel with
    | zero =>
      rw [expressionImage_zero object, empty] at h
      cases h
    | succ fuel =>
      rw [expressionImage_succ object, empty] at h
      cases h

/-- A search that has no end asks for an expression whose search has no end with less fuel. -/
theorem asks_of_endless {fuel : Nat} {e : String}
    (h : expressionImage d root f (fuel + 1) e = .error .endless) :
    ∃ next, Asks d root f e next ∧ expressionImage d root f fuel next = .error .endless := by
  obtain ⟨o, object, -⟩ := exists_object_of_endless h
  rw [expressionImage_succ object] at h
  obtain ⟨before, next, after, values, endless, each⟩ := split_of_firstImage_endless h
  refine ⟨next, ⟨o, before, after, object, values, fun x mem => ?_⟩, endless⟩
  obtain ⟨found, image, empty⟩ := each x mem
  exact ⟨found, image ▸ finds_of_answers fuel x (image ▸ answers_ok found), empty⟩

/-- A search that has no end with some fuel asks at least as often, each time in an object. -/
theorem chain_of_endless (fuel : Nat) {e : String}
    (h : expressionImage d root f fuel e = .error .endless) :
    ∃ chain : Nat → String, chain 0 = e ∧
      (∀ n < fuel, Asks d root f (chain n) (chain (n + 1))) ∧
      ∀ n ≤ fuel, ∃ o, indexedObject? (chain n) = some o ∧ objectValues f o ≠ [] := by
  induction fuel generalizing e with
  | zero =>
    refine ⟨fun _ => e, rfl, nofun, fun n _ => exists_object_of_endless h⟩
  | succ fuel ih =>
    obtain ⟨next, asks, endless⟩ := asks_of_endless h
    obtain ⟨chain, rfl, steps, objects⟩ := ih endless
    refine ⟨fun n => n.casesOn e chain, rfl, ?_, ?_⟩
    · rintro (_ | n) small
      · exact asks
      · exact steps n (by omega)
    · rintro (_ | n) small
      · exact exists_object_of_endless h
      · exact objects n (by omega)

/-! ### Searches that come back -/

/-- The names that declarators of a file give. -/
def declaredNames (f : SourceFile) : List String :=
  (f.site.descendants.filter fun s => s.node.kind = .variableDeclarator).map fun s =>
    ((s.node.child? .name).map f.nodeText).getD ""

theorem length_declaredNames (f : SourceFile) : (declaredNames f).length = declaratorCount f := by
  rw [declaredNames, List.length_map, declaratorCount, List.countP_eq_length_filter]

/-- An object with values is declared. -/
theorem mem_declaredNames {o : String} (h : objectValues f o ≠ []) : o ∈ declaredNames f := by
  cases declared : declaredObject? f o with
  | none => simp [objectValues, declared] at h
  | some object =>
    obtain ⟨s, found, -⟩ := Option.bind_eq_some_iff.mp declared
    have named := List.find?_some found
    have mem := List.mem_of_find?_eq_some found
    unfold isObjectDeclarator at named
    split at named
    · rename_i ident value name _
      simp only [Bool.and_eq_true, decide_eq_true_eq] at named
      obtain ⟨⟨kind, rfl⟩, -⟩ := named
      refine List.mem_map.mpr ⟨s, List.mem_filter.mpr ⟨mem, by simpa using kind⟩, ?_⟩
      rw [name]
      rfl
    · cases named

/-- More expressions than there are declarators are not looked up in as many objects. -/
theorem comesBack_of_endless (h : expressionImage d root f (declaratorCount f) e = .error .endless) :
    ComesBack d root f e := by
  obtain ⟨chain, start, steps, objects⟩ := chain_of_endless (declaratorCount f) h
  have declared : Set.MapsTo (fun n => (indexedObject? (chain n)).getD "")
      (Finset.range (declaratorCount f + 1) : Set Nat) ((declaredNames f).toFinset : Set String) := by
    intro n small
    rw [Finset.mem_coe, Finset.mem_range] at small
    obtain ⟨o, object, values⟩ := objects n (by omega)
    simp only [object, Option.getD_some, Finset.mem_coe, List.mem_toFinset]
    exact mem_declaredNames values
  have few : (declaredNames f).toFinset.card < (Finset.range (declaratorCount f + 1)).card := by
    have bound := List.toFinset_card_le (declaredNames f)
    rw [length_declaredNames] at bound
    rw [Finset.card_range]
    omega
  have twice (i j : Nat) (before : i < j) (small : j < declaratorCount f + 1)
      (same : (indexedObject? (chain i)).getD "" = (indexedObject? (chain j)).getD "") :
      ComesBack d root f e := by
    obtain ⟨o, object, -⟩ := objects i (by omega)
    obtain ⟨o', object', -⟩ := objects j (by omega)
    rw [object, object', Option.getD_some, Option.getD_some] at same
    refine ⟨chain, i, j, start, before, fun n less => steps n (by omega), ?_, ?_⟩
    · rw [object]
      rfl
    · rw [object, object', same]
  obtain ⟨i, small, j, small', ne, same⟩ := Finset.exists_ne_map_eq_of_card_lt_of_maps_to few declared
  rw [Finset.mem_range] at small small'
  rcases Nat.lt_or_gt_of_ne ne with before | behind
  · exact twice i j before small' same
  · exact twice j i behind small same.symm

/-- An object has the same values whatever asks for them. -/
theorem Asks.congr {x y next : String} (same : indexedObject? x = indexedObject? y)
    (h : Asks d root f x next) : Asks d root f y next := by
  obtain ⟨o, before, after, object, values⟩ := h
  exact ⟨o, before, after, same ▸ object, values⟩

/-- Where each of some expressions asks for another of them, the asking never ends. -/
theorem neverEnds_of_closed {p : String → Prop} (start : p e)
    (closed : ∀ x, p x → ∃ y, p y ∧ Asks d root f x y) : NeverEnds d root f e := by
  choose next inside asks using closed
  let walk (n : Nat) : { x // p x } :=
    n.rec ⟨e, start⟩ fun _ x => ⟨next x.1 x.2, inside x.1 x.2⟩
  exact ⟨fun n => (walk n).1, rfl, fun n => asks (walk n).1 (walk n).2⟩

theorem ComesBack.neverEnds (h : ComesBack d root f e) : NeverEnds d root f e := by
  obtain ⟨chain, i, j, rfl, before, steps, -, same⟩ := h
  refine neverEnds_of_closed (p := fun x => ∃ n ≤ j, chain n = x) ⟨0, Nat.zero_le j, rfl⟩ ?_
  rintro _ ⟨n, small, rfl⟩
  rcases Nat.lt_or_eq_of_le small with less | rfl
  · exact ⟨chain (n + 1), ⟨n + 1, less, rfl⟩, steps n less⟩
  · exact ⟨chain (i + 1), ⟨i + 1, before, rfl⟩, (steps i before).congr same⟩

theorem NeverEnds.endless (h : NeverEnds d root f e) (fuel : Nat) :
    expressionImage d root f fuel e = .error .endless := by
  obtain ⟨chain, rfl, asks⟩ := h
  exact endless_of_chain asks fuel 0

/-! ### The image of an expression -/

/-- Looking for the image of an expression ends in a fault for want of an end if and only if the
asking goes on for ever, and that is if it comes back to an object. Otherwise it comes to what is
found when the objects are not counted. -/
theorem image?_endless_iff (d : Disk) (root : String) (f : SourceFile) (e : String) :
    (image? d root f e = .error .endless ↔ NeverEnds d root f e) ∧
      (NeverEnds d root f e ↔ ComesBack d root f e) ∧
      ∀ r, Finds d root f e r ↔ image? d root f e = r ∧ r ≠ .error .endless := by
  have back : image? d root f e = .error .endless → ComesBack d root f e := comesBack_of_endless
  have ever : NeverEnds d root f e → image? d root f e = .error .endless := fun h => h.endless _
  refine ⟨⟨fun h => (back h).neverEnds, ever⟩, ⟨fun h => back (ever h), ComesBack.neverEnds⟩, ?_⟩
  intro r
  constructor
  · intro finds
    obtain ⟨n, same⟩ := finds.eventually
    refine ⟨(finds.eq_or_endless _).resolve_right fun endless => ?_, finds.answers⟩
    exact finds.answers ((same n (Nat.le_refl n)).symm.trans ((back endless).neverEnds.endless n))
  · rintro ⟨rfl, ends⟩
    exact finds_of_answers _ e ends

/-- A value of one object is looked up in another one. -/
def Mentions (f : SourceFile) (o o' : String) : Prop :=
  ∃ value ∈ objectValues f o, indexedObject? value = some o'

/-- In a file whose objects do not mention each other for ever, every search ends. -/
theorem image?_ends (d : Disk) (root : String) (e : String)
    (ends : ∀ chain : Nat → String, ∃ n, ¬ Mentions f (chain n) (chain (n + 1))) :
    image? d root f e ≠ .error .endless := by
  intro endless
  obtain ⟨chain, -, asks⟩ := (comesBack_of_endless endless).neverEnds
  choose object before after indexed values _ using asks
  obtain ⟨n, apart⟩ := ends object
  exact apart ⟨chain (n + 1), by rw [values n]; simp, indexed (n + 1)⟩

/-- An object that has a value of its own for its first value is never left. -/
example : ∃ f ∈ SourceFile.parse "a.tsx" "const a = \x7b x: a[k] \x7d;",
    image? {} "/" f "a[k]" = .error .endless := by
  decide +kernel

end JsxAudit.Asset
