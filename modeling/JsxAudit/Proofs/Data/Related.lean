import Mathlib.Data.List.Forall2

/-!
Lists and options whose elements are related one by one.

Two lists in step stay in step under the same operation, if what the operation asks of related
elements has the same answer, or related answers.
-/

namespace JsxAudit

variable {α β α' β' : Type} {R : α → β → Prop} {S : α' → β' → Prop}

/-! ### Options -/

section

variable {a : Option α} {b : Option β}

theorem isSome_eq_of_rel (h : Option.Rel R a b) : a.isSome = b.isSome := by
  cases h with
  | some _ => rfl
  | none => rfl

theorem eq_of_rel {a b : Option α} (h : Option.Rel Eq a b) : a = b := by
  cases h with
  | some same => rw [same]
  | none => rfl

theorem rel_imp {R' : α → β → Prop} (h : Option.Rel R a b) (imp : ∀ x y, R x y → R' x y) :
    Option.Rel R' a b := by
  cases h with
  | some related => exact .some (imp _ _ related)
  | none => exact .none

theorem rel_map_option {g : α → α'} {g' : β → β'} (h : Option.Rel R a b)
    (each : ∀ x y, R x y → S (g x) (g' y)) : Option.Rel S (a.map g) (b.map g') := by
  cases h with
  | some related => exact .some (each _ _ related)
  | none => exact .none

theorem rel_bind {g : α → Option α'} {g' : β → Option β'} (h : Option.Rel R a b)
    (each : ∀ x y, R x y → Option.Rel S (g x) (g' y)) :
    Option.Rel S (a.bind g) (b.bind g') := by
  cases h with
  | some related => exact each _ _ related
  | none => exact .none

theorem rel_or {a' : Option α} {b' : Option β} (h : Option.Rel R a b)
    (h' : Option.Rel R a' b') : Option.Rel R (a.or a') (b.or b') := by
  cases h with
  | some related => exact .some related
  | none => exact h'

theorem rel_getD {x : α} {y : β} (h : Option.Rel R a b) (default : R x y) :
    R (a.getD x) (b.getD y) := by
  cases h with
  | some related => exact related
  | none => exact default

end

/-! ### Lists -/

section

variable {xs : List α} {ys : List β} {p : α → Bool} {q : β → Bool}

theorem any_eq_of_rel (h : List.Forall₂ R xs ys) (same : ∀ x y, R x y → p x = q y) :
    xs.any p = ys.any q := by
  induction h with
  | nil => rfl
  | cons first _ ih => rw [List.any_cons, List.any_cons, same _ _ first, ih]

theorem isEmpty_eq_of_rel (h : List.Forall₂ R xs ys) : xs.isEmpty = ys.isEmpty := by
  cases h with
  | nil => rfl
  | cons _ _ => rfl

theorem map_eq_of_rel {γ : Type} {g : α → γ} {g' : β → γ} (h : List.Forall₂ R xs ys)
    (each : ∀ x y, R x y → g x = g' y) : xs.map g = ys.map g' := by
  induction h with
  | nil => rfl
  | cons first _ ih => rw [List.map_cons, List.map_cons, each _ _ first, ih]

theorem flatMap_eq_of_rel {γ : Type} {g : α → List γ} {g' : β → List γ}
    (h : List.Forall₂ R xs ys) (each : ∀ x y, R x y → g x = g' y) :
    xs.flatMap g = ys.flatMap g' := by
  rw [List.flatMap, List.flatMap, map_eq_of_rel h each]

theorem exists_rel_of_mem {y : β} (h : List.Forall₂ R xs ys) (mem : y ∈ ys) : ∃ x ∈ xs, R x y := by
  induction h with
  | nil => cases mem
  | cons first _ ih =>
    rcases List.mem_cons.mp mem with rfl | later
    · exact ⟨_, List.mem_cons_self, first⟩
    · obtain ⟨x, mem, related⟩ := ih later
      exact ⟨x, List.mem_cons_of_mem _ mem, related⟩

/-- Related elements stand at the same place of the two lists. -/
theorem rel_mem_zip (h : List.Forall₂ R xs ys) :
    List.Forall₂ (fun x y => (x, y) ∈ xs.zip ys ∧ R x y) xs ys :=
  List.forall₂_iff_zip.mpr ⟨h.length_eq, fun mem => ⟨mem, List.forall₂_zip h mem⟩⟩

theorem rel_zip {us : List α'} {vs : List β'} (h : List.Forall₂ R xs ys)
    (h' : List.Forall₂ S us vs) :
    List.Forall₂ (fun x y => R x.1 y.1 ∧ S x.2 y.2) (xs.zip us) (ys.zip vs) := by
  induction h generalizing us vs with
  | nil => exact .nil
  | cons first _ ih =>
    cases h' with
    | nil => exact .nil
    | cons first' rest' => exact .cons ⟨first, first'⟩ (ih rest')

theorem rel_head? (h : List.Forall₂ R xs ys) : Option.Rel R xs.head? ys.head? := by
  cases h with
  | nil => exact .none
  | cons first _ => exact .some first

/-- What a search finds is related, and is what was searched for. -/
theorem rel_find? (h : List.Forall₂ R xs ys) (same : ∀ x y, R x y → p x = q y) :
    Option.Rel (fun x y => p x = true ∧ R x y) (xs.find? p) (ys.find? q) := by
  induction h with
  | nil => exact .none
  | @cons x y xs ys first _ ih =>
    rw [List.find?_cons, List.find?_cons, ← same x y first]
    cases found : p x with
    | true => exact .some ⟨found, first⟩
    | false => exact ih

/-- What a filter lets through is related, and has passed it. -/
theorem rel_filter (h : List.Forall₂ R xs ys) (same : ∀ x y, R x y → p x = q y) :
    List.Forall₂ (fun x y => p x = true ∧ R x y) (xs.filter p) (ys.filter q) := by
  induction h with
  | nil => exact .nil
  | @cons x y xs ys first _ ih =>
    rw [List.filter_cons, List.filter_cons, ← same x y first]
    cases passed : p x with
    | true => exact .cons ⟨passed, first⟩ ih
    | false => exact ih

/-- What comes before the first element that does not pass is related, and has passed. -/
theorem rel_takeWhile (h : List.Forall₂ R xs ys) (same : ∀ x y, R x y → p x = q y) :
    List.Forall₂ (fun x y => p x = true ∧ R x y) (xs.takeWhile p) (ys.takeWhile q) := by
  induction h with
  | nil => exact .nil
  | @cons x y xs ys first _ ih =>
    rw [List.takeWhile_cons, List.takeWhile_cons, ← same x y first]
    cases passed : p x with
    | true => exact .cons ⟨passed, first⟩ ih
    | false => exact .nil

theorem rel_map {g : α → α'} {g' : β → β'} (h : List.Forall₂ R xs ys)
    (each : ∀ x y, R x y → S (g x) (g' y)) : List.Forall₂ S (xs.map g) (ys.map g') :=
  List.rel_map (fun _ _ related => each _ _ related) h

theorem rel_flatMap {g : α → List α'} {g' : β → List β'} (h : List.Forall₂ R xs ys)
    (each : ∀ x y, R x y → List.Forall₂ S (g x) (g' y)) :
    List.Forall₂ S (xs.flatMap g) (ys.flatMap g') :=
  List.rel_flatMap h fun _ _ related => each _ _ related

theorem rel_filterMap {g : α → Option α'} {g' : β → Option β'} (h : List.Forall₂ R xs ys)
    (each : ∀ x y, R x y → Option.Rel S (g x) (g' y)) :
    List.Forall₂ S (xs.filterMap g) (ys.filterMap g') :=
  List.rel_filterMap (fun _ _ related => each _ _ related) h

theorem rel_findSome? {g : α → Option α'} {g' : β → Option β'} (h : List.Forall₂ R xs ys)
    (each : ∀ x y, R x y → Option.Rel S (g x) (g' y)) :
    Option.Rel S (xs.findSome? g) (ys.findSome? g') := by
  rw [← List.head?_filterMap, ← List.head?_filterMap]
  exact rel_head? (rel_filterMap h each)

end

end JsxAudit
