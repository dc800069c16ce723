import JsxAudit.Proofs.Data.Related

/-!
Computations that may fail.

A computation of several parts ends well where all its parts do. A list that is mapped has a result
for each item, in the same order (`forall₂_of_mapM`), and fails where a step does
(`mapM_eq_ok_iff`).
-/

namespace JsxAudit

/-- A computation that has ended well has done so in both of its parts. -/
theorem exists_of_bind_eq_ok {ε α β : Type} {x : Except ε α} {f : α → Except ε β} {b : β}
    (h : (x >>= f) = .ok b) : ∃ a, x = .ok a ∧ f a = .ok b := by
  cases x with
  | error e => cases h
  | ok a => exact ⟨a, rfl, h⟩

/-- What is computed as an option has ended well. -/
theorem eq_ok_of_toOption {ε α : Type} {x : Except ε α} {a : α} (h : x.toOption = some a) :
    x = .ok a := by
  cases x with
  | error e => cases h
  | ok b => exact congrArg Except.ok (Option.some.inj h)

theorem forall₂_of_mapM {ε α β : Type} {step : α → Except ε β} {items : List α}
    {results : List β} (h : items.mapM step = .ok results) :
    List.Forall₂ (fun a b => step a = .ok b) items results := by
  induction items generalizing results with
  | nil =>
    cases h
    exact .nil
  | cons a rest ih =>
    rw [List.mapM_cons] at h
    obtain ⟨b, first, h⟩ := exists_of_bind_eq_ok h
    obtain ⟨more, others, h⟩ := exists_of_bind_eq_ok h
    cases h
    exact .cons first (ih others)

/-- A result of a list that is mapped without failure is that of one of its items. -/
theorem exists_of_mem_mapM {ε α β : Type} {step : α → Except ε β} {items : List α}
    {results : List β} (h : items.mapM step = .ok results) {b : β} (mem : b ∈ results) :
    ∃ a ∈ items, step a = .ok b := by
  obtain ⟨a, there, eq⟩ := exists_rel_of_mem (forall₂_of_mapM h) mem
  exact ⟨a, there, eq⟩

/-- A list is mapped without failure exactly if no step fails; here the results are known. -/
theorem mapM_eq_ok_iff {α β γ ε : Type} {step : α → Except ε β} {run : α → Except ε γ} {g : α → β}
    {items : List α} (known : ∀ a ∈ items, step a = (run a).map fun _ => g a) {results : List β} :
    items.mapM step = .ok results ↔ results = items.map g ∧ ∀ a ∈ items, ∃ c, run a = .ok c := by
  induction items generalizing results with
  | nil =>
    rw [List.mapM_nil]
    constructor
    · intro h
      cases h
      exact ⟨rfl, nofun⟩
    · rintro ⟨rfl, -⟩
      rfl
  | cons a rest ih =>
    have others {more : List β} : rest.mapM step = .ok more ↔
        more = rest.map g ∧ ∀ x ∈ rest, ∃ c, run x = .ok c :=
      ih fun x mem => known x (List.mem_cons_of_mem _ mem)
    rw [List.mapM_cons, known a List.mem_cons_self]
    cases first : run a with
    | error e =>
      constructor
      · intro h
        cases h
      · rintro ⟨-, all⟩
        obtain ⟨c, ran⟩ := all a List.mem_cons_self
        cases first.symm.trans ran
    | ok c =>
      cases mapped : rest.mapM step with
      | error e =>
        constructor
        · intro h
          cases h
        · rintro ⟨-, all⟩
          cases mapped.symm.trans
            (others.mpr ⟨rfl, fun x mem => all x (List.mem_cons_of_mem _ mem)⟩)
      | ok more =>
        obtain ⟨rfl, runs⟩ := others.mp mapped
        constructor
        · intro h
          cases h
          refine ⟨rfl, fun x mem => ?_⟩
          rcases List.mem_cons.mp mem with rfl | mem
          · exact ⟨c, first⟩
          · exact runs x mem
        · rintro ⟨rfl, -⟩
          rfl

end JsxAudit
