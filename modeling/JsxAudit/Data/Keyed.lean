/-!
Values under names, in the order in which the names were first set.

Setting a name again keeps its place and takes the new value. `get?_set` says that this is a finite
map; the order only shows where the values are written out.
-/

namespace JsxAudit.Data

/-- Values under names, each name once. -/
abbrev Keyed (α : Type) := List (String × α)

namespace Keyed

variable {α : Type}

/-- The value under a name. -/
def get? (values : Keyed α) (name : String) : Option α :=
  List.lookup name values

/-- One value replaced, or added at the end. -/
def set (name : String) (v : α) : Keyed α → Keyed α
  | [] => [(name, v)]
  | (k, w) :: rest => if k = name then (k, v) :: rest else (k, w) :: set name v rest

/-- Values read one after the other. -/
def ofList (values : List (String × α)) : Keyed α :=
  values.foldl (fun acc pair => set pair.1 pair.2 acc) []

/-- The values with those of `other` set on top. -/
def update (values other : Keyed α) : Keyed α :=
  other.foldl (fun acc pair => set pair.1 pair.2 acc) values

theorem get?_set (name key : String) (v : α) (values : Keyed α) :
    get? (set name v values) key = if key = name then some v else get? values key := by
  induction values with
  | nil =>
    by_cases h : key = name <;> simp [set, get?, List.lookup_cons, h, beq_eq_false_iff_ne.mpr]
  | cons pair rest ih =>
    obtain ⟨k, w⟩ := pair
    simp only [get?] at ih
    by_cases hk : k = name
    · subst hk
      by_cases h : key = k <;> simp [set, get?, List.lookup_cons, h, beq_eq_false_iff_ne.mpr]
    · by_cases h : key = k
      · subst h
        simp [set, get?, hk]
      · simp [set, get?, List.lookup_cons, hk, h, ih, beq_eq_false_iff_ne.mpr]

end Keyed

end JsxAudit.Data
