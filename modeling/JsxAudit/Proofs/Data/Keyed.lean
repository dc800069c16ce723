import JsxAudit.Data.JsonReader
import Mathlib.Data.List.Nodup

/-!
Values under names.

Setting a value keeps the names distinct (`nodup_set`), and so the tables of a document that has been
read have distinct names, whatever the text repeats (`namedOnce_of_read?`).

After an update a name has the value that was set last under it, or the one it had before
(`get?_update`). The names keep their places, and new ones come behind them (`names_prefix_update`).
Where each name is set once, an update made again changes nothing (`update_update_self`).
-/

namespace JsxAudit.Data

namespace Keyed

variable {α : Type} {values other : Keyed α}

/-! ### Setting a value -/

/-- Setting a value adds its name if it is new, and no other. -/
theorem map_fst_set (name : String) (v : α) (values : Keyed α) :
    (set name v values).map (·.1) =
      if name ∈ values.map (·.1) then values.map (·.1) else values.map (·.1) ++ [name] := by
  induction values with
  | nil => rfl
  | cons pair rest ih =>
    obtain ⟨k, w⟩ := pair
    rw [set]
    by_cases same : k = name
    · simp [same]
    · rw [if_neg same, List.map_cons, List.map_cons, ih]
      by_cases known : name ∈ rest.map (·.1)
      · rw [if_pos known, if_pos (List.mem_cons_of_mem _ known)]
      · rw [if_neg known, if_neg fun mem => (List.mem_cons.mp mem).elim (Ne.symm same) known,
          List.cons_append]

theorem nodup_set (name : String) (v : α) {values : Keyed α} (h : (values.map (·.1)).Nodup) :
    ((set name v values).map (·.1)).Nodup := by
  rw [map_fst_set]
  split
  · exact h
  · rename_i new
    exact List.nodup_append.mpr ⟨h, List.nodup_singleton _, fun a mem b last same =>
      new (List.mem_singleton.mp last ▸ same ▸ mem)⟩

theorem of_mem_set {name : String} {v : α} {pair : String × α} (h : pair ∈ set name v values) :
    pair = (name, v) ∨ pair ∈ values := by
  induction values with
  | nil => exact .inl (List.mem_singleton.mp h)
  | cons first rest ih =>
    rw [set] at h
    split at h
    · rename_i same
      rcases List.mem_cons.mp h with rfl | mem
      · exact .inl (by rw [same])
      · exact .inr (List.mem_cons_of_mem _ mem)
    · rcases List.mem_cons.mp h with rfl | mem
      · exact .inr List.mem_cons_self
      · exact (ih mem).imp_right (List.mem_cons_of_mem _)

/-! ### Updates -/

/-- The pair that a lookup finds is in the list. -/
theorem mem_of_lookup {key : String} {a : α} (h : List.lookup key values = some a) :
    (key, a) ∈ values := by
  obtain ⟨before, after, rfl, -⟩ := List.lookup_eq_some_iff.mp h
  exact List.mem_append_right _ List.mem_cons_self

theorem get?_isSome_iff {key : String} :
    (get? values key).isSome = true ↔ key ∈ values.map (·.1) := by
  rw [get?, List.lookup_isSome_iff, List.mem_map]
  exact exists_congr fun pair => and_congr_right fun _ => beq_iff_eq.trans eq_comm

@[simp] theorem update_nil (values : Keyed α) : update values [] = values := rfl

theorem update_cons (values : Keyed α) (pair : String × α) (rest : Keyed α) :
    update values (pair :: rest) = update (set pair.1 pair.2 values) rest := rfl

/-- An update brings no pair that was in neither. -/
theorem forall_mem_update {p : String × α → Prop} (h : ∀ pair ∈ values, p pair)
    (h' : ∀ pair ∈ other, p pair) : ∀ pair ∈ update values other, p pair := by
  induction other generalizing values with
  | nil => exact h
  | cons first rest ih =>
    obtain ⟨here, later⟩ := List.forall_mem_cons.mp h'
    rw [update_cons]
    refine ih (fun pair mem => ?_) later
    rcases of_mem_set mem with rfl | mem
    · exact here
    · exact h pair mem

/-- Two updates one after the other are one. -/
theorem update_update (values first second : Keyed α) :
    update (update values first) second = update values (first ++ second) :=
  (List.foldl_append ..).symm

theorem get?_append (values other : Keyed α) (name : String) :
    get? (values ++ other) name = (get? values name).or (get? other name) :=
  List.lookup_append

theorem get?_singleton (name : String) (v : α) (key : String) :
    get? [(name, v)] key = if key = name then some v else none := by
  by_cases same : key = name <;> simp [get?, List.lookup_cons, same, beq_eq_false_iff_ne.mpr]

/-- The value under a name after an update: the last one that was set, or the one before. -/
theorem get?_update (values other : Keyed α) (name : String) :
    get? (update values other) name = (get? other.reverse name).or (get? values name) := by
  induction other generalizing values with
  | nil => rfl
  | cons pair rest ih =>
    rw [update_cons, ih, get?_set, List.reverse_cons, get?_append, get?_singleton, Option.or_assoc]
    split <;> rfl

/-- No name is lost in an update, and each keeps its place. -/
theorem names_prefix_update (values other : Keyed α) :
    values.map (·.1) <+: (update values other).map (·.1) := by
  induction other generalizing values with
  | nil => exact List.prefix_refl _
  | cons pair rest ih =>
    refine List.IsPrefix.trans ?_ (ih (set pair.1 pair.2 values))
    rw [map_fst_set]
    split
    · exact List.prefix_refl _
    · exact List.prefix_append _ _

theorem nodup_update (values other : Keyed α) (h : (values.map (·.1)).Nodup) :
    ((update values other).map (·.1)).Nodup := by
  induction other generalizing values with
  | nil => exact h
  | cons pair rest ih => exact ih _ (nodup_set pair.1 pair.2 h)

/-- Values by name are set on top of none. -/
theorem nodup_ofList (values : List (String × α)) : ((ofList values).map (·.1)).Nodup :=
  nodup_update [] values List.nodup_nil

/-! ### Names that are there once -/

/-- Of a name that is there once, the lookup finds the value. -/
theorem get?_of_mem (nodup : (values.map (·.1)).Nodup) {name : String} {v : α}
    (h : (name, v) ∈ values) : get? values name = some v := by
  obtain ⟨before, after, rfl⟩ := List.mem_iff_append.mp h
  have new : name ∉ before.map (·.1) := by
    rw [List.map_append, List.map_cons] at nodup
    exact fun mem => (List.nodup_append.mp nodup).2.2 _ mem _ List.mem_cons_self rfl
  refine List.lookup_eq_some_iff.mpr ⟨before, after, rfl, fun pair mem => ?_⟩
  refine bne_iff_ne.mpr fun same => new ?_
  rw [same]
  exact List.mem_map_of_mem mem

theorem get?_reverse (nodup : (values.map (·.1)).Nodup) (name : String) :
    get? values.reverse name = get? values name := by
  have reversed : (values.reverse.map (·.1)).Nodup := by
    rw [List.map_reverse]
    exact List.nodup_reverse.mpr nodup
  refine Option.ext fun v => ⟨fun found => ?_, fun found => ?_⟩
  · exact get?_of_mem nodup (List.mem_reverse.mp (mem_of_lookup found))
  · exact get?_of_mem reversed (List.mem_reverse.mpr (mem_of_lookup found))

/-- A value set where it stands already changes nothing. -/
theorem set_of_get? {name : String} {v : α} (h : get? values name = some v) :
    set name v values = values := by
  obtain ⟨before, after, rfl, new⟩ := List.lookup_eq_some_iff.mp h
  clear h
  induction before with
  | nil => simp [set]
  | cons pair rest ih =>
    have ne : pair.1 ≠ name := (bne_iff_ne.mp (new pair List.mem_cons_self)).symm
    rw [List.cons_append, set, if_neg ne, ih fun p mem => new p (List.mem_cons_of_mem _ mem)]

theorem update_eq_self (h : ∀ pair ∈ other, get? values pair.1 = some pair.2) :
    update values other = values := by
  induction other with
  | nil => rfl
  | cons pair rest ih =>
    rw [update_cons, set_of_get? (h pair List.mem_cons_self),
      ih fun p mem => h p (List.mem_cons_of_mem _ mem)]

theorem update_update_self (nodup : (other.map (·.1)).Nodup) (values : Keyed α) :
    update (update values other) other = update values other := by
  refine update_eq_self fun pair mem => ?_
  rw [get?_update, get?_reverse nodup, get?_of_mem nodup mem, Option.some_or]

end Keyed

namespace Json

/-- Every table in the value names each field once. -/
inductive NamedOnce : Value → Prop
  | null : NamedOnce .null
  | bool (b : Bool) : NamedOnce (.bool b)
  | int (n : Int) : NamedOnce (.int n)
  | float (x : Float) : NamedOnce (.float x)
  | str (s : String) : NamedOnce (.str s)
  | list {items : List Value} : (∀ v ∈ items, NamedOnce v) → NamedOnce (.list items)
  | table {fields : List (String × Value)} : (∀ field ∈ fields, NamedOnce field.2) →
    (fields.map (·.1)).Nodup → NamedOnce (.table fields)

theorem namedOnce_of_readMagnitude {negative : Bool} {cs rest : List Char} {v : Value}
    (h : readMagnitude negative cs = some (v, rest)) : NamedOnce v := by
  unfold readMagnitude at h
  dsimp only at h
  split at h
  · cases h
  · split at h
    · split at h
      · cases h
        exact .int _
      · cases h
    · cases h
      exact .float _

/-- What is read with some fuel names each field once. -/
structure ReadsNamedOnce (fuel : Nat) : Prop where
  value : ∀ {cs v rest}, readValue fuel cs = some (v, rest) → NamedOnce v
  items : ∀ {cs items rest}, readItems fuel cs = some (items, rest) → ∀ v ∈ items, NamedOnce v
  fields : ∀ {cs fields rest}, readFields fuel cs = some (fields, rest) →
    ∀ field ∈ fields, NamedOnce field.2

theorem namedOnce_of_readValue {fuel : Nat} (h : ReadsNamedOnce fuel) {cs rest : List Char}
    {v : Value} (read : readValue (fuel + 1) cs = some (v, rest)) : NamedOnce v := by
  rw [readValue.eq_def] at read
  dsimp only at read
  split at read
  · obtain ⟨text, -, eq⟩ := Option.map_eq_some_iff.mp read
    cases eq
    exact .str _
  · split at read
    · cases read
      exact .table (List.forall_mem_nil _) List.nodup_nil
    · obtain ⟨listed, found, eq⟩ := Option.map_eq_some_iff.mp read
      cases eq
      have named := Keyed.forall_mem_update (List.forall_mem_nil _) (h.fields found)
      exact .table named (Keyed.nodup_ofList _)
  · split at read
    · cases read
      exact .list (List.forall_mem_nil _)
    · obtain ⟨items, found, eq⟩ := Option.map_eq_some_iff.mp read
      cases eq
      exact .list (h.items found)
  -- What is left is a word or a number.
  all_goals first
    | exact namedOnce_of_readMagnitude read
    | cases read
      constructor

theorem namedOnce_of_readItems {fuel : Nat} (h : ReadsNamedOnce fuel) {cs rest : List Char}
    {items : List Value} (read : readItems (fuel + 1) cs = some (items, rest)) :
    ∀ v ∈ items, NamedOnce v := by
  rw [readItems] at read
  simp only [Option.bind_eq_bind, Option.bind_eq_some_iff] at read
  obtain ⟨⟨v, after⟩, first, read⟩ := read
  have named := h.value first
  dsimp only at read
  split at read
  · cases read
    exact List.forall_mem_singleton.mpr named
  · obtain ⟨⟨more, rest⟩, found, eq⟩ := Option.bind_eq_some_iff.mp read
    cases eq
    exact List.forall_mem_cons.mpr ⟨named, h.items found⟩
  · cases read

theorem namedOnce_of_readFields {fuel : Nat} (h : ReadsNamedOnce fuel) {cs rest : List Char}
    {fields : List (String × Value)} (read : readFields (fuel + 1) cs = some (fields, rest)) :
    ∀ field ∈ fields, NamedOnce field.2 := by
  rw [readFields.eq_def] at read
  dsimp only at read
  split at read
  · obtain ⟨⟨name, after⟩, -, read⟩ := Option.bind_eq_some_iff.mp read
    dsimp only at read
    split at read
    · obtain ⟨⟨v, after⟩, first, read⟩ := Option.bind_eq_some_iff.mp read
      have named := h.value first
      dsimp only at read
      split at read
      · cases read
        exact List.forall_mem_singleton.mpr named
      · obtain ⟨⟨more, rest⟩, found, eq⟩ := Option.bind_eq_some_iff.mp read
        cases eq
        exact List.forall_mem_cons.mpr ⟨named, h.fields found⟩
      · cases read
    · cases read
  · cases read

theorem readsNamedOnce (fuel : Nat) : ReadsNamedOnce fuel := by
  induction fuel with
  | zero => exact ⟨nofun, nofun, nofun⟩
  | succ fuel ih =>
    exact ⟨namedOnce_of_readValue ih, namedOnce_of_readItems ih, namedOnce_of_readFields ih⟩

/-- The tables that a document holds name each field once. -/
theorem namedOnce_of_read? {s : String} {v : Value} (h : read? s = some v) : NamedOnce v := by
  unfold read? at h
  simp only [Option.bind_eq_bind, Option.bind_eq_some_iff] at h
  obtain ⟨⟨v, rest⟩, found, h⟩ := h
  split at h
  · cases h
    exact (readsNamedOnce _).value found
  · cases h

theorem NamedOnce.nodup {fields : Fields} (h : NamedOnce (.table fields)) :
    (fields.map (·.1)).Nodup := by
  cases h with
  | table _ nodup => exact nodup

theorem NamedOnce.get? {fields : Fields} (h : NamedOnce (.table fields)) {name : String} {v : Value}
    (found : Keyed.get? fields name = some v) : NamedOnce v := by
  cases h with
  | table named _ => exact named _ (Keyed.mem_of_lookup found)

end Json

end JsxAudit.Data
