import JsxAudit.Config.Resolve
import JsxAudit.Proofs.Data.Keyed

/-!
Fields of a file on top of others.

Under each name stands what `mergedValue` makes of the value before and that of the file
(`get?_merge`). To merge a file once more changes nothing, as a merged value stays as it is when the
value of the file is merged into it again (`merge_merge`).
-/

namespace JsxAudit.Config

open Data

variable {base file : Fields} {key : String}

/-- What stands under a name after a value was merged into what stood there. -/
def mergedValue (old : Option Value) (new : Value) : Option Value :=
  match new, old with
  | .null, _ => old
  | .table new, some (.table old) => some (.table (Keyed.update old new))
  | new, _ => some new

theorem mergedValue_of_plain {old : Option Value} (plain : ∀ fields, old ≠ some (.table fields))
    {value : Value} (given : value ≠ .null) : mergedValue old value = some value := by
  unfold mergedValue
  split
  · exact (given rfl).elim
  · exact (plain _ rfl).elim
  · rfl

theorem get?_mergeField (fields : Fields) (name key : String) (value : Value) :
    Keyed.get? (mergeField fields name value) key =
      if key = name then mergedValue (Keyed.get? fields name) value
      else Keyed.get? fields key := by
  unfold mergeField
  split
  · by_cases same : key = name <;> simp [same, mergedValue]
  · rename_i found
    simp only [Keyed.get?_set, found, mergedValue]
  · rename_i given apart
    rw [Keyed.get?_set]
    unfold mergedValue
    split
    · split
      · exact (given rfl).elim
      · rename_i found
        exact (apart _ _ rfl found).elim
      · rfl
    · rfl

theorem merge_cons (base rest : Fields) (name : String) (value : Value) :
    merge base ((name, value) :: rest) = merge (mergeField base name value) rest := rfl

theorem get?_merge_of_not_mem (h : key ∉ file.map (·.1)) (base : Fields) :
    Keyed.get? (merge base file) key = Keyed.get? base key := by
  induction file generalizing base with
  | nil => rfl
  | cons field rest ih =>
    obtain ⟨name, value⟩ := field
    rw [List.map_cons, List.mem_cons, not_or] at h
    rw [merge_cons, ih h.2, get?_mergeField, if_neg h.1]

/-- Where a file names each field once, the value under a name is made of two values. -/
theorem get?_merge (nodup : (file.map (·.1)).Nodup) (base : Fields) (key : String) :
    Keyed.get? (merge base file) key =
      match Keyed.get? file key with
      | none => Keyed.get? base key
      | some value => mergedValue (Keyed.get? base key) value := by
  induction file generalizing base with
  | nil => rfl
  | cons field rest ih =>
    obtain ⟨name, value⟩ := field
    obtain ⟨new, nodup⟩ := List.nodup_cons.mp nodup
    rw [merge_cons]
    by_cases same : key = name
    · subst same
      have found : Keyed.get? ((key, value) :: rest) key = some value := by
        simp [Keyed.get?]
      rw [get?_merge_of_not_mem new, get?_mergeField, if_pos rfl, found]
    · have skipped : Keyed.get? ((name, value) :: rest) key = Keyed.get? rest key := by
        rw [Keyed.get?, List.lookup_cons, beq_eq_false_iff_ne.mpr same]
        rfl
      rw [ih nodup, skipped, get?_mergeField, if_neg same]

/-! ### A file merged again -/

theorem mergeField_eq_self {fields : Fields} {value : Value}
    (h : mergedValue (Keyed.get? fields key) value = Keyed.get? fields key) :
    mergeField fields key value = fields := by
  unfold mergeField
  split
  · rfl
  · rename_i found
    rw [found] at h
    exact Keyed.set_of_get? (found.trans h.symm)
  · rename_i plain inner
    refine Keyed.set_of_get? (h.symm.trans ?_)
    unfold mergedValue
    split
    · exact (plain rfl).elim
    · rename_i found
      exact (inner _ _ rfl found).elim
    · rfl

/-- A value of the file that is merged into what it has made changes nothing. -/
theorem mergedValue_mergedValue (old : Option Value) {value : Value} (h : Json.NamedOnce value) :
    mergedValue (mergedValue old value) value = mergedValue old value := by
  cases h with
  | table _ nodup =>
    cases old with
    | none => simp [mergedValue, Keyed.update_eq_self fun _ => Keyed.get?_of_mem nodup]
    | some old =>
      cases old with
      | table old => simp [mergedValue, Keyed.update_update_self nodup]
      | _ => simp [mergedValue, Keyed.update_eq_self fun _ => Keyed.get?_of_mem nodup]
  | _ => cases old <;> rfl

theorem merge_eq_self (h : ∀ field ∈ file,
    mergedValue (Keyed.get? base field.1) field.2 = Keyed.get? base field.1) :
    merge base file = base := by
  induction file with
  | nil => rfl
  | cons field rest ih =>
    rw [merge_cons, mergeField_eq_self (h field List.mem_cons_self),
      ih fun other mem => h other (List.mem_cons_of_mem _ mem)]

theorem merge_merge (named : Json.NamedOnce (.table file)) (base : Fields) :
    merge (merge base file) file = merge base file := by
  cases named with
  | table inner nodup =>
    refine merge_eq_self fun field mem => ?_
    rw [get?_merge nodup, Keyed.get?_of_mem nodup mem]
    exact mergedValue_mergedValue _ (inner field mem)

end JsxAudit.Config
