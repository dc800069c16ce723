import JsxAudit.Proofs.Cache.Store
import JsxAudit.Proofs.Data.Keyed

/-!
What a file of entries serves.

An entry is served under its key if its value, as a text, is not empty, and its locale, as a text,
is the one asked for. `Serves` says so of the values themselves: a text counts as what it is, and
any other value as what it is shown as. So the entry `null` under `value` is served as a text of its
own (`served_iff`).
-/

namespace JsxAudit.Cache

open Data

variable {fields entry : Fields} {key name locale text : String} {v document : Value}

/-! ### What is served -/

/-- A value as a text: a text is its own, and any other value is shown. -/
inductive ReadsAs : Value → String → Prop
  | text {s : String} : ReadsAs (.str s) s
  | shown {v : Value} : (∀ s, v ≠ .str s) → ReadsAs v v.shown

theorem readsAs_iff : ReadsAs v text ↔ v.plain = text := by
  constructor
  · rintro (_ | ⟨other⟩)
    · rfl
    · cases v with
      | str s => exact (other s rfl).elim
      | _ => rfl
  · rintro rfl
    cases v with
    | str s => exact .text
    | _ => exact .shown nofun

/-- A document serves a text under a key for a locale: there is an entry whose value reads as the
text, which is not empty, and whose locale reads as the one asked for. Without a locale an entry is
for the empty one. -/
inductive Serves : Value → String → String → String → Prop
  | intro {fields entry : Fields} {key locale text : String} {v : Value} :
      Keyed.get? fields key = some (.table entry) →
      Keyed.get? entry "value" = some v → ReadsAs v text → text ≠ "" →
      (∀ w, Keyed.get? entry "locale" = some w → ReadsAs w locale) →
      (Keyed.get? entry "locale" = none → locale = "") →
      Serves (.table fields) locale key text

/-- The entry under a key, if what is there is a table. -/
def entryAt? (v : Option Value) : Option CacheEntry :=
  match v with
  | some (.table entry) => some (CacheEntry.ofFields entry)
  | _ => none

/-- Entries are found under their keys, where each key is there once. -/
theorem get?_ofValue (nodup : (fields.map (·.1)).Nodup) (key : String) :
    Keyed.get? (Entries.ofValue (.table fields)) key = entryAt? (Keyed.get? fields key) := by
  unfold Entries.ofValue
  dsimp only
  induction fields with
  | nil => rfl
  | cons field rest ih =>
    obtain ⟨name, v⟩ := field
    rw [List.map_cons, List.nodup_cons] at nodup
    have later := ih nodup.2
    by_cases same : key = name
    · -- The value that is first under the key decides, even if it is no table and is left out.
      subst same
      have absent : Keyed.get? rest key = none := by
        cases found : Keyed.get? rest key with
        | none => rfl
        | some w =>
          have mem : (key, w) ∈ rest := Keyed.mem_of_lookup found
          exact (nodup.1 (List.mem_map.mpr ⟨(key, w), mem, rfl⟩)).elim
      rw [absent] at later
      cases v with
      | table entry => simp [Keyed.get?, entryAt?]
      | _ => simpa [Keyed.get?, entryAt?] using later
    · have other : (key == name) = false := beq_eq_false_iff_ne.mpr same
      unfold Keyed.get? at later ⊢
      rw [List.lookup_cons, other]
      cases v with
      | table entry => rw [List.filterMap_cons, List.lookup_cons, other, later]
      | _ => rw [List.filterMap_cons, later]

/-- The text of a field that is not empty is that of a value that is there. -/
theorem fieldText_eq_iff (given : text ≠ "") : CacheEntry.fieldText entry name = text ↔
    ∃ v, Keyed.get? entry name = some v ∧ ReadsAs v text := by
  unfold CacheEntry.fieldText
  cases Keyed.get? entry name with
  | none => simpa using given.symm
  | some v => simp [readsAs_iff]

theorem fieldText_eq_or_missing : CacheEntry.fieldText entry name = text ↔
    (∀ w, Keyed.get? entry name = some w → ReadsAs w text) ∧
      (Keyed.get? entry name = none → text = "") := by
  unfold CacheEntry.fieldText
  cases Keyed.get? entry name with
  | none => simp [eq_comm]
  | some v => simp [readsAs_iff]

/-- What the entries of a document have under a key, for a locale and not empty, is what the
document serves. -/
theorem served_iff (nodup : ∀ fields, document = .table fields → (fields.map (·.1)).Nodup) :
    (∃ e, Keyed.get? (Entries.ofValue document) key = some e ∧ e.locale = locale ∧
      e.value = text ∧ text ≠ "") ↔ Serves document locale key text := by
  constructor
  · rintro ⟨e, found, rfl, rfl, given⟩
    cases document with
    | table fields =>
      rw [get?_ofValue (nodup fields rfl)] at found
      cases entry : Keyed.get? fields key with
      | none =>
        rw [entry] at found
        cases found
      | some v =>
        rw [entry] at found
        cases v with
        | table entry' =>
          cases found
          obtain ⟨v, value, reads⟩ := (fieldText_eq_iff given).mp rfl
          obtain ⟨locale, missing⟩ := fieldText_eq_or_missing.mp
            (rfl : CacheEntry.fieldText entry' "locale" = _)
          exact .intro entry value reads given locale missing
        | _ => cases found
    | _ => cases found
  · rintro ⟨entry, value, reads, given, locale, missing⟩
    refine ⟨_, by rw [get?_ofValue (nodup _ rfl), entry]; rfl, ?_, ?_, given⟩
    · exact fieldText_eq_or_missing.mpr ⟨locale, missing⟩
    · exact (fieldText_eq_iff given).mpr ⟨_, value, reads⟩

end JsxAudit.Cache
