import JsxAudit.Proofs.Text.Braces

/-!
Patterns with groups, side by side.

Where no group begins in the first of two parts and ends in the second (`GroupsApart`), the parts
stand side by side for what each of them stands for (`GroupsApart.mem_expandChars_between`). In what
the expansion gives there is no group left (`not_sublist_of_mem_expandChars`), so its parts are
always apart (`GroupsApart.of_not_sublist`).
-/

namespace JsxAudit.Text.Braces

variable {cs ds w x : List Char} {opened : Bool}

/-! ### Braces without a partner, side by side -/

theorem Pattern.mem_text_of_mem_strays {c : Char} : ∀ {p : Pattern}, c ∈ p.strays → c ∈ p.text
  | .char d rest, mem => by
    rw [strays] at mem
    rw [text]
    split at mem
    · exact (List.mem_cons.mp mem).elim (· ▸ List.mem_cons_self) fun mem =>
        List.mem_cons_of_mem d (mem_text_of_mem_strays mem)
    · exact List.mem_cons_of_mem d (mem_text_of_mem_strays mem)
  | .group choice rest, mem => by
    rw [text]
    have later : c ∈ rest.text := mem_text_of_mem_strays (p := rest) mem
    simp [later]

theorem Pattern.strays_append : ∀ p q : Pattern, (p.append q).strays = p.strays ++ q.strays
  | .done, _ => rfl
  | .char c rest, q => by
    rw [append, strays, strays, strays_append rest q]
    split <;> rfl
  | .group _ rest, q => strays_append rest q

/-- Behind an opening brace can stand what has no closing one left over. -/
theorem Pattern.outer_opened : ∀ {p : Pattern}, p.Outer false → '}' ∉ p.strays → p.Outer true
  | .done, _, _ => trivial
  | .char c rest, h, closed => by
    have here : c ≠ '}' := by
      rintro rfl
      exact closed (by simp [strays, isBrace])
    have later : '}' ∉ rest.strays := fun mem => closed <| by
      rw [strays]
      split
      · exact List.mem_cons_of_mem c mem
      · exact mem
    refine ⟨fun both => here both.2, ?_⟩
    have outer := h.2
    rw [Bool.true_or]
    cases opening : c == '{' with
    | true => rwa [opening] at outer
    | false =>
      rw [opening] at outer
      exact outer_opened outer later
  | .group _ _, h, closed => ⟨h.1, outer_opened h.2 closed⟩

theorem Pattern.contains_strays_char (c : Char) (rest : Pattern) :
    (strays (.char c rest)).contains '{' = (c == '{' || rest.strays.contains '{') := by
  rw [strays]
  split
  · rw [List.contains_cons, Bool.beq_comm]
  · rename_i plain
    have opening : (c == '{') = false := by
      simp only [isBrace, Bool.or_eq_true, not_or, Bool.not_eq_true] at plain
      exact plain.1
    rw [opening, Bool.false_or]

/-- What stands outside of groups can stand so behind a pattern that leaves no brace open for it. -/
theorem Pattern.Outer.append : ∀ {p q : Pattern} {opened : Bool}, p.Outer opened →
    q.Outer (opened || p.strays.contains '{') → (p.append q).Outer opened
  | .done, _, opened, _, hq => (Bool.or_false opened) ▸ hq
  | .char c rest, _, _, hp, hq => by
    rw [contains_strays_char, ← Bool.or_assoc] at hq
    exact ⟨hp.1, Pattern.Outer.append hp.2 hq⟩
  | .group _ _, _, _, hp, hq => ⟨hp.1, Pattern.Outer.append hp.2 hq⟩

/-! ### Parts without a group in common -/

/-- No group begins in the first part and ends in the second: an opening brace that is left over in
the one does not meet a closing one that is left over in the other. -/
def GroupsApart (cs ds : List Char) : Prop :=
  ∃ p q : Pattern, p.Reads cs ∧ q.Reads ds ∧ ¬ ('{' ∈ p.strays ∧ '}' ∈ q.strays)

theorem GroupsApart.of_nested (h : nested 0 cs = true) (ds : List Char) : GroupsApart cs ds := by
  obtain ⟨p, reads⟩ := Pattern.exists_reads cs
  obtain ⟨q, reads'⟩ := Pattern.exists_reads ds
  refine ⟨p, q, reads, reads', fun both => ?_⟩
  rw [reads.nested_iff.mp h] at both
  exact List.not_mem_nil both.1

theorem GroupsApart.of_not_sublist (h : ¬ ['{', '}'].Sublist (cs ++ ds)) : GroupsApart cs ds := by
  obtain ⟨p, reads⟩ := Pattern.exists_reads cs
  obtain ⟨q, reads'⟩ := Pattern.exists_reads ds
  refine ⟨p, q, reads, reads', fun both => h ?_⟩
  have front := reads.text ▸ Pattern.mem_text_of_mem_strays both.1
  have back := reads'.text ▸ Pattern.mem_text_of_mem_strays both.2
  exact (List.singleton_sublist.mpr front).append (List.singleton_sublist.mpr back)

/-- Parts without a group in common are expanded on their own. -/
theorem GroupsApart.mem_expandChars_append (h : GroupsApart cs ds) :
    x ∈ expandChars (cs ++ ds) ↔ ∃ a ∈ expandChars cs, ∃ b ∈ expandChars ds, a ++ b = x := by
  obtain ⟨p, q, reads, reads', apart⟩ := h
  have outer : (p.append q).Outer false := by
    refine reads.outer.append ?_
    rw [Bool.false_or]
    cases left : p.strays.contains '{' with
    | false => exact reads'.outer
    | true =>
      have opening : '{' ∈ p.strays := List.contains_iff_mem.mp left
      exact Pattern.outer_opened reads'.outer fun closing => apart ⟨opening, closing⟩
  rw [← reads.text, ← reads'.text, ← p.text_append, mem_expandChars_text outer,
    Pattern.mem_denoted_append]
  simp only [mem_expandChars_text reads.outer, mem_expandChars_text reads'.outer]

/-! ### Characters without a group -/

theorem expandChars_of_not_sublist (h : ¬ ['{', '}'].Sublist cs) : expandChars cs = [cs] := by
  refine expandChars_of_plain (Option.eq_none_iff_forall_not_mem.mpr ?_)
  rintro ⟨front, inside, after⟩ found
  obtain ⟨rfl, -⟩ := eq_of_braceGroup? found
  refine h (.trans ?_ (List.sublist_append_right ..))
  exact .cons_cons _ (.trans (.cons_cons _ (List.nil_sublist after)) (List.sublist_append_right ..))

/-- In what the expansion gives there is no group. -/
theorem not_sublist_of_mem_expandChars (h : x ∈ expandChars cs) : ¬ ['{', '}'].Sublist x := by
  obtain ⟨p, reads⟩ := Pattern.exists_reads cs
  rw [← reads.text, mem_expandChars_text reads.outer] at h
  exact Pattern.not_sublist_of_mem_denoted reads.outer h

theorem expandChars_of_forall (h : ∀ c ∈ w, isBrace c = false) : expandChars w = [w] :=
  expandChars_of_not_sublist fun sub =>
    Bool.noConfusion (h '{' (sub.subset List.mem_cons_self))

theorem nested_of_forall (h : ∀ c ∈ w, isBrace c = false) : nested 0 w = true := by
  induction w with
  | nil => rfl
  | cons c rest ih =>
    obtain ⟨first, later⟩ := List.forall_mem_cons.mp h
    exact (nested_cons first 0 rest).trans (ih later)

theorem Pattern.Reads.strays_of_forall {p : Pattern} (reads : p.Reads w)
    (plain : ∀ c ∈ w, isBrace c = false) : p.strays = [] :=
  reads.nested_iff.mp (nested_of_forall plain)

theorem groupsApart_of_forall (cs : List Char) (plain : ∀ c ∈ w, isBrace c = false) :
    GroupsApart cs w := by
  obtain ⟨p, reads⟩ := Pattern.exists_reads cs
  obtain ⟨q, reads'⟩ := Pattern.exists_reads w
  refine ⟨p, q, reads, reads', fun both => ?_⟩
  rw [reads'.strays_of_forall plain] at both
  exact List.not_mem_nil both.2

theorem GroupsApart.append_left (h : GroupsApart cs ds) (plain : ∀ c ∈ w, isBrace c = false) :
    GroupsApart cs (w ++ ds) := by
  obtain ⟨p, q, reads, reads', apart⟩ := h
  obtain ⟨m, between⟩ := Pattern.exists_reads w
  have none := between.strays_of_forall plain
  refine ⟨p, m.append q, reads, ⟨between.outer.append ?_, ?_⟩, ?_⟩
  · rw [none]
    exact reads'.outer
  · rw [m.text_append, between.text, reads'.text]
  · rwa [m.strays_append, none, List.nil_append]

/-- Characters between the parts that are no braces stay where they are. -/
theorem GroupsApart.mem_expandChars_between (h : GroupsApart cs ds)
    (plain : ∀ c ∈ w, isBrace c = false) :
    x ∈ expandChars (cs ++ (w ++ ds)) ↔
      ∃ a ∈ expandChars cs, ∃ b ∈ expandChars ds, a ++ (w ++ b) = x := by
  have back := of_nested (nested_of_forall plain) ds
  rw [(h.append_left plain).mem_expandChars_append]
  simp only [back.mem_expandChars_append, expandChars_of_forall plain, List.mem_singleton,
    exists_eq_left, exists_exists_and_eq_and]

end JsxAudit.Text.Braces
