import JsxAudit.Text.Blank

/-!
Brace groups in patterns: a group of alternatives between braces, separated by commas, stands for
one pattern per alternative.

`expandChars` takes the leftmost group that holds no other group, puts each alternative in its
place, and goes on with the results. A brace that belongs to no group stands for itself.
-/

namespace JsxAudit.Text

def isBrace (c : Char) : Bool :=
  c == '{' || c == '}'

/-- What stands inside and after a group whose opening brace was just read. -/
def closeGroup? (rest : List Char) : Option (List Char × List Char) :=
  match rest.dropWhile fun x => !isBrace x with
  | '}' :: after => some (rest.takeWhile fun x => !isBrace x, after)
  | _ => none

/-- What stands before, inside and after the leftmost group without a brace inside. -/
def braceGroup? : List Char → Option (List Char × List Char × List Char)
  | [] => none
  | c :: rest =>
    match if c = '{' then closeGroup? rest else none with
    | some (inside, after) => some ([], inside, after)
    | none => (braceGroup? rest).map fun (front, inside, after) => (c :: front, inside, after)

theorem of_mem_takeWhile {p : Char → Bool} {x : Char} {cs : List Char}
    (h : x ∈ cs.takeWhile p) : p x = true := by
  induction cs with
  | nil => simp at h
  | cons c rest ih =>
    rw [List.takeWhile_cons] at h
    split at h
    · rcases List.mem_cons.mp h with rfl | h
      · assumption
      · exact ih h
    · simp at h

theorem eq_of_closeGroup? {rest inside after : List Char}
    (h : closeGroup? rest = some (inside, after)) :
    rest = inside ++ '}' :: after ∧ ∀ c ∈ inside, isBrace c = false := by
  unfold closeGroup? at h
  split at h
  · rename_i after' hdrop
    simp only [Option.some.injEq, Prod.mk.injEq] at h
    obtain ⟨rfl, rfl⟩ := h
    refine ⟨?_, fun x hx => by simpa using of_mem_takeWhile hx⟩
    rw [← hdrop, List.takeWhile_append_dropWhile]
  · simp at h

/-- A group is found where it stands, and holds no brace. -/
theorem eq_of_braceGroup? {cs front inside after : List Char}
    (h : braceGroup? cs = some (front, inside, after)) :
    cs = front ++ '{' :: (inside ++ '}' :: after) ∧ ∀ c ∈ inside, isBrace c = false := by
  induction cs generalizing front with
  | nil => simp [braceGroup?] at h
  | cons c rest ih =>
    simp only [braceGroup?] at h
    split at h
    · rename_i inside' after' hclose
      simp only [Option.some.injEq, Prod.mk.injEq] at h
      obtain ⟨rfl, rfl, rfl⟩ := h
      split at hclose
      · rename_i hc
        obtain ⟨hrest, hin⟩ := eq_of_closeGroup? hclose
        exact ⟨by rw [hc, hrest]; rfl, hin⟩
      · simp at hclose
    · obtain ⟨⟨front', inside', after'⟩, hfound, heq⟩ := Option.map_eq_some_iff.mp h
      simp only [Prod.mk.injEq] at heq
      obtain ⟨rfl, rfl, rfl⟩ := heq
      obtain ⟨hcs, hin⟩ := ih hfound
      exact ⟨by rw [hcs]; rfl, hin⟩

/-- The pieces between separators hold nothing new. -/
theorem mem_of_mem_splitChars {sep x : Char} {piece cs : List Char}
    (hp : piece ∈ splitChars sep cs) (hx : x ∈ piece) : x ∈ cs := by
  induction cs generalizing piece with
  | nil =>
    simp only [splitChars, List.mem_singleton] at hp
    simp [hp] at hx
  | cons c rest ih =>
    simp only [splitChars] at hp
    split at hp
    · rcases List.mem_cons.mp hp with rfl | hp
      · simp at hx
      · exact List.mem_cons_of_mem _ (ih hp hx)
    · split at hp
      · simp only [List.mem_singleton] at hp
        subst hp
        simp only [List.mem_singleton] at hx
        simp [hx]
      · rename_i first pieces hsplit
        rcases List.mem_cons.mp hp with rfl | hp
        · rcases List.mem_cons.mp hx with rfl | hx
          · simp
          · exact List.mem_cons_of_mem _ (ih (by rw [hsplit]; simp) hx)
        · exact List.mem_cons_of_mem _ (ih (by rw [hsplit]; simp [hp]) hx)

/-- An alternative in the place of its group leaves fewer opening braces. -/
theorem count_expanded_lt {cs front inside after option : List Char}
    (h : braceGroup? cs = some (front, inside, after)) (ho : option ∈ splitChars ',' inside) :
    (front ++ option ++ after).count '{' < cs.count '{' := by
  obtain ⟨hcs, hin⟩ := eq_of_braceGroup? h
  have none : option.count '{' = 0 := by
    rw [List.count_eq_zero]
    intro hmem
    have := hin _ (mem_of_mem_splitChars ho hmem)
    simp [isBrace] at this
  rw [hcs]
  have close : ('}' == '{') = false := by decide
  simp only [List.count_append, List.count_cons, none, close, beq_self_eq_true, if_true,
    Bool.false_eq_true, if_false]
  omega

/-- The patterns that a pattern with groups stands for. -/
def expandChars (cs : List Char) : List (List Char) :=
  match _h : braceGroup? cs with
  | none => [cs]
  | some (front, inside, after) =>
    (splitChars ',' inside).attach.flatMap fun ⟨option, _⟩ =>
      expandChars (front ++ option ++ after)
  termination_by cs.count '{'
  decreasing_by exact count_expanded_lt _h ‹_›

def expandBraces (pattern : String) : List String :=
  (expandChars pattern.toList).map String.ofList

end JsxAudit.Text
