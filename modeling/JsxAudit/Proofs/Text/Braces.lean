import JsxAudit.Proofs.Text.Groups
import JsxAudit.Proofs.Text.Blank
import JsxAudit.Text.Glob

/-!
The expansion of groups gives what patterns stand for.

On the text of a pattern, one step of the expansion does what a step of `Pattern.Steps` does
(`Pattern.Steps.rewrites`), and where there is no such step there is no group left
(`Pattern.braceGroup?_of_plain`). As a step takes an opening brace away, the steps come to an end
(`wellFounded_next`), and the results are together what the pattern denotes
(`mem_expandChars_text`).
-/

namespace JsxAudit.Text.Braces

/-! ### The end of a group -/

theorem closeGroup?_cons {c : Char} (h : isBrace c = false) (cs : List Char) :
    closeGroup? (c :: cs) = (closeGroup? cs).map fun (inside, after) => (c :: inside, after) := by
  have front : (c :: cs).dropWhile (fun x => !isBrace x) = cs.dropWhile fun x => !isBrace x := by
    rw [List.dropWhile_cons, h]
    rfl
  unfold closeGroup?
  rw [front, List.takeWhile_cons, h]
  split <;> rfl

theorem closeGroup?_append {front : List Char} (h : ∀ c ∈ front, isBrace c = false)
    (cs : List Char) :
    closeGroup? (front ++ cs) =
      (closeGroup? cs).map fun (inside, after) => (front ++ inside, after) := by
  induction front with
  | nil => simp
  | cons c rest ih =>
    obtain ⟨plain, h⟩ := List.forall_mem_cons.mp h
    rw [List.cons_append, closeGroup?_cons plain, ih h, Option.map_map]
    rfl

theorem closeGroup?_closing {inside : List Char} (h : ∀ c ∈ inside, isBrace c = false)
    (cs : List Char) : closeGroup? (inside ++ '}' :: cs) = some (inside, cs) := by
  have here : closeGroup? ('}' :: cs) = some ([], cs) := rfl
  rw [closeGroup?_append h, here]
  simp

/-- Where an opening brace has no partner, no group begins. -/
theorem Pattern.closeGroup?_of_outer : ∀ {p : Pattern}, p.Outer true → closeGroup? p.text = none
  | .done, _ => rfl
  | .group _ _, _ => rfl
  | .char c rest, h => by
    rw [text]
    cases brace : isBrace c with
    | false =>
      rw [closeGroup?_cons brace, closeGroup?_of_outer h.2]
      rfl
    | true =>
      simp only [isBrace, Bool.or_eq_true, beq_iff_eq] at brace
      rcases brace with rfl | rfl
      · rfl
      · exact absurd ⟨rfl, rfl⟩ h.1

/-! ### Alternatives without groups -/

/-- In an alternative without groups there are neither braces nor commas. -/
theorem Pattern.not_isBrace_of_plain : ∀ {p : Pattern}, p.Plain → p.Inner →
    ∀ c ∈ p.text, isBrace c = false ∧ c ≠ ','
  | .done, _, _ => List.forall_mem_nil _
  | .char _ rest, plain, h =>
    List.forall_mem_cons.mpr ⟨h.1, not_isBrace_of_plain (p := rest) plain h.2⟩

theorem Choice.not_isBrace_of_plain : ∀ {choice : Choice}, choice.Plain → choice.Inner →
    ∀ c ∈ choice.text, isBrace c = false
  | .one _, plain, h, c, mem => (Pattern.not_isBrace_of_plain plain h c mem).1
  | .or p others, plain, h, c, mem => by
    rcases List.mem_append.mp mem with mem | mem
    · exact (Pattern.not_isBrace_of_plain plain.1 h.1 c mem).1
    rcases List.mem_cons.mp mem with rfl | mem
    · rfl
    · exact not_isBrace_of_plain plain.2 h.2 c mem

/-- Split at the commas, a group without groups gives its alternatives. -/
theorem Choice.splitChars_text : ∀ {choice : Choice}, choice.Plain → choice.Inner →
    splitChars ',' choice.text = choice.options.map Pattern.text
  | .one _, plain, h =>
    splitChars_of_not_mem fun mem => (Pattern.not_isBrace_of_plain plain h _ mem).2 rfl
  | .or p others, plain, h => by
    rw [text, splitChars_append fun mem => (Pattern.not_isBrace_of_plain plain.1 h.1 _ mem).2 rfl,
      splitChars_text plain.2 h.2]
    rfl

/-! ### One step of the expansion -/

/-- The leftmost group that holds no other is replaced by each of its alternatives. -/
def Rewrites (cs : List Char) (results : List (List Char)) : Prop :=
  ∃ front inside after, braceGroup? cs = some (front, inside, after) ∧
    (splitChars ',' inside).map (fun option => front ++ option ++ after) = results

/-- The expansion of the characters goes on with the expansion of `next`. -/
def Next (next cs : List Char) : Prop :=
  ∃ results, Rewrites cs results ∧ next ∈ results

/-- The expansion comes to an end: it goes on with fewer opening braces. -/
theorem wellFounded_next : WellFounded Next := by
  refine Subrelation.wf ?_ (measure fun cs : List Char => cs.count '{').wf
  rintro next cs ⟨results, ⟨front, inside, after, found, rfl⟩, mem⟩
  obtain ⟨option, piece, rfl⟩ := List.mem_map.mp mem
  exact count_expanded_lt found piece

theorem expandChars_of_plain {cs : List Char} (h : braceGroup? cs = none) :
    expandChars cs = [cs] := by
  rw [expandChars]
  split
  · rfl
  · rename_i found
    rw [h] at found
    cases found

/-- What the expansion gives is what it gives after a step. -/
theorem mem_expandChars_of_rewrites {cs x : List Char} {results : List (List Char)}
    (h : Rewrites cs results) : x ∈ expandChars cs ↔ ∃ next ∈ results, x ∈ expandChars next := by
  obtain ⟨front, inside, after, found, rfl⟩ := h
  rw [expandChars]
  split
  · rename_i none
    rw [found] at none
    cases none
  · rename_i found'
    rw [found, Option.some.injEq, Prod.mk.injEq, Prod.mk.injEq] at found'
    obtain ⟨rfl, rfl, rfl⟩ := found'
    simp only [List.mem_flatMap, List.mem_attach, true_and, Subtype.exists, List.mem_map,
      exists_exists_and_eq_and, exists_prop]

theorem Rewrites.cons {c : Char} {cs : List Char} {results : List (List Char)}
    (later : c = '{' → closeGroup? cs = none) (h : Rewrites cs results) :
    Rewrites (c :: cs) (results.map (c :: ·)) := by
  obtain ⟨front, inside, after, found, rfl⟩ := h
  have first : (if c = '{' then closeGroup? cs else none) = none := by
    split
    · exact later ‹_›
    · rfl
  refine ⟨c :: front, inside, after, ?_, by simp⟩
  rw [braceGroup?, first]
  simp [found]

theorem Rewrites.append {front cs : List Char} {results : List (List Char)}
    (plain : ∀ c ∈ front, isBrace c = false) (h : Rewrites cs results) :
    Rewrites (front ++ cs) (results.map (front ++ ·)) := by
  induction front with
  | nil => simpa using h
  | cons c rest ih =>
    obtain ⟨first, plain⟩ := List.forall_mem_cons.mp plain
    have opening : c ≠ '{' := by
      rintro rfl
      exact Bool.noConfusion first
    have step := (ih plain).cons (c := c) fun same => absurd same opening
    simpa [Function.comp_def] using step

theorem rewrites_group {inside : List Char} (plain : ∀ c ∈ inside, isBrace c = false)
    (after : List Char) :
    Rewrites ('{' :: (inside ++ '}' :: after)) ((splitChars ',' inside).map (· ++ after)) := by
  refine ⟨[], inside, after, ?_, by simp⟩
  rw [braceGroup?, if_pos rfl, closeGroup?_closing plain]

/-! ### The steps of patterns -/

mutual

/-- Where an alternative has a group, the first brace opens it. -/
theorem Pattern.Steps.closeGroup? : ∀ {p : Pattern} {ps : List Pattern}, p.Steps ps → p.Inner →
    ∀ tail, Text.closeGroup? (p.text ++ tail) = none
  | _, _, .inside _ _, _, _ => rfl
  | _, _, .here _ _, _, _ => rfl
  | _, _, .char _ steps, h, tail => by
    rw [Pattern.text, List.cons_append, closeGroup?_cons h.1.1,
      Pattern.Steps.closeGroup? steps h.2 tail]
    rfl

theorem Choice.Steps.closeGroup? : ∀ {choice : Choice} {choices : List Choice},
    choice.Steps choices → choice.Inner → ∀ tail, Text.closeGroup? (choice.text ++ tail) = none
  | _, _, .one steps, h, tail => Pattern.Steps.closeGroup? steps h tail
  | _, _, .first _ steps, h, tail => by
    rw [Choice.text, List.append_assoc]
    exact Pattern.Steps.closeGroup? steps h.1 _
  | _, _, .later plain steps, h, tail => by
    have front := fun c mem => (Pattern.not_isBrace_of_plain plain h.1 c mem).1
    rw [Choice.text, List.append_assoc, List.cons_append, closeGroup?_append front,
      closeGroup?_cons (by decide), Choice.Steps.closeGroup? steps h.2 tail]
    rfl

end

mutual

/-- A step on an alternative is one on the text, whatever follows. -/
theorem Pattern.Steps.rewrites_append : ∀ {p : Pattern} {ps : List Pattern}, p.Steps ps →
    p.Inner → ∀ tail, Rewrites (p.text ++ tail) (ps.map (·.text ++ tail))
  | _, _, .char c steps, h, tail => by
    have opening : c ≠ '{' := by
      rintro rfl
      exact Bool.noConfusion h.1.1
    have step := (Pattern.Steps.rewrites_append steps h.2 tail).cons fun same => absurd same opening
    simpa [Pattern.text, Function.comp_def] using step
  | _, _, .inside rest steps, h, tail => by
    have step := (Choice.Steps.rewrites_append steps h.1 ('}' :: (rest.text ++ tail))).cons
      (c := '{') fun _ => steps.closeGroup? h.1 _
    simpa [Pattern.text, Function.comp_def] using step
  | .group choice _, _, .here rest plain, h, tail => by
    have step := rewrites_group (Choice.not_isBrace_of_plain plain h.1) (rest.text ++ tail)
    rw [Choice.splitChars_text plain h.1] at step
    simpa [Pattern.text, Pattern.text_append, Function.comp_def] using step

theorem Choice.Steps.rewrites_append : ∀ {choice : Choice} {choices : List Choice},
    choice.Steps choices → choice.Inner →
      ∀ tail, Rewrites (choice.text ++ tail) (choices.map (·.text ++ tail))
  | _, _, .one steps, h, tail => by
    simpa [Choice.text, Function.comp_def] using Pattern.Steps.rewrites_append steps h tail
  | _, _, .first others steps, h, tail => by
    have step := Pattern.Steps.rewrites_append steps h.1 (',' :: (others.text ++ tail))
    simpa [Choice.text, Function.comp_def] using step
  | _, _, .later (p := p) plain steps, h, tail => by
    have front : ∀ c ∈ p.text ++ [','], isBrace c = false := by
      simpa [or_imp, forall_and, isBrace] using fun c mem =>
        (Pattern.not_isBrace_of_plain plain h.1 c mem).1
    have step := (Choice.Steps.rewrites_append steps h.2 tail).append front
    simpa [Choice.text, Function.comp_def] using step

end

/-- A step on a pattern is one on its text. -/
theorem Pattern.Steps.rewrites : ∀ {p : Pattern} {ps : List Pattern} {opened : Bool}, p.Steps ps →
    p.Outer opened → Rewrites p.text (ps.map Pattern.text)
  | _, _, _, .char c steps, h => by
    have step := (Pattern.Steps.rewrites steps h.2).cons (c := c) fun opening =>
      Pattern.closeGroup?_of_outer (by simpa [opening] using h.2)
    simpa [Pattern.text, Function.comp_def] using step
  | _, _, _, .inside rest steps, h => by
    have step := (Pattern.Steps.inside .done steps).rewrites_append ⟨h.1, trivial⟩ rest.text
    simpa [Pattern.text, Function.comp_def] using step
  | _, _, _, .here rest plain, h => by
    have step := (Pattern.Steps.here .done plain).rewrites_append ⟨h.1, trivial⟩ rest.text
    simpa [Pattern.text, Pattern.text_append, Function.comp_def] using step

/-- In a pattern without groups no group is found. -/
theorem Pattern.braceGroup?_of_plain : ∀ {p : Pattern} {opened : Bool}, p.Plain →
    p.Outer opened → braceGroup? p.text = none
  | .done, _, _, _ => rfl
  | .char c rest, opened, plain, h => by
    have first : (if c = '{' then closeGroup? rest.text else none) = none := by
      split
      · rename_i opening
        exact closeGroup?_of_outer (by simpa [opening] using h.2)
      · rfl
    rw [text, braceGroup?, first, braceGroup?_of_plain (p := rest) plain h.2]
    rfl

theorem Pattern.denoted_of_plain : ∀ {p : Pattern}, p.Plain → p.denoted = [p.text]
  | .done, _ => rfl
  | .char c rest, plain => by
    rw [denoted, denoted_of_plain (p := rest) plain]
    rfl

/-! ### The whole expansion -/

/-- The expansion of a pattern's text gives what the pattern denotes. -/
theorem mem_expandChars_text {p : Pattern} {opened : Bool} (outer : p.Outer opened)
    {x : List Char} : x ∈ expandChars p.text ↔ x ∈ p.denoted := by
  generalize same : p.text = cs
  induction cs using wellFounded_next.induction generalizing p with
  | _ cs ih =>
    subst same
    rcases p.plain_or_steps with plain | ⟨ps, steps⟩
    · rw [expandChars_of_plain (Pattern.braceGroup?_of_plain plain outer),
        Pattern.denoted_of_plain plain]
    · have rewrites := steps.rewrites outer
      have later : ∀ q ∈ ps, (x ∈ expandChars q.text ↔ x ∈ q.denoted) := fun q mem =>
        ih q.text ⟨_, rewrites, List.mem_map_of_mem mem⟩ (steps.outer outer q mem) rfl
      rw [mem_expandChars_of_rewrites rewrites, steps.mem_denoted]
      simp only [List.mem_map, exists_exists_and_eq_and]
      exact exists_congr fun q => and_congr_right (later q)

theorem mem_expandBraces {pattern x : String} :
    x ∈ expandBraces pattern ↔ x.toList ∈ expandChars pattern.toList := by
  simp only [expandBraces, List.mem_map]
  constructor
  · rintro ⟨cs, mem, rfl⟩
    rwa [String.toList_ofList]
  · exact fun mem => ⟨_, mem, String.ofList_toList⟩

/-- An opening brace before a closing one would be seen among the braces of the text. -/
theorem Pattern.not_sublist_of_mem_denoted {p : Pattern} {opened : Bool} (outer : p.Outer opened)
    {x : List Char} (mem : x ∈ p.denoted) : ¬ ['{', '}'].Sublist x := by
  intro sub
  have braces : ['{', '}'].Sublist (x.filter isBrace) := sub.filter isBrace
  rw [Pattern.filter_isBrace_of_mem_denoted outer x mem] at braces
  have apart := (Pattern.pairwise_strays outer).2.sublist braces
  exact List.rel_of_pairwise_cons apart List.mem_cons_self ⟨rfl, rfl⟩

/-- The expansion of any pattern ends, and any pattern can be read by the grammar. The results are
then the texts that it denotes; the braces left in them are those without a partner, of which a well
nested pattern has none, and no opening one stands before a closing one. A path matches the pattern
where it matches one of these texts. -/
theorem expandBraces_denotes (pattern : String) :
    Acc Next pattern.toList ∧ (∃ p : Pattern, p.Reads pattern.toList) ∧
      ∀ p : Pattern, p.Reads pattern.toList →
        (∀ x, x ∈ expandBraces pattern ↔ x.toList ∈ p.denoted) ∧
        (nested 0 pattern.toList = true ↔ p.strays = []) ∧
        (∀ x ∈ expandBraces pattern,
          x.toList.filter isBrace = p.strays ∧ ¬ ['{', '}'].Sublist x.toList) ∧
        ∀ path, Glob.matchesAny path [pattern] = true ↔
          ∃ x ∈ p.denoted, Glob.matchesLeading path.toList x = true := by
  refine ⟨wellFounded_next.apply _, Pattern.exists_reads _, fun p reads => ?_⟩
  have denotes : ∀ x, x ∈ expandChars pattern.toList ↔ x ∈ p.denoted := fun x => by
    rw [← reads.text, mem_expandChars_text reads.outer]
  refine ⟨fun x => mem_expandBraces.trans (denotes _), reads.nested_iff, fun x mem => ?_,
    fun path => ?_⟩
  · have mem := (denotes _).mp (mem_expandBraces.mp mem)
    exact ⟨Pattern.filter_isBrace_of_mem_denoted reads.outer _ mem,
      Pattern.not_sublist_of_mem_denoted reads.outer mem⟩
  · simp only [Glob.matchesAny, Glob.matchesPattern, List.any_cons, List.any_nil, Bool.or_false,
      List.any_eq_true, denotes]

/-- A group in an alternative of another, and a comma outside of both. -/
theorem expandBraces_denotes_nested :
    ∃ p : Pattern, p.Reads "{a,b{c,d}},e".toList ∧ p.strays = [] ∧
      p.denoted = ["a,e".toList, "bc,e".toList, "bd,e".toList] ∧
      (∀ x, x ∈ expandBraces "{a,b{c,d}},e" ↔ x.toList ∈ p.denoted) ∧
      ∀ path, Glob.matchesAny path ["{a,b{c,d}},e"] = true ↔
        ∃ x ∈ p.denoted, Glob.matchesLeading path.toList x = true := by
  let p : Pattern := .group (.or (.char 'a' .done) (.one (.char 'b'
    (.group (.or (.char 'c' .done) (.one (.char 'd' .done))) .done)))) (.char ',' (.char 'e' .done))
  have reads : p.Reads "{a,b{c,d}},e".toList := by
    refine ⟨?_, by decide⟩
    simp [p, Pattern.Outer, Choice.Inner, Pattern.Inner, isBrace]
  obtain ⟨_, _, denotes⟩ := expandBraces_denotes "{a,b{c,d}},e"
  obtain ⟨results, nested, _, matching⟩ := denotes p reads
  exact ⟨p, reads, nested.mp (by decide), by decide, results, matching⟩

end JsxAudit.Text.Braces
