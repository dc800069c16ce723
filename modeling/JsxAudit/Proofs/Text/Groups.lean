import JsxAudit.Text.Braces
import Mathlib.Logic.Basic

/-!
What patterns with groups stand for.

A `Pattern` is what the grammar makes of some characters: a sequence of characters and of groups,
whose alternatives are patterns in their turn. `denoted` gives its meaning from the outside in. A
step of `Steps` goes the other way and replaces the first group that holds no other by each of its
alternatives; the patterns that it results in denote together what the pattern denotes
(`Pattern.Steps.mem_denoted`). `Pattern.exists_reads` finds a pattern in any characters.
-/

namespace JsxAudit.Text.Braces

/-! ### The grammar -/

mutual

/-- Characters and groups, one after the other. -/
inductive Pattern where
  | done
  | char (c : Char) (rest : Pattern)
  | group (choice : Choice) (rest : Pattern)

/-- The alternatives of a group, of which there is one at least. -/
inductive Choice where
  | one (p : Pattern)
  | or (p : Pattern) (others : Choice)

end

mutual

/-- A pattern as it is written. -/
def Pattern.text : Pattern → List Char
  | .done => []
  | .char c rest => c :: rest.text
  | .group choice rest => '{' :: (choice.text ++ '}' :: rest.text)

/-- Alternatives as they are written between braces. -/
def Choice.text : Choice → List Char
  | .one p => p.text
  | .or p others => p.text ++ ',' :: others.text

end

mutual

/-- The texts without groups that a pattern stands for: those of a group are the ones of all its
alternatives, and what stands side by side is combined in all ways. -/
def Pattern.denoted : Pattern → List (List Char)
  | .done => [[]]
  | .char c rest => rest.denoted.map (c :: ·)
  | .group choice rest => choice.denoted.flatMap fun x => rest.denoted.map (x ++ ·)

def Choice.denoted : Choice → List (List Char)
  | .one p => p.denoted
  | .or p others => p.denoted ++ others.denoted

end

mutual

/-- In an alternative, characters are neither braces nor commas. -/
def Pattern.Inner : Pattern → Prop
  | .done => True
  | .char c rest => (isBrace c = false ∧ c ≠ ',') ∧ rest.Inner
  | .group choice rest => choice.Inner ∧ rest.Inner

def Choice.Inner : Choice → Prop
  | .one p => p.Inner
  | .or p others => p.Inner ∧ others.Inner

end

/-- Outside of groups, a comma is a character, and so is a brace without a partner. An opening one
that comes before a closing one would be its partner. -/
def Pattern.Outer (opened : Bool) : Pattern → Prop
  | .done => True
  | .char c rest => ¬ (opened = true ∧ c = '}') ∧ rest.Outer (opened || c == '{')
  | .group choice rest => choice.Inner ∧ rest.Outer opened

/-- The pattern is what the grammar makes of the characters. -/
structure Pattern.Reads (p : Pattern) (cs : List Char) : Prop where
  outer : p.Outer false
  text : p.text = cs

/-- The braces that have no partner. -/
def Pattern.strays : Pattern → List Char
  | .done => []
  | .char c rest => if isBrace c then c :: rest.strays else rest.strays
  | .group _ rest => rest.strays

/-! ### Patterns side by side -/

/-- One pattern before another. -/
def Pattern.append : Pattern → Pattern → Pattern
  | .done, q => q
  | .char c rest, q => .char c (rest.append q)
  | .group choice rest, q => .group choice (rest.append q)

theorem Pattern.text_append : ∀ p q : Pattern, (p.append q).text = p.text ++ q.text
  | .done, _ => rfl
  | .char c rest, q => by rw [append, text, text_append rest q]; rfl
  | .group choice rest, q => by
    rw [append, text, text_append rest q, text]
    simp

theorem Pattern.inner_append : ∀ {p q : Pattern}, p.Inner → q.Inner → (p.append q).Inner
  | .done, _, _, hq => hq
  | .char _ _, _, hp, hq => ⟨hp.1, inner_append hp.2 hq⟩
  | .group _ _, _, hp, hq => ⟨hp.1, inner_append hp.2 hq⟩

theorem Pattern.outer_append {opened : Bool} : ∀ {p q : Pattern}, p.Inner → q.Outer opened →
    (p.append q).Outer opened
  | .done, _, _, hq => hq
  | .char c rest, q, hp, hq => by
    have plain : isBrace c = false := hp.1.1
    simp only [isBrace, Bool.or_eq_false_iff, beq_eq_false_iff_ne] at plain
    refine ⟨fun both => plain.2 both.2, ?_⟩
    rw [beq_eq_false_iff_ne.mpr plain.1, Bool.or_false]
    exact outer_append hp.2 hq
  | .group _ _, _, hp, hq => ⟨hp.1, outer_append hp.2 hq⟩

theorem Pattern.mem_denoted_append {x : List Char} : ∀ {p q : Pattern},
    x ∈ (p.append q).denoted ↔ ∃ a ∈ p.denoted, ∃ b ∈ q.denoted, a ++ b = x
  | .done, q => by simp [append, denoted]
  | .char c rest, q => by
    simp only [append, denoted, List.mem_map, mem_denoted_append (p := rest)]
    constructor
    · rintro ⟨_, ⟨a, ha, b, hb, rfl⟩, rfl⟩
      exact ⟨c :: a, ⟨a, ha, rfl⟩, b, hb, rfl⟩
    · rintro ⟨_, ⟨a, ha, rfl⟩, b, hb, rfl⟩
      exact ⟨a ++ b, ⟨a, ha, b, hb, rfl⟩, rfl⟩
  | .group choice rest, q => by
    simp only [append, denoted, List.mem_flatMap, List.mem_map, mem_denoted_append (p := rest)]
    constructor
    · rintro ⟨g, hg, _, ⟨a, ha, b, hb, rfl⟩, rfl⟩
      exact ⟨g ++ a, ⟨g, hg, a, ha, rfl⟩, b, hb, List.append_assoc ..⟩
    · rintro ⟨_, ⟨g, hg, a, ha, rfl⟩, b, hb, rfl⟩
      exact ⟨g, hg, a ++ b, ⟨a, ha, b, hb, rfl⟩, (List.append_assoc ..).symm⟩

/-! ### One step on patterns -/

/-- The alternatives of a group, one after the other. -/
def Choice.options : Choice → List Pattern
  | .one p => [p]
  | .or p others => p :: others.options

mutual

/-- There is no group. -/
def Pattern.Plain : Pattern → Prop
  | .done => True
  | .char _ rest => rest.Plain
  | .group _ _ => False

def Choice.Plain : Choice → Prop
  | .one p => p.Plain
  | .or p others => p.Plain ∧ others.Plain

end

mutual

/-- The first group that holds no other is replaced by each of its alternatives. -/
inductive Pattern.Steps : Pattern → List Pattern → Prop
  | char (c : Char) {rest : Pattern} {ps : List Pattern} :
      rest.Steps ps → (Pattern.char c rest).Steps (ps.map (.char c))
  | inside {choice : Choice} {choices : List Choice} (rest : Pattern) :
      choice.Steps choices →
      (Pattern.group choice rest).Steps (choices.map fun choice => .group choice rest)
  | here {choice : Choice} (rest : Pattern) :
      choice.Plain → (Pattern.group choice rest).Steps (choice.options.map (·.append rest))

inductive Choice.Steps : Choice → List Choice → Prop
  | one {p : Pattern} {ps : List Pattern} : p.Steps ps → (Choice.one p).Steps (ps.map .one)
  | first {p : Pattern} {ps : List Pattern} (others : Choice) :
      p.Steps ps → (Choice.or p others).Steps (ps.map fun p => .or p others)
  | later {p : Pattern} {others : Choice} {choices : List Choice} :
      p.Plain → others.Steps choices → (Choice.or p others).Steps (choices.map (.or p))

end

mutual

/-- A pattern with a group has a next step. -/
theorem Pattern.plain_or_steps : ∀ p : Pattern, p.Plain ∨ ∃ ps, p.Steps ps
  | .done => .inl trivial
  | .char c rest => (Pattern.plain_or_steps rest).imp id fun ⟨_, steps⟩ => ⟨_, .char c steps⟩
  | .group choice rest => .inr <| (Choice.plain_or_steps choice).elim
      (fun plain => ⟨_, .here rest plain⟩) fun ⟨_, steps⟩ => ⟨_, .inside rest steps⟩

theorem Choice.plain_or_steps : ∀ choice : Choice, choice.Plain ∨ ∃ choices, choice.Steps choices
  | .one p => (Pattern.plain_or_steps p).imp id fun ⟨_, steps⟩ => ⟨_, .one steps⟩
  | .or p others => by
    rcases Pattern.plain_or_steps p with plain | ⟨ps, steps⟩
    · exact (Choice.plain_or_steps others).imp (⟨plain, ·⟩) fun ⟨_, steps⟩ => ⟨_, .later plain steps⟩
    · exact .inr ⟨_, .first others steps⟩

end

theorem Choice.mem_denoted {x : List Char} : ∀ {choice : Choice},
    x ∈ choice.denoted ↔ ∃ p ∈ choice.options, x ∈ p.denoted
  | .one p => by simp [denoted, options]
  | .or p others => by
    have later : x ∈ others.denoted ↔ ∃ p ∈ others.options, x ∈ p.denoted := mem_denoted
    simp [denoted, options, later]

theorem Choice.options_ne_nil : ∀ choice : Choice, choice.options ≠ []
  | .one _ | .or _ _ => List.cons_ne_nil _ _

mutual

/-- A step results in some pattern. -/
theorem Pattern.Steps.ne_nil : ∀ {p : Pattern} {ps : List Pattern}, p.Steps ps → ps ≠ []
  | _, _, .char _ steps => by simpa using Pattern.Steps.ne_nil steps
  | _, _, .inside _ steps => by simpa using Choice.Steps.ne_nil steps
  | .group choice _, _, .here _ _ => by simpa using choice.options_ne_nil

theorem Choice.Steps.ne_nil : ∀ {choice : Choice} {choices : List Choice},
    choice.Steps choices → choices ≠ []
  | _, _, .one steps => by simpa using Pattern.Steps.ne_nil steps
  | _, _, .first _ steps => by simpa using Pattern.Steps.ne_nil steps
  | _, _, .later _ steps => by simpa using Choice.Steps.ne_nil steps

end

mutual

/-- What a pattern denotes is what the patterns after a step denote together. -/
theorem Pattern.Steps.mem_denoted {x : List Char} : ∀ {p : Pattern} {ps : List Pattern},
    p.Steps ps → (x ∈ p.denoted ↔ ∃ q ∈ ps, x ∈ q.denoted)
  | _, _, .char c steps => by
    simp only [Pattern.denoted, List.mem_map, Pattern.Steps.mem_denoted steps,
      exists_exists_and_eq_and]
    constructor
    · rintro ⟨y, ⟨q, mem, denotes⟩, rfl⟩
      exact ⟨q, mem, y, denotes, rfl⟩
    · rintro ⟨q, mem, y, denotes, rfl⟩
      exact ⟨y, ⟨q, mem, denotes⟩, rfl⟩
  | _, _, .inside rest steps => by
    simp only [Pattern.denoted, List.mem_flatMap, List.mem_map, Choice.Steps.mem_denoted steps,
      exists_exists_and_eq_and]
    constructor
    · rintro ⟨g, ⟨q, mem, denotes⟩, y, after, rfl⟩
      exact ⟨q, mem, g, denotes, y, after, rfl⟩
    · rintro ⟨q, mem, g, denotes, y, after, rfl⟩
      exact ⟨g, ⟨q, mem, denotes⟩, y, after, rfl⟩
  | _, _, .here rest _ => by
    simp only [Pattern.denoted, List.mem_flatMap, List.mem_map, Choice.mem_denoted,
      Pattern.mem_denoted_append, exists_exists_and_eq_and]
    constructor
    · rintro ⟨g, ⟨o, mem, denotes⟩, y, after, rfl⟩
      exact ⟨o, mem, g, denotes, y, after, rfl⟩
    · rintro ⟨o, mem, g, denotes, y, after, rfl⟩
      exact ⟨g, ⟨o, mem, denotes⟩, y, after, rfl⟩

theorem Choice.Steps.mem_denoted {x : List Char} : ∀ {choice : Choice} {choices : List Choice},
    choice.Steps choices → (x ∈ choice.denoted ↔ ∃ q ∈ choices, x ∈ q.denoted)
  | _, _, .one steps => by
    simp only [Choice.denoted, Pattern.Steps.mem_denoted steps, List.mem_map,
      exists_exists_and_eq_and]
  -- The other alternatives stay in every result, and there is one at least.
  | _, _, .first others steps => by
    obtain ⟨q, mem⟩ := List.exists_mem_of_ne_nil _ steps.ne_nil
    simp only [Choice.denoted, List.mem_append, Pattern.Steps.mem_denoted steps, List.mem_map,
      exists_exists_and_eq_and]
    constructor
    · rintro (⟨q, mem, denotes⟩ | denotes)
      · exact ⟨q, mem, .inl denotes⟩
      · exact ⟨q, mem, .inr denotes⟩
    · rintro ⟨q, mem, denotes | denotes⟩
      · exact .inl ⟨q, mem, denotes⟩
      · exact .inr denotes
  | _, _, .later _ steps => by
    obtain ⟨q, mem⟩ := List.exists_mem_of_ne_nil _ steps.ne_nil
    simp only [Choice.denoted, List.mem_append, Choice.Steps.mem_denoted steps, List.mem_map,
      exists_exists_and_eq_and]
    constructor
    · rintro (denotes | ⟨q, mem, denotes⟩)
      · exact ⟨q, mem, .inl denotes⟩
      · exact ⟨q, mem, .inr denotes⟩
    · rintro ⟨q, mem, denotes | denotes⟩
      · exact .inl denotes
      · exact .inr ⟨q, mem, denotes⟩

end

theorem Choice.inner_of_mem_options : ∀ {choice : Choice}, choice.Inner →
    ∀ p ∈ choice.options, p.Inner
  | .one p, h => by simpa [options, Inner] using h
  | .or p others, h => by
    simp only [options, List.mem_cons, forall_eq_or_imp]
    exact ⟨h.1, inner_of_mem_options h.2⟩

mutual

/-- After a step in an alternative there is what can stand in an alternative. -/
theorem Pattern.Steps.inner : ∀ {p : Pattern} {ps : List Pattern}, p.Steps ps → p.Inner →
    ∀ q ∈ ps, q.Inner
  | _, _, .char _ steps, h => by
    simpa using fun q mem => ⟨h.1, Pattern.Steps.inner steps h.2 q mem⟩
  | _, _, .inside _ steps, h => by
    simpa using fun q mem => ⟨Choice.Steps.inner steps h.1 q mem, h.2⟩
  | _, _, .here _ _, h => by
    simpa using fun q mem => Pattern.inner_append (Choice.inner_of_mem_options h.1 q mem) h.2

theorem Choice.Steps.inner : ∀ {choice : Choice} {choices : List Choice}, choice.Steps choices →
    choice.Inner → ∀ q ∈ choices, q.Inner
  | _, _, .one steps, h => by
    simpa [Choice.Inner] using fun q mem => Pattern.Steps.inner steps h q mem
  | _, _, .first _ steps, h => by
    simpa using fun q mem => ⟨Pattern.Steps.inner steps h.1 q mem, h.2⟩
  | _, _, .later _ steps, h => by
    simpa using fun q mem => ⟨h.1, Choice.Steps.inner steps h.2 q mem⟩

end

theorem Pattern.Steps.outer : ∀ {p : Pattern} {ps : List Pattern} {opened : Bool}, p.Steps ps →
    p.Outer opened → ∀ q ∈ ps, q.Outer opened
  | _, _, _, .char _ steps, h => by
    simpa using fun q mem => ⟨h.1, Pattern.Steps.outer steps h.2 q mem⟩
  | _, _, _, .inside _ steps, h => by
    simpa using fun q mem => ⟨steps.inner h.1 q mem, h.2⟩
  | _, _, _, .here _ _, h => by
    simpa using fun q mem => Pattern.outer_append (Choice.inner_of_mem_options h.1 q mem) h.2

/-! ### Braces without a partner -/

mutual

/-- What an alternative denotes holds no brace. -/
theorem Pattern.not_isBrace_of_inner : ∀ {p : Pattern}, p.Inner → ∀ x ∈ p.denoted, ∀ c ∈ x,
    isBrace c = false
  | .done, _, _, mem, _, hc => by
    rw [List.mem_singleton.mp mem] at hc
    cases hc
  | .char c rest, h, _, mem, d, hd => by
    obtain ⟨y, denotes, rfl⟩ := List.mem_map.mp mem
    rcases List.mem_cons.mp hd with rfl | hd
    · exact h.1.1
    · exact Pattern.not_isBrace_of_inner h.2 y denotes d hd
  | .group choice rest, h, _, mem, d, hd => by
    obtain ⟨g, hg, mem⟩ := List.mem_flatMap.mp mem
    obtain ⟨y, denotes, rfl⟩ := List.mem_map.mp mem
    rcases List.mem_append.mp hd with hd | hd
    · exact Choice.not_isBrace_of_inner h.1 g hg d hd
    · exact Pattern.not_isBrace_of_inner h.2 y denotes d hd

theorem Choice.not_isBrace_of_inner : ∀ {choice : Choice}, choice.Inner →
    ∀ x ∈ choice.denoted, ∀ c ∈ x, isBrace c = false
  | .one _, h, x, mem => Pattern.not_isBrace_of_inner h x mem
  | .or _ _, h, x, mem => (List.mem_append.mp mem).elim
      (Pattern.not_isBrace_of_inner h.1 x) (Choice.not_isBrace_of_inner h.2 x)

end

theorem filter_isBrace_eq_nil {cs : List Char} (h : ∀ c ∈ cs, isBrace c = false) :
    cs.filter isBrace = [] := by
  simpa [List.filter_eq_nil_iff] using h

/-- The braces of what is denoted are those without a partner. -/
theorem Pattern.filter_isBrace_of_mem_denoted {opened : Bool} : ∀ {p : Pattern}, p.Outer opened →
    ∀ x ∈ p.denoted, x.filter isBrace = p.strays
  | .done, _, _, mem => by
    rw [List.mem_singleton.mp mem]
    rfl
  | .char c rest, h, _, mem => by
    obtain ⟨y, denotes, rfl⟩ := List.mem_map.mp mem
    rw [List.filter_cons, strays, filter_isBrace_of_mem_denoted h.2 y denotes]
  | .group choice rest, h, _, mem => by
    obtain ⟨g, hg, mem⟩ := List.mem_flatMap.mp mem
    obtain ⟨y, denotes, rfl⟩ := List.mem_map.mp mem
    rw [List.filter_append, strays, filter_isBrace_of_mem_denoted h.2 y denotes,
      filter_isBrace_eq_nil (Choice.not_isBrace_of_inner h.1 g hg), List.nil_append]

/-- Among the braces without a partner, no opening one comes before a closing one. -/
theorem Pattern.pairwise_strays : ∀ {p : Pattern} {opened : Bool}, p.Outer opened →
    (∀ c ∈ p.strays, ¬ (opened = true ∧ c = '}')) ∧
      p.strays.Pairwise fun a b => ¬ (a = '{' ∧ b = '}')
  | .done, _, _ => ⟨List.forall_mem_nil _, .nil⟩
  | .char c rest, opened, h => by
    obtain ⟨closing, pairwise⟩ := pairwise_strays h.2
    have later : ∀ d ∈ rest.strays, ¬ (opened = true ∧ d = '}') := fun d mem both =>
      closing d mem ⟨by rw [both.1]; rfl, both.2⟩
    rw [strays]
    split
    · refine ⟨List.forall_mem_cons.mpr ⟨h.1, later⟩, List.pairwise_cons.mpr ⟨?_, pairwise⟩⟩
      exact fun d mem both => closing d mem ⟨by simp [both.1], both.2⟩
    · exact ⟨later, pairwise⟩
  | .group _ rest, _, h => pairwise_strays (p := rest) h.2

/-- Every brace has a partner; `depth` counts the opening ones that wait for theirs. -/
def nested (depth : Nat) : List Char → Bool
  | [] => depth == 0
  | c :: rest =>
    if c = '{' then nested (depth + 1) rest
    else if c = '}' then 0 < depth && nested (depth - 1) rest
    else nested depth rest

theorem nested_cons {c : Char} (h : isBrace c = false) (depth : Nat) (cs : List Char) :
    nested depth (c :: cs) = nested depth cs := by
  simp only [isBrace, Bool.or_eq_false_iff, beq_eq_false_iff_ne] at h
  rw [nested, if_neg h.1, if_neg h.2]

mutual

/-- In an alternative every brace has a partner. -/
theorem Pattern.nested_append : ∀ {p : Pattern}, p.Inner → ∀ (depth : Nat) (tail : List Char),
    nested depth (p.text ++ tail) = nested depth tail
  | .done, _, _, _ => rfl
  | .char c rest, h, depth, tail =>
    (nested_cons h.1.1 depth _).trans (Pattern.nested_append h.2 depth tail)
  | .group choice rest, h, depth, tail => by
    rw [Pattern.text, List.cons_append, List.append_assoc]
    exact (Choice.nested_append h.1 (depth + 1) _).trans (Pattern.nested_append h.2 depth tail)

theorem Choice.nested_append : ∀ {choice : Choice}, choice.Inner →
    ∀ (depth : Nat) (tail : List Char), nested depth (choice.text ++ tail) = nested depth tail
  | .one _, h, depth, tail => Pattern.nested_append h depth tail
  | .or p others, h, depth, tail => by
    rw [Choice.text, List.append_assoc, Pattern.nested_append h.1, List.cons_append,
      nested_cons (by decide)]
    exact Choice.nested_append h.2 depth tail

end

/-- An opening brace that nothing closes is never closed. -/
theorem Pattern.nested_text : ∀ {p : Pattern} {opened : Bool} {depth : Nat}, p.Outer opened →
    (opened = true ∨ depth = 0) → (nested depth p.text = true ↔ depth = 0 ∧ p.strays = [])
  | .done, _, _, _, _ => by simp [text, strays, nested]
  | .char c rest, opened, depth, h, waiting => by
    rw [text, strays]
    cases brace : isBrace c with
    | false =>
      have plain : (c == '{') = false := by
        simp only [isBrace, Bool.or_eq_false_iff] at brace
        exact brace.1
      have outer := h.2
      rw [plain, Bool.or_false] at outer
      simpa [nested_cons brace] using nested_text outer waiting
    | true =>
      simp only [isBrace, Bool.or_eq_true, beq_iff_eq] at brace
      rcases brace with rfl | rfl
      · have never : nested (depth + 1) rest.text = true ↔ depth + 1 = 0 ∧ rest.strays = [] :=
          nested_text h.2 (.inl (by simp))
        simpa [nested] using never
      · have first : depth = 0 := waiting.resolve_left fun opened => h.1 ⟨opened, rfl⟩
        simp [nested, first]
  | .group choice rest, _, depth, h, waiting => by
    have inside : nested depth (text (.group choice rest)) = nested depth rest.text :=
      Choice.nested_append h.1 (depth + 1) ('}' :: rest.text)
    rw [inside, nested_text h.2 waiting, strays]

/-- Just the characters in which every brace has a partner are read without a brace left over. -/
theorem Pattern.Reads.nested_iff {p : Pattern} {cs : List Char} (h : p.Reads cs) :
    nested 0 cs = true ↔ p.strays = [] := by
  rw [← h.text, nested_text h.outer (.inr rfl), eq_self_iff_true, true_and]

/-! ### Finding a pattern

The characters are read from their end. What stands before a closing brace is kept as alternatives
until an opening brace makes a group of it; where none comes, the commas and the brace are put back
as characters. -/

/-- A pattern before the first alternative. -/
def Choice.prepend (p : Pattern) : Choice → Choice
  | .one q => .one (p.append q)
  | .or q others => .or (p.append q) others

theorem Choice.text_prepend (p : Pattern) :
    ∀ choice : Choice, (choice.prepend p).text = p.text ++ choice.text
  | .one q => p.text_append q
  | .or q others => by rw [prepend, text, p.text_append, List.append_assoc, text]

theorem Choice.inner_prepend {p : Pattern} (h : p.Inner) :
    ∀ {choice : Choice}, choice.Inner → (choice.prepend p).Inner
  | .one _, hc => Pattern.inner_append h hc
  | .or _ _, hc => ⟨Pattern.inner_append h hc.1, hc.2⟩

/-- Alternatives as the characters they are written with, before a pattern. -/
def Choice.literally : Choice → Pattern → Pattern
  | .one p, q => p.append q
  | .or p others, q => p.append (.char ',' (others.literally q))

theorem Choice.text_literally (q : Pattern) :
    ∀ choice : Choice, (choice.literally q).text = choice.text ++ q.text
  | .one p => p.text_append q
  | .or p others => by
    rw [literally, p.text_append, Pattern.text, text_literally q others, text]
    simp

theorem Choice.outer_literally {q : Pattern} (h : q.Outer false) :
    ∀ {choice : Choice}, choice.Inner → (choice.literally q).Outer false
  | .one _, hc => Pattern.outer_append hc h
  | .or _ _, hc => Pattern.outer_append hc.1 ⟨by simp, outer_literally h hc.2⟩

/-- Alternatives that wait for their opening braces, each before its closing one, and what stands
behind the last. -/
def waitingText : List Choice → List Char → List Char
  | [], behind => behind
  | choice :: more, behind => choice.text ++ '}' :: waitingText more behind

theorem Pattern.outer_of_opened : ∀ {p : Pattern}, p.Outer true → p.Outer false
  | .done, _ => trivial
  | .char c rest, h => by
    refine ⟨by simp, ?_⟩
    cases c == '{' with
    | true => exact h.2
    | false => exact outer_of_opened h.2
  | .group _ _, h => ⟨h.1, outer_of_opened h.2⟩

/-- What waits in vain is read as characters. -/
theorem exists_reads_waitingText {behind : Pattern} (outer : behind.Outer true) :
    ∀ {waiting : List Choice}, (∀ choice ∈ waiting, choice.Inner) →
      ∃ p : Pattern, p.Reads (waitingText waiting behind.text)
  | [], _ => ⟨behind, Pattern.outer_of_opened outer, rfl⟩
  | choice :: more, h => by
    obtain ⟨p, reads⟩ := exists_reads_waitingText outer fun c mem => h c (.tail _ mem)
    have last : (Pattern.char '}' p).Outer false := ⟨by simp, reads.outer⟩
    refine ⟨choice.literally (.char '}' p),
      Choice.outer_literally last (h choice List.mem_cons_self), ?_⟩
    rw [Choice.text_literally, Pattern.text, reads.text, waitingText]

/-- The characters are read as far as their beginning. -/
structure ReadFrom (cs : List Char) (waiting : List Choice) (behind : Pattern) : Prop where
  inner : ∀ choice ∈ waiting, choice.Inner
  outer : behind.Outer true
  text : waitingText waiting behind.text = cs

/-- A pattern without stray braces can be put in front. -/
theorem ReadFrom.prepend {cs : List Char} {waiting : List Choice} {behind p : Pattern}
    (h : ReadFrom cs waiting behind) (inner : p.Inner) :
    ∃ waiting behind, ReadFrom (p.text ++ cs) waiting behind := by
  obtain ⟨waitingInner, outer, rfl⟩ := h
  cases waiting with
  | nil =>
    exact ⟨[], p.append behind, List.forall_mem_nil _, Pattern.outer_append inner outer,
      p.text_append _⟩
  | cons choice more =>
    obtain ⟨choiceInner, moreInner⟩ := List.forall_mem_cons.mp waitingInner
    refine ⟨choice.prepend p :: more, behind,
      List.forall_mem_cons.mpr ⟨Choice.inner_prepend inner choiceInner, moreInner⟩, outer, ?_⟩
    rw [waitingText, Choice.text_prepend, waitingText, List.append_assoc]

theorem exists_readFrom (cs : List Char) : ∃ waiting behind, ReadFrom cs waiting behind := by
  induction cs with
  | nil => exact ⟨[], .done, List.forall_mem_nil _, trivial, rfl⟩
  | cons c rest ih =>
    obtain ⟨waiting, behind, read⟩ := ih
    by_cases plain : isBrace c = false ∧ c ≠ ','
    · exact read.prepend (p := .char c .done) ⟨plain, trivial⟩
    by_cases closing : c = '}'
    · refine ⟨.one .done :: waiting, behind,
        List.forall_mem_cons.mpr ⟨trivial, read.inner⟩, read.outer, ?_⟩
      rw [waitingText, read.text, closing]
      rfl
    obtain ⟨inner, outer, rfl⟩ := read
    cases waiting with
    -- Behind the last closing brace there is nothing to belong to.
    | nil =>
      exact ⟨[], .char c behind, List.forall_mem_nil _, ⟨fun both => closing both.2, outer⟩, rfl⟩
    | cons choice more =>
      obtain ⟨choiceInner, moreInner⟩ := List.forall_mem_cons.mp inner
      by_cases comma : c = ','
      · rw [comma]
        refine ⟨.or .done choice :: more, behind,
          List.forall_mem_cons.mpr ⟨⟨trivial, choiceInner⟩, moreInner⟩, outer, rfl⟩
      · have opening : c = '{' := by
          have brace : isBrace c = true := by simpa [comma] using plain
          simpa [isBrace, closing] using brace
        have before : ReadFrom (waitingText more behind.text) more behind :=
          ⟨moreInner, outer, rfl⟩
        obtain ⟨waiting, behind, read⟩ :=
          before.prepend (p := .group choice .done) ⟨choiceInner, trivial⟩
        refine ⟨waiting, behind, read.inner, read.outer, read.text.trans ?_⟩
        simp [Pattern.text, waitingText, opening]

/-- Any characters can be read. -/
theorem Pattern.exists_reads (cs : List Char) : ∃ p : Pattern, p.Reads cs := by
  obtain ⟨waiting, behind, inner, outer, rfl⟩ := exists_readFrom cs
  exact exists_reads_waitingText outer inner

end JsxAudit.Text.Braces
