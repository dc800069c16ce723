import JsxAudit.Text.Casing
import JsxAudit.Source.Import
import Mathlib.Data.List.Induction
import Mathlib.Data.List.TakeWhile

/-!
Texts of a program before and after one of its names is replaced by another.

A text is cut into `pieces`: the words that its characters of names make up, and every other
character by itself. A text reads like another one under a renaming (`Reads`) if it has the same
pieces but for words that are the old name, which may be spelled with the new one. Where an object,
an export or an import names a thing by the word alone, the old name has to stay beside the new one,
and a word becomes several pieces.

What does not speak of the two names cannot tell such texts apart: words (`Reads.eq_iff`), endings
(`Reads.endsWith_iff`) and what is found inside single words (`Reads.any_piece`).
-/

namespace JsxAudit

open Syntax (isNameChar)

namespace Text

-- What is said of the characters of a text is decided at these, and not at every character there is.
instance (priority := 2000) decidableForallMem (cs : List Char) (p : Char → Prop)
    [DecidablePred p] : Decidable (∀ c ∈ cs, p c) :=
  List.decidableBAll p cs

instance (priority := 2000) decidableForallMemOption (o : Option Char) (p : Char → Prop)
    [DecidablePred p] : Decidable (∀ c ∈ o, p c) :=
  o.decidableForallMem

/-! ### Pieces -/

/-- The words and the characters between them, in order. -/
def pieces : List Char → List (List Char)
  | [] => []
  | c :: rest =>
    match pieces rest with
    | (d :: word) :: more =>
      if isNameChar c && isNameChar d then (c :: d :: word) :: more
      else [c] :: (d :: word) :: more
    | more => [c] :: more

/-- No word goes on from the one text into the other. -/
def Seam (cs ds : List Char) : Prop :=
  ∀ c ∈ cs.getLast?, ∀ d ∈ ds.head?, (isNameChar c && isNameChar d) = false

variable {c d : Char} {cs ds w : List Char}

theorem pieces_cons_eq (c : Char) (cs : List Char) :
    ∃ word more, pieces (c :: cs) = (c :: word) :: more := by
  rw [pieces]
  split
  · split
    · exact ⟨_, _, rfl⟩
    · exact ⟨_, _, rfl⟩
  · exact ⟨_, _, rfl⟩

theorem pieces_cons_of_seam (apart : Seam [c] cs) : pieces (c :: cs) = [c] :: pieces cs := by
  cases cs with
  | nil => rfl
  | cons d cs =>
    obtain ⟨word, more, eq⟩ := pieces_cons_eq d cs
    have other := apart c rfl d rfl
    rw [pieces, eq]
    simp [other]

theorem pieces_cons_of_name (name : isNameChar c = true) (next : isNameChar d = true)
    {word : List Char} {more : List (List Char)} (eq : pieces (d :: cs) = (d :: word) :: more) :
    pieces (c :: d :: cs) = (c :: d :: word) :: more := by
  rw [pieces, eq]
  simp [name, next]

@[simp] theorem flatten_pieces (cs : List Char) : (pieces cs).flatten = cs := by
  induction cs with
  | nil => rfl
  | cons c cs ih =>
    rw [pieces]
    split
    · rename_i d word more eq
      rw [eq] at ih
      split
      · simpa using ih
      · simpa using ih
    · simpa using ih

theorem pieces_injective (h : pieces cs = pieces ds) : cs = ds := by
  rw [← flatten_pieces cs, h, flatten_pieces]

theorem pieces_append (apart : Seam cs ds) : pieces (cs ++ ds) = pieces cs ++ pieces ds := by
  induction cs with
  | nil => rfl
  | cons c cs ih =>
    cases cs with
    | nil => exact pieces_cons_of_seam apart
    | cons d cs =>
      have tail := ih (by simpa [Seam] using apart)
      obtain ⟨word, more, eq⟩ := pieces_cons_eq d cs
      rw [List.cons_append] at tail ⊢
      by_cases both : (isNameChar c && isNameChar d) = true
      · rw [Bool.and_eq_true] at both
        rw [pieces_cons_of_name both.1 both.2 eq]
        rw [eq] at tail
        exact pieces_cons_of_name both.1 both.2 tail
      · have seam : Seam [c] (d :: cs) := by simpa [Seam] using both
        have seam' : Seam [c] (d :: (cs ++ ds)) := by simpa [Seam] using both
        rw [List.cons_append, pieces_cons_of_seam seam, pieces_cons_of_seam seam', tail]
        rfl

/-- A word is one piece. -/
theorem pieces_word (ne : w ≠ []) (name : ∀ c ∈ w, isNameChar c = true) : pieces w = [w] := by
  induction w with
  | nil => exact absurd rfl ne
  | cons c w ih =>
    cases w with
    | nil => rfl
    | cons d w =>
      have tail := ih (List.cons_ne_nil _ _) fun x mem => name x (List.mem_cons_of_mem _ mem)
      exact pieces_cons_of_name (name c (by simp)) (name d (by simp)) tail

/-- The first piece goes on at least as far as the characters of names do. -/
theorem pieces_append_of_names (ne : w ≠ []) (name : ∀ c ∈ w, isNameChar c = true)
    (after : List Char) : ∃ rest more, pieces (w ++ after) = (w ++ rest) :: more := by
  induction w with
  | nil => exact absurd rfl ne
  | cons c w ih =>
    cases w with
    | nil => exact pieces_cons_eq c after
    | cons d w =>
      obtain ⟨rest, more, eq⟩ := ih (List.cons_ne_nil _ _) fun x mem =>
        name x (List.mem_cons_of_mem _ mem)
      exact ⟨rest, more, pieces_cons_of_name (name c (by simp)) (name d (by simp)) eq⟩

/-- A stretch of characters of names lies in one piece. -/
theorem exists_piece_of_infix (ne : w ≠ []) (name : ∀ c ∈ w, isNameChar c = true)
    (before after : List Char) : ∃ piece ∈ pieces (before ++ w ++ after), w <:+: piece := by
  induction before with
  | nil =>
    obtain ⟨rest, more, eq⟩ := pieces_append_of_names ne name after
    exact ⟨w ++ rest, by simp [eq], (List.prefix_append w rest).isInfix⟩
  | cons b before ih =>
    obtain ⟨piece, mem, inside⟩ := ih
    rw [List.cons_append, List.cons_append, pieces]
    generalize before ++ w ++ after = rest at mem
    split
    · rename_i d word more eq
      rw [eq] at mem
      rcases List.mem_cons.mp mem with rfl | mem
      · split
        · exact ⟨b :: d :: word, by simp, List.infix_cons inside⟩
        · exact ⟨d :: word, by simp, inside⟩
      · split
        · exact ⟨piece, by simp [mem], inside⟩
        · exact ⟨piece, by simp [mem], inside⟩
    · exact ⟨piece, by simp [mem], inside⟩

theorem infix_of_mem_pieces (mem : w ∈ pieces cs) : w <:+: cs := by
  obtain ⟨before, after, eq⟩ := List.append_of_mem mem
  refine ⟨before.flatten, after.flatten, ?_⟩
  rw [← flatten_pieces cs, eq]
  simp

/-- A character of a text is taken away, or is left when that is done. -/
theorem mem_or_mem_trimMatching {strip : Char → Bool} {s : String} (mem : c ∈ s.toList) :
    strip c = true ∨ c ∈ (trimMatching strip s).toList := by
  have through {p : Char → Bool} {xs : List Char} (mem : c ∈ xs) :
      p c = true ∨ c ∈ xs.dropWhile p := by
    rw [← List.takeWhile_append_dropWhile (p := p) (l := xs), List.mem_append] at mem
    exact mem.imp_left fun taken => List.mem_takeWhile_imp taken
  rw [trimMatching, String.toList_ofList, List.mem_reverse]
  rcases through mem with taken | kept
  · exact .inl taken
  · exact through (List.mem_reverse.mpr kept)

end Text

/-! ### Renamings -/

/-- A name that a component can have: it begins with a capital. -/
structure IsComponentName (name : String) : Prop where
  capital : name.toList.head?.any Text.isUppercase = true
  names : ∀ c ∈ name.toList, isNameChar c = true

namespace IsComponentName

variable {name : String}

theorem ne_nil (h : IsComponentName name) : name.toList ≠ [] := by
  intro empty
  have capital := h.capital
  rw [empty] at capital
  cases capital

theorem not_mem {c : Char} (h : IsComponentName name) (mark : isNameChar c = false) :
    c ∉ name.toList := fun mem => by
  rw [h.names c mem] at mark
  cases mark

theorem pieces_eq (h : IsComponentName name) : Text.pieces name.toList = [name.toList] :=
  Text.pieces_word h.ne_nil h.names

/-- A name of a component is no text that begins in another way. -/
theorem ne_of_small {text : String} (h : IsComponentName name)
    (small : text.toList.head?.any Text.isUppercase = false) : name ≠ text := fun same => by
  rw [← same, h.capital] at small
  cases small

/-- Nothing is taken away from a name when marks are. -/
theorem trimMatching_eq {strip : Char → Bool} (h : IsComponentName name)
    (marks : ∀ c, isNameChar c = true → strip c = false) : Text.trimMatching strip name = name := by
  have keep {cs : List Char} (names : ∀ c ∈ cs, isNameChar c = true) :
      cs.dropWhile strip = cs := by
    cases cs with
    | nil => rfl
    | cons c cs => rw [List.dropWhile_cons, marks c (names c List.mem_cons_self)]; rfl
  rw [Text.trimMatching, keep h.names, keep fun c mem => h.names c (List.mem_reverse.mp mem),
    List.reverse_reverse, String.ofList_toList]

end IsComponentName

/-- One name of a component takes the place of another. -/
structure Renaming where
  old : String
  new : String
  old_isComponentName : IsComponentName old
  new_isComponentName : IsComponentName new

namespace Renaming

open Text

variable (r : Renaming)

/-- A name under the new name. -/
def rename (name : String) : String :=
  if name = r.old then r.new else name

/-! ### Spellings -/

/-- What may stand for a piece: the piece, and for the old name the new one as well. It stands alone,
or keeps the old name for a property, for what others import, or for what is imported. -/
def spellings (piece : List Char) : List (List (List Char)) :=
  let old := r.old.toList
  let new := r.new.toList
  [piece] :: if piece = old then
    [[new], [old, [':'], [' '], new], [new, [' '], ['a', 's'], [' '], old],
      [old, [' '], ['a', 's'], [' '], new]]
  else []

/-- Pieces that spell other ones, each by one of its spellings. -/
def Spells : List (List Char) → List (List Char) → Prop
  | [], ts => ts = []
  | piece :: pieces, ts =>
    ∃ u ∈ r.spellings piece, u <+: ts ∧ Spells pieces (ts.drop u.length)

instance decideSpells : (ts us : List (List Char)) → Decidable (r.Spells ts us)
  | [], us => inferInstanceAs (Decidable (us = []))
  | piece :: pieces, us =>
    have (u : List (List Char)) : Decidable (r.Spells pieces (us.drop u.length)) :=
      decideSpells pieces _
    inferInstanceAs (Decidable (∃ u ∈ r.spellings piece, u <+: us ∧
      r.Spells pieces (us.drop u.length)))

/-- The second text reads like the first, with the new name for some or all of the old ones. -/
structure Reads (s s' : String) : Prop where
  spells : r.Spells (pieces s.toList) (pieces s'.toList)

instance (s s' : String) : Decidable (r.Reads s s') :=
  decidable_of_iff (r.Spells (pieces s.toList) (pieces s'.toList)) ⟨.mk, Reads.spells⟩

variable {r} {s s' t t' : String} {piece w : List Char} {ts us : List (List Char)}

/-! ### Pieces that are neither name -/

/-- Neither of the names is among the pieces. -/
def IsFree (r : Renaming) (ts : List (List Char)) : Prop :=
  r.old.toList ∉ ts ∧ r.new.toList ∉ ts

theorem isFree_append : r.IsFree (ts ++ us) ↔ r.IsFree ts ∧ r.IsFree us := by
  simp only [IsFree, List.mem_append, not_or]
  tauto

theorem isFree_of_heads (h : ∀ t ∈ ts, t.head?.any isUppercase = false) : r.IsFree ts := by
  constructor
  · intro mem
    exact Bool.false_ne_true ((h _ mem).symm.trans r.old_isComponentName.capital)
  · intro mem
    exact Bool.false_ne_true ((h _ mem).symm.trans r.new_isComponentName.capital)

/-- A text without capitals has neither name in it. -/
theorem isFree_of_no_capital {cs : List Char} (h : ∀ c ∈ cs, isUppercase c = false) :
    r.IsFree (pieces cs) := by
  refine isFree_of_heads fun t mem => ?_
  cases t with
  | nil => rfl
  | cons c t => exact h c ((infix_of_mem_pieces mem).subset List.mem_cons_self)

/-! ### Spellings of lists of pieces -/

theorem mem_spellings_self (piece : List Char) : [piece] ∈ r.spellings piece :=
  List.mem_cons_self

/-- A spelling is the piece itself, or belongs to the old name and ends in one of the two names. -/
theorem spelling_cases {u : List (List Char)} (h : u ∈ r.spellings piece) :
    u = [piece] ∨ piece = r.old.toList ∧
      ∃ front last, u = front ++ [last] ∧ (last = r.old.toList ∨ last = r.new.toList) := by
  rcases List.mem_cons.mp h with same | other
  · exact .inl same
  · split at other
    · rename_i old
      refine .inr ⟨old, ?_⟩
      simp only [List.mem_cons, List.not_mem_nil, or_false] at other
      rcases other with rfl | rfl | rfl | rfl
      · exact ⟨[], _, rfl, .inr rfl⟩
      · exact ⟨[_, _, _], _, rfl, .inr rfl⟩
      · exact ⟨[_, _, _, _], _, rfl, .inl rfl⟩
      · exact ⟨[_, _, _, _], _, rfl, .inr rfl⟩
    · cases other

namespace Spells

theorem refl (ts : List (List Char)) : r.Spells ts ts := by
  induction ts with
  | nil => rfl
  | cons t ts ih => exact ⟨[t], mem_spellings_self t, ⟨ts, rfl⟩, ih⟩

theorem cons {u : List (List Char)} (first : u ∈ r.spellings piece) (rest : r.Spells ts us) :
    r.Spells (piece :: ts) (u ++ us) :=
  ⟨u, first, List.prefix_append u us, by simpa using rest⟩

theorem append {vs ws : List (List Char)} (h : r.Spells ts us) (h' : r.Spells vs ws) :
    r.Spells (ts ++ vs) (us ++ ws) := by
  induction ts generalizing us with
  | nil =>
    rw [show us = [] from h]
    exact h'
  | cons t ts ih =>
    obtain ⟨u, first, ⟨rest, rfl⟩, tail⟩ := h
    rw [List.drop_left] at tail
    rw [List.append_assoc]
    exact cons first (ih tail)

theorem eq_nil (h : r.Spells ts []) : ts = [] := by
  cases ts with
  | nil => rfl
  | cons t ts =>
    obtain ⟨u, first, start, -⟩ := h
    rcases spelling_cases first with rfl | ⟨-, front, last, rfl, -⟩
    · simp at start
    · simp at start

/-- A last piece that is not the old name is the last one of the spelling. -/
theorem snoc_left (h : r.Spells (ts ++ [w]) us) (other : w ≠ r.old.toList) :
    ∃ front, us = front ++ [w] ∧ r.Spells ts front := by
  induction ts generalizing us with
  | nil =>
    obtain ⟨u, first, ⟨rest, rfl⟩, tail⟩ := h
    rw [List.drop_left] at tail
    rcases spelling_cases first with rfl | ⟨old, -⟩
    · rw [show rest = [] from tail]
      exact ⟨[], rfl, rfl⟩
    · exact absurd old other
  | cons t ts ih =>
    obtain ⟨u, first, ⟨rest, rfl⟩, tail⟩ := h
    rw [List.drop_left] at tail
    obtain ⟨front, rfl, spells⟩ := ih tail
    exact ⟨u ++ front, by simp, cons first spells⟩

/-- A last piece of a spelling that is neither name is the last one of what is spelled. -/
theorem snoc_right (h : r.Spells ts (us ++ [w])) (free : r.IsFree [w]) :
    ∃ front, ts = front ++ [w] ∧ r.Spells front us := by
  induction ts generalizing us with
  | nil => simp [Spells] at h
  | cons t ts ih =>
    obtain ⟨u, first, ⟨rest, eq⟩, tail⟩ := h
    rw [← eq, List.drop_left] at tail
    rcases List.eq_nil_or_concat rest with rfl | ⟨rest, last, rfl⟩
    · -- The last piece ends the spelling of `t`, which is therefore `t` itself.
      rw [List.append_nil] at eq
      rw [eq_nil tail]
      rcases spelling_cases first with rfl | ⟨-, front, last, rfl, names⟩
      · have single : [] ++ [t] = us ++ [w] := eq
        obtain ⟨rfl, same⟩ := List.append_inj' single rfl
        rw [List.singleton_inj.mp same]
        exact ⟨[], rfl, rfl⟩
      · have same := List.singleton_inj.mp (List.append_inj' eq rfl).2
        subst same
        rcases names with rfl | rfl
        · exact absurd List.mem_cons_self free.1
        · exact absurd List.mem_cons_self free.2
    · rw [List.concat_eq_append, ← List.append_assoc] at eq
      rw [List.concat_eq_append] at tail
      obtain ⟨rfl, same⟩ := List.append_inj' eq rfl
      rw [List.singleton_inj.mp same] at tail
      obtain ⟨front, rfl, spells⟩ := ih tail
      exact ⟨t :: front, rfl, cons first spells⟩

theorem append_left (h : r.Spells (ts ++ us) vs) (free : r.IsFree us) :
    ∃ front, vs = front ++ us ∧ r.Spells ts front := by
  induction us using List.reverseRecOn generalizing vs with
  | nil => exact ⟨vs, by simp, by simpa using h⟩
  | append_singleton us w ih =>
    obtain ⟨others, last⟩ := isFree_append.mp free
    rw [← List.append_assoc] at h
    obtain ⟨most, rfl, spells⟩ := snoc_left h fun old => last.1 (by simp [old])
    obtain ⟨front, eq, first⟩ := ih spells others
    exact ⟨front, by simp [eq], first⟩

theorem append_right (h : r.Spells ts (vs ++ us)) (free : r.IsFree us) :
    ∃ front, ts = front ++ us ∧ r.Spells front vs := by
  induction us using List.reverseRecOn generalizing ts with
  | nil => exact ⟨ts, by simp, by simpa using h⟩
  | append_singleton us w ih =>
    obtain ⟨others, last⟩ := isFree_append.mp free
    rw [← List.append_assoc] at h
    obtain ⟨most, rfl, spells⟩ := snoc_right h last
    obtain ⟨front, eq, first⟩ := ih spells others
    exact ⟨front, by simp [eq], first⟩

/-- A question about pieces that does not tell the names apart has one answer. -/
theorem any_eq (h : r.Spells ts us) {p : List Char → Bool}
    (same : p r.old.toList = p r.new.toList) (between : p [':'] = false) (blank : p [' '] = false)
    (word : p ['a', 's'] = false) : ts.any p = us.any p := by
  induction ts generalizing us with
  | nil => rw [show us = [] from h]
  | cons t ts ih =>
    obtain ⟨u, first, ⟨rest, rfl⟩, tail⟩ := h
    rw [List.drop_left] at tail
    rw [List.any_cons, List.any_append, ih tail]
    congr 1
    rcases List.mem_cons.mp first with rfl | other
    · simp
    · split at other
      · rename_i old
        simp only [List.mem_cons, List.not_mem_nil, or_false] at other
        rcases other with rfl | rfl | rfl | rfl
        all_goals simp [old, same, between, blank, word]
      · cases other

end Spells

/-! ### Texts -/

namespace Reads

theorem refl (s : String) : r.Reads s s :=
  ⟨Spells.refl _⟩

theorem rename (name : String) : r.Reads name (r.rename name) := by
  unfold Renaming.rename
  split
  · rename_i old
    refine ⟨?_⟩
    rw [old, r.old_isComponentName.pieces_eq, r.new_isComponentName.pieces_eq]
    have first : [r.new.toList] ∈ r.spellings r.old.toList := by simp [spellings]
    exact Spells.cons first (Spells.refl [])
  · exact refl name

theorem append (h : r.Reads s s') (h' : r.Reads t t') (apart : Seam s.toList t.toList)
    (apart' : Seam s'.toList t'.toList) : r.Reads (s ++ t) (s' ++ t') := by
  refine ⟨?_⟩
  rw [String.toList_append, String.toList_append, pieces_append apart, pieces_append apart']
  exact Spells.append h.spells h'.spells

/-- A text put behind another one that does not end in the middle of a word. -/
theorem behind (h : r.Reads s s') {left : String}
    (edge : ∀ c ∈ left.toList.getLast?, isNameChar c = false) :
    r.Reads (left ++ s) (left ++ s') := by
  have seam (t : String) : Seam left.toList t.toList := fun c mem d _ => by
    rw [edge c mem, Bool.false_and]
  exact (refl left).append h (seam s) (seam s')

/-- A text put before another one that does not begin in the middle of a word. -/
theorem before (h : r.Reads s s') {right : String}
    (edge : ∀ c ∈ right.toList.head?, isNameChar c = false) :
    r.Reads (s ++ right) (s' ++ right) := by
  have seam (t : String) : Seam t.toList right.toList := fun c _ d mem => by
    rw [edge d mem, Bool.and_false]
  exact h.append (refl right) (seam s) (seam s')

/-- Neither text is a given one that has neither name in it, or both are. -/
theorem eq_iff (h : r.Reads s s') {word : String} (free : r.IsFree (pieces word.toList)) :
    s = word ↔ s' = word := by
  constructor
  · rintro rfl
    have spelled : r.Spells ([] ++ pieces s.toList) (pieces s'.toList) := h.spells
    obtain ⟨front, eq, spells⟩ := spelled.append_left free
    rw [show front = [] from spells] at eq
    exact String.toList_injective (pieces_injective eq)
  · rintro rfl
    have spelled : r.Spells (pieces s.toList) ([] ++ pieces s'.toList) := h.spells
    obtain ⟨front, eq, spells⟩ := spelled.append_right free
    rw [Spells.eq_nil spells] at eq
    exact String.toList_injective (pieces_injective eq)

theorem empty_iff (h : r.Reads s s') : s = "" ↔ s' = "" :=
  h.eq_iff ⟨List.not_mem_nil, List.not_mem_nil⟩

/-- Both texts end in a mark and a word that is neither name, or none does. -/
theorem endsWith_iff (h : r.Reads s s') {ending : String}
    (free : r.IsFree (pieces ending.toList))
    (mark : ∀ c ∈ ending.toList.head?, isNameChar c = false) :
    endsWith ending s = endsWith ending s' := by
  have seam (front : List Char) : Seam front ending.toList := fun c _ d mem => by
    rw [mark d mem, Bool.and_false]
  rw [Bool.eq_iff_iff, endsWith, endsWith, List.isSuffixOf_iff_suffix, List.isSuffixOf_iff_suffix]
  constructor
  · rintro ⟨front, eq⟩
    have spells := h.spells
    rw [← eq, pieces_append (seam front)] at spells
    obtain ⟨before, eq', -⟩ := Spells.append_left spells free
    refine ⟨before.flatten, ?_⟩
    rw [← flatten_pieces s'.toList, eq', List.flatten_append, flatten_pieces]
  · rintro ⟨front, eq⟩
    have spells := h.spells
    rw [← eq, pieces_append (seam front)] at spells
    obtain ⟨before, eq', -⟩ := Spells.append_right spells free
    refine ⟨before.flatten, ?_⟩
    rw [← flatten_pieces s.toList, eq', List.flatten_append, flatten_pieces]

/-- Both texts are a word without capitals when characters around them are taken away, or none. -/
theorem trimMatching_iff (h : r.Reads s s') {strip : Char → Bool} {word : String}
    (marks : ∀ c, strip c = true → isUppercase c = false)
    (small : ∀ c ∈ word.toList, isUppercase c = false) :
    trimMatching strip s = word ↔ trimMatching strip s' = word := by
  have free {t : String} (eq : trimMatching strip t = word) : r.IsFree (pieces t.toList) := by
    refine isFree_of_no_capital fun c mem => ?_
    rcases mem_or_mem_trimMatching mem with taken | kept
    · exact marks c taken
    · exact small c (eq ▸ kept)
  constructor
  · intro eq
    rw [(h.eq_iff (free eq)).mp rfl]
    exact eq
  · intro eq
    rw [(h.eq_iff (free eq)).mpr rfl]
    exact eq

theorem any_piece (h : r.Reads s s') {p : List Char → Bool}
    (same : p r.old.toList = p r.new.toList) (between : p [':'] = false) (blank : p [' '] = false)
    (word : p ['a', 's'] = false) : (pieces s.toList).any p = (pieces s'.toList).any p :=
  Spells.any_eq h.spells same between blank word

end Reads

end Renaming

end JsxAudit
