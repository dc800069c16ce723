import JsxAudit.Label.Emoji

/-!
Emoji of a text, and what is left of it without them.

How long a symbol or an emoji is depends on the characters that it takes and on no others
(`symbolLength_take`, `emojiLength_take`). So each emoji of a text alone is one emoji again, and no
emoji begins in what stands between them, wherever that is cut: `carved_findEmoji`.
-/

namespace JsxAudit.Label

namespace EmojiMatch

variable {m : EmojiMatch} {start : Nat} {cs : List Char}

/-- The emoji stands at its place among characters of which the first has the number `start`. -/
def StandsIn (m : EmojiMatch) (start : Nat) (cs : List Char) : Prop :=
  start ≤ m.start ∧ m.emoji.toList <+: cs.drop (m.start - start)

theorem StandsIn.cons {c : Char} (h : m.StandsIn (start + 1) cs) : m.StandsIn start (c :: cs) := by
  obtain ⟨after, front⟩ := h
  obtain ⟨k, eq⟩ : ∃ k, m.start = start + 1 + k := ⟨m.start - (start + 1), by omega⟩
  rw [eq, Nat.add_sub_cancel_left] at front
  refine ⟨by omega, ?_⟩
  rwa [eq, show start + 1 + k - start = k + 1 by omega, List.drop_succ_cons]

end EmojiMatch

variable {m : EmojiMatch} {p : Char → Bool} {start skip fuel k : Nat} {cs : List Char}
  {text : String}

theorem standsIn_of_mem_emojiFrom (h : m ∈ emojiFrom start skip cs) : m.StandsIn start cs := by
  fun_induction emojiFrom start skip cs with
  | case1 => cases h
  | case2 start c rest skip ih => exact (ih h).cons
  | case3 start c rest none ih => exact (ih h).cons
  | case4 start c rest n found ih =>
    rcases List.mem_cons.mp h with rfl | h
    · refine ⟨Nat.le_refl _, ?_⟩
      rw [String.toList_ofList, Nat.sub_self, List.drop_zero]
      exact List.take_prefix _ _
    · exact (ih h).cons

/-- The characters of an emoji stand in the text behind those that come before it. -/
theorem prefix_of_mem_findEmoji (h : m ∈ findEmoji text) :
    m.emoji.toList <+: text.toList.drop m.start :=
  (standsIn_of_mem_emojiFrom h).2

/-! ### Symbols -/

theorem countFirst_le_one (p : Char → Bool) (cs : List Char) : countFirst p cs ≤ 1 := by
  unfold countFirst
  split
  · exact Nat.zero_le 1
  · split <;> omega

theorem countFirst_le_length (p : Char → Bool) (cs : List Char) : countFirst p cs ≤ cs.length := by
  cases cs with
  | nil => exact Nat.le_refl 0
  | cons c rest =>
    have one := countFirst_le_one p (c :: rest)
    rw [List.length_cons]
    omega

theorem countFirst_take (fits : countFirst p cs ≤ k) :
    countFirst p (cs.take k) = countFirst p cs := by
  cases k with
  | zero => exact (Nat.le_zero.mp fits).symm
  | succ k => cases cs <;> rfl

theorem symbolLength_cons (c : Char) (rest : List Char) : symbolLength (c :: rest) =
    if isPresentation c then 1 + countFirst isSelector rest +
      countFirst isSkinTone (rest.drop (countFirst isSelector rest))
    else if isTextDefault c then 2 * countFirst isSelector rest
    else if isRegional c then 2 * countFirst isRegional rest
    else 0 := rfl

theorem symbolLength_le_length (cs : List Char) : symbolLength cs ≤ cs.length := by
  cases cs with
  | nil => exact Nat.le_refl 0
  | cons c rest =>
    have selector := countFirst_le_length isSelector rest
    have regional := countFirst_le_length isRegional rest
    have single := countFirst_le_one isSelector rest
    have pair := countFirst_le_one isRegional rest
    have tone := countFirst_le_length isSkinTone (rest.drop (countFirst isSelector rest))
    rw [List.length_drop] at tone
    rw [symbolLength_cons, List.length_cons]
    repeat' split
    all_goals omega

/-- What stands behind a symbol does not matter to it. -/
theorem symbolLength_take (fits : symbolLength cs ≤ k) :
    symbolLength (cs.take k) = symbolLength cs := by
  cases k with
  | zero => exact (Nat.le_zero.mp fits).symm
  | succ k =>
    cases cs with
    | nil => rfl
    | cons c rest =>
      rw [List.take_succ_cons, symbolLength_cons, symbolLength_cons]
      rw [symbolLength_cons] at fits
      split at fits
      next shown =>
        have selector : countFirst isSelector (rest.take k) = countFirst isSelector rest :=
          countFirst_take (by omega)
        rw [if_pos shown, if_pos shown, selector, List.drop_take, countFirst_take (by omega)]
      next plain =>
        rw [if_neg plain, if_neg plain]
        split at fits
        next selected => rw [if_pos selected, if_pos selected, countFirst_take (by omega)]
        next other =>
          rw [if_neg other, if_neg other]
          split at fits
          next flag => rw [if_pos flag, if_pos flag, countFirst_take (by omega)]
          next none => rw [if_neg none, if_neg none]

/-! ### Joined symbols -/

theorem joinedLength_cons (fuel : Nat) (c : Char) (rest : List Char) :
    joinedLength (fuel + 1) (c :: rest) =
      if isJoiner c = true ∧ symbolLength rest ≠ 0 then
        1 + symbolLength rest + joinedLength fuel (rest.drop (symbolLength rest))
      else 0 := by
  rw [joinedLength]
  by_cases joiner : isJoiner c = true
  · cases symbolLength rest <;> simp [joiner]
  · simp [joiner]

theorem joinedLength_le_length (fuel : Nat) (cs : List Char) :
    joinedLength fuel cs ≤ cs.length := by
  induction fuel generalizing cs with
  | zero => exact Nat.zero_le _
  | succ fuel ih =>
    cases cs with
    | nil => exact Nat.zero_le _
    | cons c rest =>
      have symbol := symbolLength_le_length rest
      have more := ih (rest.drop (symbolLength rest))
      rw [List.length_drop] at more
      rw [joinedLength_cons, List.length_cons]
      split <;> omega

/-- Symbols are read to the last, however many more there could be. -/
theorem joinedLength_congr {a b : Nat} (enough : cs.length ≤ a) (enough' : cs.length ≤ b) :
    joinedLength a cs = joinedLength b cs := by
  induction a generalizing b cs with
  | zero =>
    obtain rfl := List.length_eq_zero_iff.mp (Nat.le_zero.mp enough)
    cases b <;> rfl
  | succ a ih =>
    cases cs with
    | nil => cases b <;> rfl
    | cons c rest =>
      rw [List.length_cons] at enough enough'
      obtain ⟨b, rfl⟩ : ∃ n, b = n + 1 := ⟨b - 1, by omega⟩
      have left : (rest.drop (symbolLength rest)).length ≤ rest.length := by simp
      rw [joinedLength_cons, joinedLength_cons, ih (b := b) (by omega) (by omega)]

theorem joinedLength_take (fits : joinedLength fuel cs ≤ k) :
    joinedLength fuel (cs.take k) = joinedLength fuel cs := by
  induction fuel generalizing cs k with
  | zero => rfl
  | succ fuel ih =>
    cases k with
    | zero => exact (Nat.le_zero.mp fits).symm
    | succ k =>
      cases cs with
      | nil => rfl
      | cons c rest =>
        rw [joinedLength_cons] at fits
        rw [List.take_succ_cons, joinedLength_cons, joinedLength_cons]
        split at fits
        · rw [symbolLength_take (by omega), List.drop_take, ih (by omega)]
        · rename_i apart
          by_cases joiner : isJoiner c = true
          · have none : symbolLength rest = 0 := by simpa [joiner] using apart
            rw [symbolLength_take (by omega), none]
            simp
          · simp [joiner]

/-! ### Emoji -/

theorem emojiLength_eq (cs : List Char) : emojiLength cs =
    if symbolLength cs = 0 then 0
    else symbolLength cs + joinedLength cs.length (cs.drop (symbolLength cs)) := by
  unfold emojiLength
  cases symbolLength cs <;> simp

theorem emojiLength_le_length (cs : List Char) : emojiLength cs ≤ cs.length := by
  have symbol := symbolLength_le_length cs
  have joined := joinedLength_le_length cs.length (cs.drop (symbolLength cs))
  rw [List.length_drop] at joined
  rw [emojiLength_eq]
  split <;> omega

/-- What stands behind an emoji does not matter to it, and where there is none, there is none in
fewer characters. -/
theorem emojiLength_take (fits : emojiLength cs ≤ k) :
    emojiLength (cs.take k) = emojiLength cs := by
  rw [emojiLength_eq] at fits
  have symbol : symbolLength (cs.take k) = symbolLength cs := by
    apply symbolLength_take
    split at fits <;> omega
  rw [emojiLength_eq, emojiLength_eq, symbol]
  split at fits
  next none => rw [if_pos none, if_pos none]
  next found =>
    have left : ((cs.drop (symbolLength cs)).take (k - symbolLength cs)).length =
        min (k - symbolLength cs) (cs.length - symbolLength cs) := by
      rw [List.length_take, List.length_drop]
    have cut : (cs.take k).length = min k cs.length := List.length_take
    rw [if_neg found, if_neg found, List.drop_take,
      joinedLength_congr (b := cs.length) (by omega) (by omega), joinedLength_take (by omega)]

/-! ### All emoji of a text -/

theorem emojiFrom_none {c : Char} {rest : List Char} (none : emojiLength (c :: rest) = 0) :
    emojiFrom start 0 (c :: rest) = emojiFrom (start + 1) 0 rest := by
  rw [emojiFrom, none]

theorem emojiFrom_found {c : Char} {rest : List Char} {n : Nat}
    (found : emojiLength (c :: rest) = n + 1) : emojiFrom start 0 (c :: rest) =
      ⟨String.ofList ((c :: rest).take (n + 1)), start⟩ :: emojiFrom (start + 1) n rest := by
  rw [emojiFrom, found]

/-- Nothing is found in characters that all belong to an emoji already found. -/
theorem emojiFrom_of_length_le (inside : cs.length ≤ skip) : emojiFrom start skip cs = [] := by
  induction cs generalizing start skip with
  | nil => rfl
  | cons c rest ih =>
    obtain ⟨skip, rfl⟩ : ∃ n, skip = n + 1 := ⟨skip - 1, by
      rw [List.length_cons] at inside
      omega⟩
    rw [emojiFrom]
    exact ih (Nat.le_of_succ_le_succ inside)

theorem le_start_of_mem_emojiFrom {m : EmojiMatch} (h : m ∈ emojiFrom start skip cs) :
    start + skip ≤ m.start := by
  fun_induction emojiFrom start skip cs with
  | case1 => cases h
  | case2 start c rest skip ih =>
    have later := ih h
    omega
  | case3 start c rest none ih =>
    have later := ih h
    omega
  | case4 start c rest n found ih =>
    rcases List.mem_cons.mp h with rfl | h
    · exact Nat.le_refl _
    · have later := ih h
      omega

theorem lt_start_of_mem_emojiFrom {m : EmojiMatch} (h : m ∈ emojiFrom (start + 1) 0 cs) :
    start < m.start := by
  have later := le_start_of_mem_emojiFrom h
  omega

/-- An emoji alone is one emoji. -/
theorem findEmoji_of_mem_emojiFrom {m : EmojiMatch} (h : m ∈ emojiFrom start skip cs) :
    findEmoji m.emoji = [⟨m.emoji, 0⟩] := by
  fun_induction emojiFrom start skip cs with
  | case1 => cases h
  | case2 start c rest skip ih => exact ih h
  | case3 start c rest none ih => exact ih h
  | case4 start c rest n found ih =>
    rcases List.mem_cons.mp h with rfl | h
    · have alone : emojiLength (c :: rest.take n) = n + 1 := by
        rw [← List.take_succ_cons, emojiLength_take (by omega), found]
      have nothing : emojiFrom 1 n (rest.take n) = [] :=
        emojiFrom_of_length_le (List.length_take_le _ _)
      rw [findEmoji, String.toList_ofList, List.take_succ_cons, emojiFrom_found alone, nothing,
        List.take_succ_cons, List.take_take, Nat.min_self]
    · exact ih h

/-- Emoji come one behind the other. -/
theorem pairwise_emojiFrom (start skip : Nat) (cs : List Char) :
    (emojiFrom start skip cs).Pairwise fun a b => a.start + a.emoji.length ≤ b.start := by
  fun_induction emojiFrom start skip cs with
  | case1 => exact .nil
  | case2 start c rest skip ih => exact ih
  | case3 start c rest none ih => exact ih
  | case4 start c rest n found ih =>
    refine .cons (fun b later => ?_) ih
    have behind := le_start_of_mem_emojiFrom later
    have length : (String.ofList ((c :: rest).take (n + 1))).length ≤ n + 1 := by
      rw [String.length_ofList]
      exact List.length_take_le _ _
    dsimp only
    omega

/-! ### Stretches between emoji -/

/-- The stretches before, between and behind emoji, where the characters begin at position
`start`. -/
def stretchesFrom (start : Nat) (cs : List Char) : List EmojiMatch → List (List Char)
  | [] => [cs]
  | m :: ms =>
    cs.take (m.start - start) :: stretchesFrom (m.start + m.emoji.length)
      (cs.drop (m.start - start + m.emoji.length)) ms

/-- The stretches of a text before, between and behind emoji. -/
def stretches (text : String) (ms : List EmojiMatch) : List String :=
  (stretchesFrom 0 text.toList ms).map String.ofList

/-- Stretches with a part between each and the next. -/
def woven : List String → List String → String
  | stretch :: stretches, part :: parts => stretch ++ part ++ woven stretches parts
  | stretches, _ => String.join stretches

theorem woven_append (front stretch : String) (stretches parts : List String) :
    woven ((front ++ stretch) :: stretches) parts =
      front ++ woven (stretch :: stretches) parts := by
  cases parts with
  | nil => simp [woven, String.append_assoc]
  | cons part parts => simp [woven, String.append_assoc]

/-- No emoji is found exactly if none begins anywhere. -/
theorem emojiFrom_eq_nil_iff :
    emojiFrom start 0 cs = [] ↔ ∀ i, emojiLength (cs.drop i) = 0 := by
  induction cs generalizing start with
  | nil => exact ⟨fun _ i => by rw [List.drop_nil]; rfl, fun _ => rfl⟩
  | cons c rest ih =>
    cases here : emojiLength (c :: rest) with
    | zero =>
      rw [emojiFrom_none here, ih]
      constructor
      · intro none i
        cases i with
        | zero => exact here
        | succ i => exact none i
      · intro none i
        exact none (i + 1)
    | succ n =>
      rw [emojiFrom_found here]
      refine ⟨nofun, fun none => ?_⟩
      have absent := none 0
      rw [List.drop_zero, here] at absent
      cases absent

/-- Characters before the first of the emoji lengthen the first stretch. -/
theorem stretchesFrom_cons {ms : List EmojiMatch} (start : Nat) (c : Char) (rest : List Char)
    (later : ∀ m ∈ ms, start < m.start) :
    ∃ first others, stretchesFrom (start + 1) rest ms = first :: others ∧ first <+: rest ∧
      stretchesFrom start (c :: rest) ms = (c :: first) :: others := by
  cases ms with
  | nil => exact ⟨rest, [], rfl, List.prefix_rfl, rfl⟩
  | cons m ms =>
    obtain ⟨k, place⟩ : ∃ k, m.start = start + 1 + k :=
      ⟨m.start - (start + 1), by have := later m List.mem_cons_self; omega⟩
    have before : m.start - (start + 1) = k := by omega
    have before' : m.start - start = k + 1 := by omega
    refine ⟨rest.take k,
      stretchesFrom (m.start + m.emoji.length) (rest.drop (k + m.emoji.length)) ms,
      ?_, List.take_prefix _ _, ?_⟩
    · rw [stretchesFrom, before]
    · rw [stretchesFrom, before', List.take_succ_cons, Nat.add_right_comm, List.drop_succ_cons]

theorem stretchesFrom_found {c : Char} {rest : List Char} {n : Nat}
    (found : emojiLength (c :: rest) = n + 1) (ms : List EmojiMatch) :
    stretchesFrom start (c :: rest) (⟨String.ofList ((c :: rest).take (n + 1)), start⟩ :: ms) =
      [] :: stretchesFrom (start + 1 + n) (rest.drop n) ms := by
  have length : (String.ofList ((c :: rest).take (n + 1))).length = n + 1 := by
    have fits := emojiLength_le_length (c :: rest)
    rw [String.length_ofList, List.length_take]
    omega
  rw [stretchesFrom, length, Nat.sub_self, Nat.zero_add, List.take_zero, List.drop_succ_cons,
    Nat.add_assoc start 1 n, Nat.add_comm 1 n]

/-- No emoji begins in a stretch between emoji, wherever the stretch ends. -/
theorem emojiLength_of_mem_stretchesFrom {part : List Char}
    (h : part ∈ stretchesFrom (start + skip) (cs.drop skip) (emojiFrom start skip cs)) (i : Nat) :
    emojiLength (part.drop i) = 0 := by
  fun_induction emojiFrom start skip cs generalizing part i with
  | case1 start skip =>
    rw [List.drop_nil] at h
    rw [List.mem_singleton.mp h, List.drop_nil]
    rfl
  | case2 start c rest skip ih =>
    rw [List.drop_succ_cons, show start + (skip + 1) = start + 1 + skip by omega] at h
    exact ih h i
  | case3 start c rest none ih =>
    obtain ⟨first, others, apart, front, eq⟩ :=
      stretchesFrom_cons start c rest fun m mem => lt_start_of_mem_emojiFrom mem
    rw [Nat.add_zero, List.drop_zero, apart] at ih
    rw [Nat.add_zero, List.drop_zero, eq] at h
    rcases List.mem_cons.mp h with rfl | other
    · cases i with
      | zero =>
        have cut : c :: first = (c :: rest).take (first.length + 1) := by
          rw [List.take_succ_cons, List.prefix_iff_eq_take.mp front]
          simp
        rw [List.drop_zero, cut, emojiLength_take (by omega), none]
      | succ i => exact ih List.mem_cons_self i
    · exact ih (List.mem_cons_of_mem _ other) i
  | case4 start c rest n found ih =>
    rw [Nat.add_zero, List.drop_zero, stretchesFrom_found found] at h
    rcases List.mem_cons.mp h with rfl | h
    · rw [List.drop_nil]
      rfl
    · exact ih h i

/-- Stretches and emoji in turn make up the characters. -/
theorem woven_stretchesFrom (start skip : Nat) (cs : List Char) :
    woven
        ((stretchesFrom (start + skip) (cs.drop skip) (emojiFrom start skip cs)).map
          String.ofList)
        ((emojiFrom start skip cs).map (·.emoji)) =
      String.ofList (cs.drop skip) := by
  fun_induction emojiFrom start skip cs with
  | case1 start skip =>
    rw [List.drop_nil]
    rfl
  | case2 start c rest skip ih =>
    rw [List.drop_succ_cons, show start + (skip + 1) = start + 1 + skip by omega]
    exact ih
  | case3 start c rest none ih =>
    obtain ⟨first, others, apart, -, eq⟩ :=
      stretchesFrom_cons start c rest fun m mem => lt_start_of_mem_emojiFrom mem
    rw [Nat.add_zero, List.drop_zero, apart] at ih
    rw [Nat.add_zero, List.drop_zero, eq, List.map_cons, String.ofList_cons, woven_append,
      ← List.map_cons, ih, String.ofList_cons]
  | case4 start c rest n found ih =>
    rw [Nat.add_zero, List.drop_zero, stretchesFrom_found found, List.map_cons, List.map_cons,
      woven, ih, String.ofList_nil, String.empty_append, ← String.ofList_append, ← List.drop_succ_cons,
      List.take_append_drop]

/-! ### Carved texts -/

/-- A text is taken apart into its emoji and the stretches around them. -/
structure Carved (text : String) (ms : List EmojiMatch) : Prop where
  /-- Stretches and emoji in turn make up the text. -/
  whole : woven (stretches text ms) (ms.map (·.emoji)) = text
  /-- Each emoji ends before the next one begins. -/
  apart : ms.Pairwise fun a b => a.start + a.emoji.length ≤ b.start
  /-- Each emoji alone is one emoji. -/
  alone : ∀ m ∈ ms, findEmoji m.emoji = [⟨m.emoji, 0⟩]
  /-- No stretch alone holds an emoji. -/
  plain : ∀ stretch ∈ stretches text ms, findEmoji stretch = []

theorem carved_findEmoji (text : String) : Carved text (findEmoji text) where
  whole := by
    have whole := woven_stretchesFrom 0 0 text.toList
    rwa [List.drop_zero, String.ofList_toList] at whole
  apart := pairwise_emojiFrom 0 0 text.toList
  alone _ mem := findEmoji_of_mem_emojiFrom mem
  plain stretch mem := by
    obtain ⟨cs, inside, rfl⟩ := List.mem_map.mp mem
    rw [findEmoji, String.toList_ofList, emojiFrom_eq_nil_iff]
    have here : cs ∈ stretchesFrom (0 + 0) (text.toList.drop 0) (emojiFrom 0 0 text.toList) :=
      inside
    exact emojiLength_of_mem_stretchesFrom here

end JsxAudit.Label
