import JsxAudit.Asset.Alias
import JsxAudit.Proofs.Data.JsonTidy

/-!
Comments of a document, told from its strings.

`labelled` gives each character of a document its role, so that the document without comments is
what is left of its characters. The patterns that take comments out look at the text alone. They
take out the same block comments if nothing in a string or a line comment looks like one
(`dropBlocks_labelled`), and the same line comments, up to white space, if each of these has its
line for itself (`Lined.kept`).
-/

namespace JsxAudit.Asset

open Data

/-! ### Roles -/

/-- What a character of a document with comments is part of. -/
inductive Role where
  | code | string | line | block
  deriving DecidableEq

/-- The characters of a text that goes on in a role, each with its own. A comment that is never
closed is none. -/
def labelled : Role → List Char → List (Role × Char)
  | _, [] => []
  | .code, '"' :: cs => (.string, '"') :: labelled .string cs
  | .code, '/' :: '/' :: cs => (.line, '/') :: (.line, '/') :: labelled .line cs
  | .code, '/' :: '*' :: cs =>
    if (afterBlock? cs).isSome then (.block, '/') :: (.block, '*') :: labelled .block cs
    else (.code, '/') :: (.code, '*') :: labelled .code cs
  | .code, c :: cs => (.code, c) :: labelled .code cs
  | .string, '"' :: cs => (.string, '"') :: labelled .code cs
  | .string, '\\' :: c :: cs => (.string, '\\') :: (.string, c) :: labelled .string cs
  | .string, c :: cs => (.string, c) :: labelled .string cs
  | .line, '\n' :: cs => (.code, '\n') :: labelled .code cs
  | .line, c :: cs => (.line, c) :: labelled .line cs
  | .block, '*' :: '/' :: cs => (.block, '*') :: (.block, '/') :: labelled .code cs
  | .block, c :: cs => (.block, c) :: labelled .block cs

def chars (cs : List (Role × Char)) : List Char :=
  cs.map (·.2)

def withoutBlocks (cs : List (Role × Char)) : List (Role × Char) :=
  cs.filter (·.1 != .block)

def withoutComments (cs : List (Role × Char)) : List (Role × Char) :=
  (withoutBlocks cs).filter (·.1 != .line)

theorem labelled_code {c : Char} (quote : c ≠ '"') (slash : c ≠ '/') (cs : List Char) :
    labelled .code (c :: cs) = (.code, c) :: labelled .code cs := by
  rw [labelled]
  · exact quote
  · exact fun _ eq => absurd eq slash
  · exact fun _ eq => absurd eq slash

theorem labelled_inside {c : Char} (quote : c ≠ '"') (slash : c ≠ '\\') (cs : List Char) :
    labelled .string (c :: cs) = (.string, c) :: labelled .string cs := by
  rw [labelled]
  · exact quote
  · exact fun _ _ eq => absurd eq slash

/-- What is inside a part of a document has its role. -/
def roleOf : Json.Part → Role
  | .code => .code
  | .string => .string

/-- In a document without comments there is nothing to take out. -/
theorem withoutComments_of_tidy {part : Json.Part} {cs : List Char} {strict : Bool}
    (h : Json.Tidy strict part cs) : chars (withoutComments (labelled (roleOf part) cs)) = cs := by
  induction h with
  | finish => rfl
  | @char c cs code _ _ ih =>
    obtain ⟨quote, slash, -⟩ := Json.isCode_iff.mp code
    rw [roleOf, labelled_code quote slash]
    exact congrArg (c :: ·) ih
  | opening _ ih => exact congrArg ('"' :: ·) ih
  | closing _ ih => exact congrArg ('"' :: ·) ih
  | @escape c cs _ _ ih => exact congrArg ('\\' :: c :: ·) ih
  | @inside c cs quote slash _ _ ih =>
    rw [roleOf, labelled_inside quote slash]
    exact congrArg (c :: ·) ih

/-! ### What the patterns cannot tell apart -/

/-- The text begins with what looks like a block comment. -/
def opensBlock : List Char → Bool
  | '/' :: '*' :: cs => (afterBlock? cs).isSome
  | _ => false

/-- Nothing in a string or in a line comment looks like a block comment. -/
def blocksApart : List (Role × Char) → Bool
  | [] => true
  | (role, c) :: rest =>
    !((role == .string || role == .line) && opensBlock (c :: chars rest)) && blocksApart rest

/-- In front of each line comment there is only white space on its line; `fresh` says so of what
comes before the text. -/
def linesAlone (fresh : Bool) : List (Role × Char) → Bool
  | [] => true
  | (role, c) :: rest =>
    (role != .line || fresh) &&
      linesAlone (c == '\n' || fresh && (role == .line || Json.isSpace c)) rest

/-! ### Block comments -/

theorem chars_labelled (role : Role) (cs : List Char) : chars (labelled role cs) = cs := by
  unfold chars
  fun_induction labelled role cs <;> simp_all

theorem dropBlocks_append (xs ys : List Char) :
    dropBlocks xs.length (xs ++ ys) = dropBlocks 0 ys := by
  induction xs with
  | nil => rfl
  | cons c xs ih => exact ih

theorem suffix_of_afterBlock? {cs after : List Char} (h : afterBlock? cs = some after) :
    ∃ body, cs = body ++ after := by
  fun_induction afterBlock? cs with
  | case1 => cases h
  | case2 rest =>
    cases h
    exact ⟨['*', '/'], rfl⟩
  | case3 c rest _ ih =>
    obtain ⟨body, rfl⟩ := ih h
    exact ⟨c :: body, rfl⟩

theorem dropBlocks_comment {body after : List Char} (h : afterBlock? body = some after) :
    dropBlocks 0 ('/' :: '*' :: body) = dropBlocks 0 after := by
  obtain ⟨inner, rfl⟩ := suffix_of_afterBlock? h
  have length : ('*' :: (inner ++ after)).length - after.length = ('*' :: inner).length := by
    simp only [List.length_cons, List.length_append]
    omega
  have skip := dropBlocks_append ('*' :: inner) after
  rw [← length] at skip
  simpa [dropBlocks, h] using skip

theorem dropBlocks_cons {c : Char} {cs : List Char} (h : opensBlock (c :: cs) = false) :
    dropBlocks 0 (c :: cs) = c :: dropBlocks 0 cs := by
  rw [dropBlocks.eq_def]
  dsimp only
  split
  · rename_i slash
    split
    · rename_i body
      split
      · rename_i closed
        rw [slash, opensBlock, closed] at h
        cases h
      · rfl
    · rfl
  · rfl

theorem afterBlock?_cons {c : Char} {cs : List Char}
    (h : ∀ rest, c = '*' → cs = '/' :: rest → False) : afterBlock? (c :: cs) = afterBlock? cs := by
  rw [afterBlock?]
  exact h

theorem blocksApart_cons {role : Role} {c : Char} {rest : List (Role × Char)}
    (h : blocksApart ((role, c) :: rest) = true) :
    ((role = .string ∨ role = .line) → opensBlock (c :: chars rest) = false) ∧
      blocksApart rest = true := by
  rw [blocksApart, Bool.and_eq_true, Bool.not_eq_true', Bool.and_eq_false_iff] at h
  refine ⟨fun either => ?_, h.2⟩
  rcases h.1 with other | other
  · rcases either with rfl | rfl <;> cases other
  · exact other

/-- What there is to be looked at after a comment that has begun. -/
def outside? : Role → List Char → Option (List Char)
  | .block, cs => afterBlock? cs
  | _, cs => some cs

/-- Where nothing else looks like one, exactly the block comments are taken out. -/
theorem dropBlocks_labelled {role : Role} {cs rest : List Char}
    (apart : blocksApart (labelled role cs) = true) (out : outside? role cs = some rest) :
    dropBlocks 0 rest = chars (withoutBlocks (labelled role cs)) := by
  fun_induction labelled role cs generalizing rest with
  | case1 role => cases role <;> cases out <;> rfl
  | case2 cs ih =>
    cases out
    rw [dropBlocks_cons rfl, ih (blocksApart_cons apart).2 rfl]
    rfl
  | case3 cs ih =>
    cases out
    obtain ⟨-, apart⟩ := blocksApart_cons apart
    obtain ⟨second, apart⟩ := blocksApart_cons apart
    rw [chars_labelled] at second
    rw [dropBlocks_cons rfl, dropBlocks_cons (second (.inr rfl)), ih apart rfl]
    rfl
  | case4 cs closed ih =>
    cases out
    obtain ⟨after, found⟩ := Option.isSome_iff_exists.mp closed
    rw [dropBlocks_comment found, ih (blocksApart_cons (blocksApart_cons apart).2).2 found]
    rfl
  | case5 cs unclosed ih =>
    cases out
    have first : opensBlock ('/' :: '*' :: cs) = false := by
      rwa [opensBlock, ← Bool.not_eq_true]
    rw [dropBlocks_cons first, dropBlocks_cons rfl,
      ih (blocksApart_cons (blocksApart_cons apart).2).2 rfl]
    rfl
  | case6 c cs _ _ other ih =>
    cases out
    have first : opensBlock (c :: cs) = false := by
      unfold opensBlock
      split
      · rename_i eq
        obtain ⟨rfl, rfl⟩ := List.cons.inj eq
        exact (other _ rfl rfl).elim
      · rfl
    rw [dropBlocks_cons first, ih (blocksApart_cons apart).2 rfl]
    rfl
  | case7 cs ih =>
    cases out
    rw [dropBlocks_cons rfl, ih (blocksApart_cons apart).2 rfl]
    rfl
  | case8 c cs ih =>
    cases out
    obtain ⟨-, apart⟩ := blocksApart_cons apart
    obtain ⟨second, apart⟩ := blocksApart_cons apart
    rw [chars_labelled] at second
    rw [dropBlocks_cons rfl, dropBlocks_cons (second (.inl rfl)), ih apart rfl]
    rfl
  | case9 c cs _ _ ih =>
    cases out
    obtain ⟨first, apart⟩ := blocksApart_cons apart
    rw [chars_labelled] at first
    rw [dropBlocks_cons (first (.inl rfl)), ih apart rfl]
    rfl
  | case10 cs ih =>
    cases out
    rw [dropBlocks_cons rfl, ih (blocksApart_cons apart).2 rfl]
    rfl
  | case11 c cs _ ih =>
    cases out
    obtain ⟨first, apart⟩ := blocksApart_cons apart
    rw [chars_labelled] at first
    rw [dropBlocks_cons (first (.inr rfl)), ih apart rfl]
    rfl
  | case12 cs ih =>
    cases out
    exact ih (blocksApart_cons (blocksApart_cons apart).2).2 rfl
  | case13 c cs open_ ih =>
    rw [outside?, afterBlock?_cons open_] at out
    exact ih (blocksApart_cons apart).2 out

/-! ### Line comments -/

/-- The part of a document that a text is in when it goes on in a role; block comments count for
nothing. -/
def Role.part : Role → Json.Part
  | .string => .string
  | _ => .code

/-- A text with line comments, each alone on its line, and the text without them, from a place on.
`fresh` says that there is only white space in front of the place on its line. -/
inductive Lined : Bool → Role → List Char → List Char → Prop
  | finish {fresh : Bool} : Lined fresh .code [] []
  | char {fresh : Bool} {c : Char} {cs cs' : List Char} : Json.isCode c = true →
    Lined (c == '\n' || fresh && Json.isSpace c) .code cs cs' →
    Lined fresh .code (c :: cs) (c :: cs')
  | opening {fresh fresh' : Bool} {cs cs' : List Char} : Lined fresh' .string cs cs' →
    Lined fresh .code ('"' :: cs) ('"' :: cs')
  | closing {fresh : Bool} {cs cs' : List Char} : Lined false .code cs cs' →
    Lined fresh .string ('"' :: cs) ('"' :: cs')
  | escape {fresh fresh' : Bool} {c : Char} {cs cs' : List Char} : c ≠ '\n' →
    Lined fresh' .string cs cs' → Lined fresh .string ('\\' :: c :: cs) ('\\' :: c :: cs')
  | inside {fresh fresh' : Bool} {c : Char} {cs cs' : List Char} : c ≠ '"' → c ≠ '\\' → c ≠ '\n' →
    Lined fresh' .string cs cs' → Lined fresh .string (c :: cs) (c :: cs')
  | comment {cs cs' : List Char} : Lined true .line cs cs' → Lined true .code ('/' :: '/' :: cs) cs'
  | more {c : Char} {cs cs' : List Char} : c ≠ '\n' → Lined true .line cs cs' →
    Lined true .line (c :: cs) cs'
  | newline {cs cs' : List Char} : Lined true .code cs cs' →
    Lined true .line ('\n' :: cs) ('\n' :: cs')
  | last : Lined true .line [] []

theorem lineCommentLength_of_slashes {cs rest : List Char}
    (h : cs.dropWhile Text.isBlank = '/' :: '/' :: rest) :
    lineCommentLength cs = cs.length - (rest.dropWhile (· != '\n')).length ∧
      lineCommentLength cs ≠ 0 := by
  have left := (List.dropWhile_suffix Text.isBlank (l := cs)).length_le
  have line := (List.dropWhile_suffix (· != '\n') (l := rest)).length_le
  rw [h, List.length_cons, List.length_cons] at left
  have length : lineCommentLength cs = cs.length - (rest.dropWhile (· != '\n')).length := by
    simp only [lineCommentLength, h]
  exact ⟨length, by omega⟩

theorem lineCommentLength_of_none {cs : List Char}
    (h : ¬ ∃ rest, cs.dropWhile Text.isBlank = '/' :: '/' :: rest) : lineCommentLength cs = 0 := by
  unfold lineCommentLength
  dsimp only
  split
  · rename_i rest found
    exact absurd ⟨rest, found⟩ h
  · rfl

theorem lineCommentLength_slashes (cs : List Char) :
    lineCommentLength ('/' :: '/' :: cs) = (cs.takeWhile (· != '\n')).length + 2 := by
  have whole := congrArg List.length (List.takeWhile_append_dropWhile (p := (· != '\n')) (l := cs))
  rw [List.length_append] at whole
  have length := (@lineCommentLength_of_slashes ('/' :: '/' :: cs) cs rfl).1
  simp only [List.length_cons] at length
  omega

theorem lineCommentLength_blank {c : Char} (blank : Text.isBlank c = true) (cs : List Char) :
    lineCommentLength (c :: cs) =
      if lineCommentLength cs = 0 then 0 else lineCommentLength cs + 1 := by
  have skip : (c :: cs).dropWhile Text.isBlank = cs.dropWhile Text.isBlank :=
    List.dropWhile_cons_of_pos blank
  by_cases comment : ∃ rest, cs.dropWhile Text.isBlank = '/' :: '/' :: rest
  · obtain ⟨rest, found⟩ := comment
    obtain ⟨length, some⟩ := lineCommentLength_of_slashes found
    obtain ⟨length', -⟩ := lineCommentLength_of_slashes (skip.trans found)
    rw [if_neg some, length', length, List.length_cons]
    omega
  · rw [if_pos (lineCommentLength_of_none comment), lineCommentLength_of_none]
    rwa [skip]

theorem isBlank_of_lineCommentLength {c : Char} {cs : List Char} (slash : c ≠ '/')
    (h : lineCommentLength (c :: cs) ≠ 0) : Text.isBlank c = true := by
  rw [← Bool.not_eq_false]
  intro seen
  refine h (lineCommentLength_of_none ?_)
  rintro ⟨rest, found⟩
  rw [List.dropWhile_cons_of_neg (by rw [seen]; decide)] at found
  exact slash (List.cons.inj found).1

theorem isBlank_of_isSpace {c : Char} (h : Json.isSpace c = true) : Text.isBlank c = true := by
  simp only [Json.isSpace, Bool.or_eq_true, beq_iff_eq] at h
  rcases h with ((rfl | rfl) | rfl) | rfl <;> decide

/-- A comment at the beginning of a line is passed over. -/
theorem dropLineComments_comment {cs : List Char} (h : lineCommentLength cs ≠ 0) :
    dropLineComments 0 true cs = dropLineComments (lineCommentLength cs) true cs := by
  cases cs with
  | nil => rfl
  | cons c cs =>
    rw [dropLineComments.eq_def]
    dsimp only
    rw [if_pos rfl]
    cases length : lineCommentLength (c :: cs) with
    | zero => exact absurd length h
    | succ n => rfl

theorem dropLineComments_cons {c : Char} {cs : List Char} {atStart : Bool}
    (h : atStart = true → lineCommentLength (c :: cs) = 0) :
    dropLineComments 0 atStart (c :: cs) = c :: dropLineComments 0 (c == '\n') cs := by
  rw [dropLineComments.eq_def]
  dsimp only
  cases atStart with
  | false => rfl
  | true => rw [if_pos rfl, h rfl]

/-- What is left of a text is the same, up to white space, as the text without its line comments.
Where a comment is passed over, any white space may stand in front of the text without it. -/
def Kept (fresh : Bool) : Role → List Char → List Char → Prop
  | .string, cs, cs' => Json.Respaced .string (dropLineComments 0 false cs) cs'
  | .line, cs, cs' => ∀ bs, (∀ c ∈ bs, Json.isSpace c = true) →
    Json.Respaced .code (dropLineComments (cs.takeWhile (· != '\n')).length false cs) (bs ++ cs')
  | _, cs, cs' =>
    (lineCommentLength cs ≠ 0 → ∀ start bs, (∀ c ∈ bs, Json.isSpace c = true) →
      Json.Respaced .code (dropLineComments (lineCommentLength cs) start cs) (bs ++ cs')) ∧
    ∀ atStart, (fresh = true → atStart = true ∨ lineCommentLength cs = 0) →
      Json.Respaced .code (dropLineComments 0 atStart cs) cs'

namespace Kept

variable {fresh : Bool} {c : Char} {cs cs' : List Char}

theorem char (code : Json.isCode c = true)
    (h : Kept (c == '\n' || fresh && Json.isSpace c) .code cs cs') :
    Kept fresh .code (c :: cs) (c :: cs') := by
  obtain ⟨quote, slash, white⟩ := Json.isCode_iff.mp code
  have comment : lineCommentLength (c :: cs) ≠ 0 → ∀ start bs, (∀ c ∈ bs, Json.isSpace c = true) →
      Json.Respaced .code (dropLineComments (lineCommentLength (c :: cs)) start (c :: cs))
        (bs ++ c :: cs') := by
    intro found start bs blank
    have first := isBlank_of_lineCommentLength slash found
    have later : lineCommentLength cs ≠ 0 := fun none => found (by
      rw [lineCommentLength_blank first, if_pos none])
    rw [lineCommentLength_blank first, if_neg later, List.append_cons]
    refine h.1 later _ _ fun b mem => ?_
    rcases List.mem_append.mp mem with mem | mem
    · exact blank b mem
    · rw [List.mem_singleton.mp mem]
      exact white first
  refine ⟨comment, fun atStart alone => ?_⟩
  by_cases found : atStart = true ∧ lineCommentLength (c :: cs) ≠ 0
  · obtain ⟨rfl, found⟩ := found
    rw [dropLineComments_comment found]
    exact comment found true [] nofun
  · have none (start : atStart = true) : lineCommentLength (c :: cs) = 0 :=
      not_not.mp fun length => found ⟨start, length⟩
    rw [dropLineComments_cons none]
    refine .char quote (h.2 _ fun next => ?_)
    rw [Bool.or_eq_true, Bool.and_eq_true] at next
    rcases next with newline | ⟨freshHere, space⟩
    · exact .inl newline
    · -- No comment begins behind this blank, since none begins here.
      have length : lineCommentLength (c :: cs) = 0 := (alone freshHere).elim none id
      rw [lineCommentLength_blank (isBlank_of_isSpace space)] at length
      refine .inr (not_not.mp fun later => ?_)
      rw [if_neg later] at length
      cases length

theorem comment (h : Kept true .line cs cs') : Kept true .code ('/' :: '/' :: cs) cs' := by
  have length := lineCommentLength_slashes cs
  have some : lineCommentLength ('/' :: '/' :: cs) ≠ 0 := by
    rw [length]
    exact Nat.succ_ne_zero _
  have passed (start : Bool) (bs : List Char) (blank : ∀ c ∈ bs, Json.isSpace c = true) :
      Json.Respaced .code
        (dropLineComments (lineCommentLength ('/' :: '/' :: cs)) start ('/' :: '/' :: cs))
        (bs ++ cs') := by
    rw [length]
    exact h bs blank
  refine ⟨fun _ => passed, fun atStart alone => ?_⟩
  rcases alone rfl with rfl | none
  · rw [dropLineComments_comment some]
    exact passed true [] nofun
  · exact absurd none some

theorem more (line : c ≠ '\n') (h : Kept true .line cs cs') : Kept true .line (c :: cs) cs' := by
  intro bs blank
  have next : (c == '\n') = false := beq_false_of_ne line
  have run : (c :: cs).takeWhile (· != '\n') = c :: cs.takeWhile (· != '\n') :=
    List.takeWhile_cons_of_pos (bne_iff_ne.mpr line)
  rw [run, List.length_cons, dropLineComments, next]
  exact h bs blank

theorem newline (h : Kept true .code cs cs') : Kept true .line ('\n' :: cs) ('\n' :: cs') := by
  intro bs blank
  have left := h.2 true fun _ => .inl rfl
  have one : ∀ c ∈ ['\n'], Json.isSpace c = true := List.forall_mem_singleton.mpr rfl
  have gap : ∀ c ∈ bs ++ ['\n'], Json.isSpace c = true :=
    List.forall_mem_append.mpr ⟨blank, one⟩
  rw [List.append_cons]
  change Json.Respaced .code ('\n' :: ([] ++ dropLineComments 0 true cs)) _
  cases bs with
  | nil => exact .space one one left
  | cons b bs => exact .space one gap left

end Kept

/-- Only line comments are taken out, and white space in front of them. -/
theorem Lined.kept {fresh : Bool} {role : Role} {cs cs' : List Char}
    (h : Lined fresh role cs cs') : Kept fresh role cs cs' := by
  induction h with
  | finish => exact ⟨fun h => absurd rfl h, fun _ _ => .finish nofun nofun⟩
  | char code _ ih => exact .char code ih
  | @opening fresh fresh' cs cs' _ ih =>
    have none : lineCommentLength ('"' :: cs) = 0 := rfl
    refine ⟨fun h => absurd none h, fun atStart _ => ?_⟩
    rw [dropLineComments_cons fun _ => none]
    exact .opening ih
  | closing _ ih => exact .closing (ih.2 false nofun)
  | @escape _ _ c cs cs' line _ ih =>
    have next : (c == '\n') = false := beq_false_of_ne line
    change Json.Respaced .string ('\\' :: c :: dropLineComments 0 (c == '\n') cs) _
    rw [next]
    exact .escape ih
  | @inside _ _ c cs cs' quote slash line _ ih =>
    have next : (c == '\n') = false := beq_false_of_ne line
    change Json.Respaced .string (c :: dropLineComments 0 (c == '\n') cs) _
    rw [next]
    exact .inside quote slash ih
  | comment _ ih => exact ih.comment
  | more line _ ih => exact ih.more line
  | newline _ ih => exact ih.newline
  | last =>
    intro bs blank
    exact .finish nofun (by simpa using blank)

theorem linesAlone_cons {fresh : Bool} {role : Role} {c : Char} {rest : List (Role × Char)}
    (h : linesAlone fresh ((role, c) :: rest) = true) :
    (role = .line → fresh = true) ∧
      linesAlone (c == '\n' || fresh && (role == .line || Json.isSpace c)) rest = true := by
  rw [linesAlone, Bool.and_eq_true, Bool.or_eq_true] at h
  refine ⟨?_, h.2⟩
  rintro rfl
  exact h.1.resolve_left (by decide)

/-- The role of what follows a block comment that has begun. -/
def Role.around : Role → Role
  | .block => .code
  | role => role

theorem lined_labelled {role : Role} {cs : List Char} {fresh : Bool}
    (alone : linesAlone fresh (withoutBlocks (labelled role cs)) = true)
    (tidy : Json.Tidy false role.part (chars (withoutComments (labelled role cs))))
    (inside : role = .line → fresh = true) :
    Lined fresh role.around (chars (withoutBlocks (labelled role cs)))
      (chars (withoutComments (labelled role cs))) := by
  fun_induction labelled role cs generalizing fresh with
  | case1 role =>
    cases role with
    | code | block => exact .finish
    | string => cases tidy
    | line =>
      cases inside rfl
      exact .last
  | case2 cs ih =>
    obtain ⟨-, alone⟩ := linesAlone_cons alone
    cases tidy with
    | char code => cases code
    | opening tidy => exact .opening (ih alone tidy fun h => nomatch h)
  | case3 cs ih =>
    obtain ⟨first, alone⟩ := linesAlone_cons alone
    obtain ⟨-, alone⟩ := linesAlone_cons alone
    cases first rfl
    exact .comment (ih alone tidy fun _ => rfl)
  | case4 cs closed ih => exact ih alone tidy fun h => nomatch h
  | case5 cs unclosed ih =>
    cases tidy with
    | char code => cases code
  | case6 c cs quote _ _ ih =>
    obtain ⟨-, alone⟩ := linesAlone_cons alone
    cases tidy with
    | char code _ tidy => exact .char code (ih alone tidy fun h => nomatch h)
    | opening => exact (quote rfl).elim
  | case7 cs ih =>
    obtain ⟨-, alone⟩ := linesAlone_cons alone
    have stale : ('"' == '\n' || fresh && (Role.string == .line || Json.isSpace '"')) = false := by
      cases fresh <;> rfl
    rw [stale] at alone
    cases tidy with
    | closing tidy => exact .closing (ih alone tidy fun h => nomatch h)
    | inside plain => exact absurd rfl plain
  | case8 c cs ih =>
    obtain ⟨-, alone⟩ := linesAlone_cons alone
    obtain ⟨-, alone⟩ := linesAlone_cons alone
    cases tidy with
    | escape line tidy => exact .escape line (ih alone tidy fun h => nomatch h)
    | inside _ plain => exact absurd rfl plain
  | case9 c cs quote single ih =>
    obtain ⟨-, alone⟩ := linesAlone_cons alone
    have last (slash : c = '\\') : chars (withoutComments (labelled .string cs)) = [] := by
      cases cs with
      | nil => rfl
      | cons d cs => exact (single d cs slash rfl).elim
    obtain ⟨slash, line, tidy⟩ := Json.Tidy.of_inside tidy quote last
    exact .inside quote slash line (ih alone tidy fun h => nomatch h)
  | case10 cs ih =>
    obtain ⟨-, alone⟩ := linesAlone_cons alone
    cases inside rfl
    cases tidy with
    | char code _ tidy => exact .newline (ih alone tidy fun h => nomatch h)
  | case11 c cs line ih =>
    obtain ⟨-, alone⟩ := linesAlone_cons alone
    cases inside rfl
    have still : (c == '\n' || true && (Role.line == .line || Json.isSpace c)) = true :=
      Bool.or_true _
    rw [still] at alone
    exact .more line (ih alone tidy fun _ => rfl)
  | case12 cs ih => exact ih alone tidy fun h => nomatch h
  | case13 c cs _ ih => exact ih alone tidy fun h => nomatch h

end JsxAudit.Asset
