import JsxAudit.Text.Braces

/-!
Matching paths against patterns.

A star stands for any characters, slashes included, a question mark for any one character, and
brackets for one character of a set. A set may hold ranges and is inverted by an exclamation mark;
an opening bracket without a closing one stands for itself. Brace groups are expanded first, and a
pattern that begins with `**/` also matches as if it did not.
-/

namespace JsxAudit.Text.Glob

/-! ### Sets of characters -/

/-- Characters and ranges of characters. -/
structure CharSet where
  inverted : Bool
  chars : List Char
  ranges : List (Char × Char)

def CharSet.has (s : CharSet) (c : Char) : Bool :=
  s.inverted != (s.chars.contains c || s.ranges.any fun (low, high) => low ≤ c && c ≤ high)

/-- The characters of a set cut at the hyphens that make ranges. After such a hyphen the next two
characters belong to the piece; `keep` counts the characters that cannot be such a hyphen. -/
def cutAtHyphens (piece : List Char) (keep : Nat) : List Char → List (List Char)
  | [] => [piece.reverse]
  | c :: rest =>
    match keep with
    | keep + 1 => cutAtHyphens (c :: piece) keep rest
    | 0 =>
      if c = '-' then piece.reverse :: cutAtHyphens [] 2 rest
      else cutAtHyphens (c :: piece) 0 rest

/-- A hyphen at the end of the set stands for itself. -/
def closeLast : List (List Char) → List (List Char)
  | [piece, []] => [piece ++ ['-']]
  | piece :: rest => piece :: closeLast rest
  | [] => []

/-- Pieces joined where the range between them would be empty, its two ends left out. -/
def dropEmptyRanges : List (List Char) → List (List Char)
  | [] => []
  | piece :: rest =>
    match dropEmptyRanges rest with
    | (first :: next) :: more =>
      match piece.getLast? with
      | some last =>
        if first < last then (piece.dropLast ++ next) :: more
        else piece :: (first :: next) :: more
      | none => piece :: (first :: next) :: more
    | more => piece :: more

/-- The ranges between neighbouring pieces. -/
def rangesOf : List (List Char) → List (Char × Char)
  | piece :: next :: rest =>
    (match piece.getLast?, next.head? with
      | some low, some high => [(low, high)]
      | _, _ => []) ++ rangesOf (next :: rest)
  | _ => []

/-- The set that stands between brackets. -/
def charSet (body : List Char) : CharSet :=
  let keep := if body.head? = some '!' then 2 else 1
  let pieces := dropEmptyRanges (closeLast (cutAtHyphens [] keep body))
  match pieces with
  | ('!' :: piece) :: rest =>
    ⟨true, (piece :: rest).flatten, rangesOf (piece :: rest)⟩
  | _ => ⟨false, pieces.flatten, rangesOf pieces⟩

/-! ### Patterns -/

inductive Token where
  | anything
  | one
  | literal (c : Char)
  | set (s : CharSet)

/-- What stands between brackets, and what follows them. A closing bracket in the first place
belongs to the set. -/
def bracketBody? (cs : List Char) : Option (List Char × List Char) :=
  let (mark, rest) := match cs with
    | '!' :: rest => (['!'], rest)
    | rest => ([], rest)
  let (first, rest) := match rest with
    | ']' :: rest => ([']'], rest)
    | rest => ([], rest)
  let body := rest.takeWhile (· != ']')
  match rest.drop body.length with
  | _ :: after => some (mark ++ first ++ body, after)
  | [] => none

/-- The tokens of a pattern; `skip` characters belong to a set already read. -/
def tokensFrom (skip : Nat) : List Char → List Token
  | [] => []
  | c :: rest =>
    match skip with
    | skip + 1 => tokensFrom skip rest
    | 0 =>
      if c = '*' then .anything :: tokensFrom 0 rest
      else if c = '?' then .one :: tokensFrom 0 rest
      else if c = '[' then
        match bracketBody? rest with
        | some (body, _) => .set (charSet body) :: tokensFrom (body.length + 1) rest
        | none => .literal c :: tokensFrom 0 rest
      else .literal c :: tokensFrom 0 rest

/-- Some end of the characters satisfies `p`, the whole included. -/
def anySuffix (p : List Char → Bool) : List Char → Bool
  | [] => p []
  | c :: cs => p (c :: cs) || anySuffix p cs

/-- The characters are what the tokens stand for. -/
def matchesTokens : List Token → List Char → Bool
  | [], cs => cs.isEmpty
  | .anything :: ts, cs => anySuffix (matchesTokens ts) cs
  | _ :: _, [] => false
  | .one :: ts, _ :: cs => matchesTokens ts cs
  | .literal l :: ts, c :: cs => l = c && matchesTokens ts cs
  | .set s :: ts, c :: cs => s.has c && matchesTokens ts cs

/-- The whole path is what a pattern without groups stands for. -/
def matchesPlain (pattern path : List Char) : Bool :=
  matchesTokens (tokensFrom 0 pattern) path

/-- The path matches the pattern, or what follows a leading `**/`. -/
def matchesLeading (path pattern : List Char) : Bool :=
  matchesPlain pattern path || match pattern with
    | '*' :: '*' :: '/' :: rest => matchesPlain rest path
    | _ => false

/-- The path matches a pattern with groups. -/
def matchesPattern (path pattern : String) : Bool :=
  (expandChars pattern.toList).any (matchesLeading path.toList)

/-- The path matches one of the patterns. -/
def matchesAny (path : String) (patterns : List String) : Bool :=
  patterns.any (matchesPattern path)

end JsxAudit.Text.Glob
