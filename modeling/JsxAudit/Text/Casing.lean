import JsxAudit.Text.CasingTable

/-!
Upper and lower case of texts, with the mappings that change the length (`ß` to `SS`) and the final
form of the Greek sigma.
-/

namespace JsxAudit.Text

/-! ### Tables -/

/-- Whether a code point lies in one of the inclusive ranges. -/
def inRanges (ranges : Array (Nat × Nat)) (n : Nat) : Bool :=
  ranges.any fun r => r.1 ≤ n && n ≤ r.2

/-- The code point that a run of the table maps `n` to. -/
def mapThrough (runs : Array (Nat × Nat × Nat × Int)) (n : Nat) : Option Nat :=
  (runs.find? fun r => r.1 ≤ n && n ≤ r.2.1 && (n - r.1) % r.2.2.1 == 0).map
    fun r => (n + r.2.2.2 : Int).toNat

/-- Uppercase letters; titlecase letters are none. -/
def isUppercase (c : Char) : Bool :=
  if c.toNat < 0x80 then c.isUpper
  else uppercaseRuns.any fun r =>
    r.1 ≤ c.toNat && c.toNat ≤ r.2.1 && (c.toNat - r.1) % r.2.2 == 0

/-! ### Single characters -/

/-- The upper case of a character, which may be several. -/
def upperChar (c : Char) : List Char :=
  if c.toNat < 0x80 then [c.toUpper]
  else match upperExpansions.find? fun e => e.1 == c.toNat with
    | some (_, expansion) => expansion.map Char.ofNat
    | none => [((mapThrough upperRuns c.toNat).map Char.ofNat).getD c]

/-- The lower case of a character apart from its neighbours; the dotted capital I becomes two. -/
def lowerChar (c : Char) : List Char :=
  if c.toNat < 0x80 then [c.toLower]
  else if c.toNat == 0x130 then ['i', Char.ofNat 0x307]
  else [((mapThrough lowerRuns c.toNat).map Char.ofNat).getD c]

/-! ### Texts -/

/-- The next letter that decides whether a word goes on has a case. -/
def meetsCased (cs : List Char) : Bool :=
  match cs.dropWhile fun c => inRanges caseIgnorableRanges c.toNat with
  | [] => false
  | c :: _ => inRanges casedRanges c.toNat

/-- Lower case of characters, given in reverse those before them. A capital sigma that ends a word
takes its final form. -/
def lowerFrom (before : List Char) : List Char → List Char
  | [] => []
  | c :: rest =>
    (if c.toNat == 0x3A3 then
      [if meetsCased before && !meetsCased rest then Char.ofNat 0x3C2 else Char.ofNat 0x3C3]
    else lowerChar c) ++ lowerFrom (c :: before) rest

def lower (s : String) : String :=
  String.ofList (lowerFrom [] s.toList)

/-- The text with its first character in upper case and the others as they are. -/
def capitalizeChars : List Char → List Char
  | [] => []
  | c :: rest => upperChar c ++ rest

def capitalize (s : String) : String :=
  String.ofList (capitalizeChars s.toList)

/-- Equality of an ASCII letter with any character up to case. Besides the two forms of the letter
itself, the dotted and dotless i stand for `i`, the long s for `s` and the Kelvin sign for `k`. -/
def sameLetter (letter c : Char) : Bool :=
  c.toLower == letter.toLower ||
    (letter.toLower == 'i' && (c.toNat == 0x130 || c.toNat == 0x131)) ||
    (letter.toLower == 's' && c.toNat == 0x17F) ||
    (letter.toLower == 'k' && c.toNat == 0x212A)

/-- The rest of the characters after a literal that opens them, letters compared without case. -/
def dropLiteral : List Char → List Char → Option (List Char)
  | [], cs => some cs
  | _ :: _, [] => none
  | l :: literal, c :: cs => if sameLetter l c then dropLiteral literal cs else none

/-- A literal occurs somewhere in the characters, letters compared without case. -/
def occursIgnoringCase (literal : List Char) : List Char → Bool
  | [] => literal.isEmpty
  | c :: cs => (dropLiteral literal (c :: cs)).isSome || occursIgnoringCase literal cs

end JsxAudit.Text
