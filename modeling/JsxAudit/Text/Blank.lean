/-!
White space in texts of any script: what counts as blank, trimming, and splitting into words.

A blank is a character that separates words: the ASCII spaces and separators, the next-line
control, and every Unicode space, the no-break and ideographic ones included. The zero-width space
is no blank.
-/

namespace JsxAudit.Text

/-- The characters that trimming removes and that separate words. -/
def isBlank (c : Char) : Bool :=
  let n := c.toNat
  (0x09 ≤ n && n ≤ 0x0D) || (0x1C ≤ n && n ≤ 0x20) || n == 0x85 || n == 0xA0 || n == 0x1680 ||
    (0x2000 ≤ n && n ≤ 0x200A) || n == 0x2028 || n == 0x2029 || n == 0x202F || n == 0x205F ||
    n == 0x3000

/-- Characters without the blanks at either end. -/
def trimChars (cs : List Char) : List Char :=
  ((cs.dropWhile isBlank).reverse.dropWhile isBlank).reverse

/-- A text without the blanks at either end. -/
def trim (s : String) : String :=
  String.ofList (trimChars s.toList)

/-- The maximal blank-free stretches, given the stretch read so far in reverse. -/
def wordsFrom (word : List Char) : List Char → List (List Char)
  | [] => if word.isEmpty then [] else [word.reverse]
  | c :: rest =>
    if isBlank c then
      if word.isEmpty then wordsFrom [] rest else word.reverse :: wordsFrom [] rest
    else wordsFrom (c :: word) rest

/-- The words of a text: its maximal blank-free stretches, in order. -/
def words (s : String) : List String :=
  (wordsFrom [] s.toList).map String.ofList

/-- A text that has nothing but blanks. -/
def isBlankText (s : String) : Bool :=
  s.toList.all isBlank

/-- The pieces between the separators, one more than there are separators. -/
def splitChars (sep : Char) : List Char → List (List Char)
  | [] => [[]]
  | c :: rest =>
    if c = sep then [] :: splitChars sep rest
    else match splitChars sep rest with
      | [] => [[c]]
      | piece :: pieces => (c :: piece) :: pieces

/-- The pieces of a text between the separators. -/
def splitOn (sep : Char) (s : String) : List String :=
  (splitChars sep s.toList).map String.ofList

/-- Characters without those of `strip` at either end. -/
def trimMatching (strip : Char → Bool) (s : String) : String :=
  String.ofList ((s.toList.dropWhile strip).reverse.dropWhile strip).reverse

end JsxAudit.Text
