import JsxAudit.Text.Path

/-!
Printed text.

Something in square brackets that begins with a small letter or with one of three marks is a tag:
it says how the text behind it looks, and is not shown. A backslash in front of it takes that
meaning away. `escape` puts such backslashes where a text has brackets of its own, `render` says
what is left of a text when its tags are gone.

A code between colons stands for an emoji. The one that is known here is the hundred, which is what
a line number one hundred looks like between its colons. Marks that would move the cursor are left
out, and a tab is filled up with blanks to the next column that is a multiple of eight.
-/

namespace JsxAudit.Report.Markup

/-! ### Tags -/

/-- Characters that a tag begins with. -/
def isTagStart (c : Char) : Bool :=
  ('a' ≤ c && c ≤ 'z') || c == '#' || c == '/' || c == '@'

/-- What begins with an opening bracket and ends with the next closing one, if it begins like a tag
and all between is accepted by `p`. -/
def bracketed? (p : Char → Bool) : List Char → Option (List Char)
  | '[' :: c :: rest =>
    let inner := rest.takeWhile (· != ']')
    if isTagStart c && inner.all p && inner.length < rest.length then
      some ('[' :: c :: inner ++ [']'])
    else none
  | _ => none

/-- The tag at the front. -/
def tag? : List Char → Option (List Char) :=
  bracketed? (· != '[')

/-! ### Escaping -/

/-- Text with brackets escaped; `slashes` backslashes come before it, and its first `skip`
characters belong to a bracket already met. -/
def escapeFrom (slashes skip : Nat) : List Char → List Char
  | [] => []
  | c :: rest =>
    match skip with
    | skip + 1 => c :: escapeFrom 0 skip rest
    | 0 =>
      if c = '\\' then c :: escapeFrom (slashes + 1) 0 rest
      else
        match bracketed? (· != '\n') (c :: rest) with
        | some found =>
          List.replicate (slashes + 1) '\\' ++ c :: escapeFrom 0 (found.length - 1) rest
        | none => c :: escapeFrom 0 0 rest

/-- A backslash that ends the text alone is doubled. -/
def closeSlash (cs : List Char) : List Char :=
  match cs.reverse with
  | ['\\'] => cs ++ ['\\']
  | '\\' :: c :: _ => if c = '\\' then cs else cs ++ ['\\']
  | _ => cs

/-- Text whose brackets are no tags. -/
def escape (cs : List Char) : List Char :=
  closeSlash (escapeFrom 0 0 cs)

/-! ### Rendering -/

/-- The pieces of text between tags, without the tags. `current` is the piece so far in reverse, and
the first `skip` characters belong to a tag already met. -/
def pieces (skip : Nat) (current : List Char) : List Char → List (List Char)
  | [] => [current.reverse]
  | c :: rest =>
    match skip with
    | skip + 1 => pieces skip current rest
    | 0 =>
      match tag? (c :: rest) with
      | some tag =>
        let slashes := (current.takeWhile (· == '\\')).length
        let before := (current.dropWhile (· == '\\')).reverse
        let shown := if slashes % 2 = 1 then [tag] else []
        before :: List.replicate (slashes / 2) '\\' :: shown ++ pieces (tag.length - 1) [] rest
      | none => pieces 0 (c :: current) rest

/-- Text without the backslashes in front of brackets. -/
def bareBrackets : List Char → List Char
  | [] => []
  | '\\' :: '[' :: rest => '[' :: bareBrackets rest
  | c :: rest => c :: bareBrackets rest

/-! ### Emoji codes -/

/-- The code up to the next colon, if no blank comes before it. -/
def codeAt? : List Char → Option (List Char)
  | [] => none
  | c :: rest =>
    if c = ':' then some []
    else if Text.isBlank c then none
    else (codeAt? rest).map (c :: ·)

/-- Text with its emoji codes replaced; the first `skip` characters belong to a code already met. -/
def emojiFrom (skip : Nat) : List Char → List Char
  | [] => []
  | c :: rest =>
    match skip with
    | skip + 1 => emojiFrom skip rest
    | 0 =>
      match if c = ':' then codeAt? rest else none with
      | some code =>
        let shown := if code = ['1', '0', '0'] then [Char.ofNat 0x1F4AF] else c :: code ++ [':']
        shown ++ emojiFrom (code.length + 1) rest
      | none => c :: emojiFrom 0 rest

/-! ### Columns -/

/-- Marks that move the cursor or ring a bell. -/
def isCursorMark (c : Char) : Bool :=
  [7, 8, 11, 12, 13].contains c.toNat

/-- Text with tabs filled up, from a column on. -/
def fillTabs (column : Nat) : List Char → List Char
  | [] => []
  | c :: rest =>
    if c = '\n' then c :: fillTabs 0 rest
    else if c = '\t' then
      let width := 8 - column % 8
      List.replicate width ' ' ++ fillTabs (column + width) rest
    else c :: fillTabs (column + 1) rest

/-! ### Printing -/

/-- What a text with tags shows. -/
def render (cs : List Char) : List Char :=
  ((pieces 0 [] cs).flatMap fun piece => emojiFrom 0 (bareBrackets piece)).filter (!isCursorMark ·)

/-- What is printed for a text that is not meant to have tags. -/
def plain (s : String) : String :=
  String.ofList (render (escape s.toList))

/-- What is printed for a text with tags. -/
def tagged (s : String) : String :=
  String.ofList (render s.toList)

/-- A text that has no tags by its nature, with its emoji codes replaced. -/
def withEmoji (s : String) : String :=
  String.ofList (emojiFrom 0 s.toList)

/-- A printed line, its tabs filled up. -/
def line (s : String) : String :=
  String.ofList (fillTabs 0 s.toList) ++ "\n"

end JsxAudit.Report.Markup
