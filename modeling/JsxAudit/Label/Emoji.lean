import JsxAudit.Label.EmojiTable
import JsxAudit.Text.Casing

/-!
Finding emoji in a text, and naming them.

An emoji is one symbol or several symbols joined by zero-width joiners. A symbol is a character
that shows as an emoji, with an optional variation selector and an optional skin tone; or a
character that does so only before a variation selector; or a flag of two regional indicators.
-/

namespace JsxAudit.Label

def isPresentation (c : Char) : Bool :=
  Text.inRanges presentationRanges c.toNat

def isTextDefault (c : Char) : Bool :=
  Text.inRanges textDefaultRanges c.toNat

def isSelector (c : Char) : Bool :=
  c.toNat == 0xFE0F

def isSkinTone (c : Char) : Bool :=
  0x1F3FB ≤ c.toNat && c.toNat ≤ 0x1F3FF

def isRegional (c : Char) : Bool :=
  0x1F1E6 ≤ c.toNat && c.toNat ≤ 0x1F1FF

def isJoiner (c : Char) : Bool :=
  c.toNat == 0x200D

/-- One if the characters begin with one that satisfies `p`, else zero. -/
def countFirst (p : Char → Bool) : List Char → Nat
  | [] => 0
  | c :: _ => if p c then 1 else 0

/-- Length of the symbol at the front, zero if there is none. -/
def symbolLength : List Char → Nat
  | [] => 0
  | c :: rest =>
    if isPresentation c then
      let selector := countFirst isSelector rest
      1 + selector + countFirst isSkinTone (rest.drop selector)
    else if isTextDefault c then 2 * countFirst isSelector rest
    else if isRegional c then 2 * countFirst isRegional rest
    else 0

/-- Length of the joined symbols at the front, at most `fuel` of them. -/
def joinedLength : Nat → List Char → Nat
  | 0, _ => 0
  | _, [] => 0
  | fuel + 1, c :: rest =>
    if isJoiner c then
      match symbolLength rest with
      | 0 => 0
      | n => 1 + n + joinedLength fuel (rest.drop n)
    else 0

/-- Length of the emoji at the front, zero if there is none. -/
def emojiLength (cs : List Char) : Nat :=
  match symbolLength cs with
  | 0 => 0
  | n => n + joinedLength cs.length (cs.drop n)

/-- An emoji in a text, with the number of characters before it. -/
structure EmojiMatch where
  emoji : String
  start : Nat
  deriving DecidableEq, Repr

/-- The emoji in the characters from position `start` on, the next `skip` of which belong to an
emoji already found. -/
def emojiFrom (start skip : Nat) : List Char → List EmojiMatch
  | [] => []
  | c :: rest =>
    match skip with
    | skip + 1 => emojiFrom (start + 1) skip rest
    | 0 =>
      match emojiLength (c :: rest) with
      | 0 => emojiFrom (start + 1) 0 rest
      | n + 1 =>
        ⟨String.ofList ((c :: rest).take (n + 1)), start⟩ :: emojiFrom (start + 1) n rest

/-- The emoji of a text in order. -/
def findEmoji (text : String) : List EmojiMatch :=
  emojiFrom 0 0 text.toList

/-- The name of an emoji, `emoji` if it has none here. -/
def emojiName (emoji : String) : String :=
  (emojiNames.lookup (emoji.toList.map Char.toNat)).getD "emoji"

end JsxAudit.Label
