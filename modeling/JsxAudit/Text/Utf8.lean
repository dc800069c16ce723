/-!
The UTF-8 bytes of a text, and positions counted in bytes.

Offsets into a source file are byte offsets. `utf8` gives the bytes, `decode?` reads bytes back
and refuses what is not UTF-8, and `slice` cuts a stretch out, its ends clamped to the bytes there
are.

A file may end its lines with a line feed, a carriage return, or both. Texts are read with all of
them turned into line feeds.
-/

namespace JsxAudit.Text

/-- The UTF-8 bytes of a text. -/
def utf8 (s : String) : List UInt8 :=
  s.toList.flatMap String.utf8EncodeChar

/-- The text with the given UTF-8 bytes, if they are any text's. -/
def decode? (bytes : List UInt8) : Option String :=
  (ByteArray.mk bytes.toArray).utf8Decode?.map fun chars => String.ofList chars.toList

/-- The bytes from `start` up to `stop`. -/
def slice (bytes : List UInt8) (start stop : Nat) : List UInt8 :=
  (bytes.take stop).drop start

/-- A byte that continues a character begun by an earlier byte. -/
def isContinuation (b : UInt8) : Bool :=
  0x80 ≤ b && b < 0xC0

/-- A character ends before this offset and one begins at it, or it is the end. -/
def isBoundary (bytes : List UInt8) (offset : Nat) : Bool :=
  match bytes.drop offset with
  | [] => true
  | b :: _ => !isContinuation b

/-- The part of a character, or the characters, that fit into a text of `n` characters. -/
def takeChars (n : Nat) (s : String) : String :=
  String.ofList (s.toList.take n)

@[simp] theorem utf8_empty : utf8 "" = [] := by
  simp [utf8]

theorem utf8_append (s t : String) : utf8 (s ++ t) = utf8 s ++ utf8 t := by
  simp [utf8]

/-- The bytes of a text are those that the text itself is made of. -/
theorem utf8_eq_toByteArray (s : String) : (utf8 s).toByteArray = s.toByteArray := by
  obtain ⟨m, rfl⟩ : ∃ m, String.ofList m = s := ⟨s.toList, by simp⟩
  simp [utf8, List.utf8Encode]

/-! ### Line breaks -/

/-- Every carriage return, alone or with the line feed after it, turned into a line feed. -/
def lineFeedChars : List Char → List Char
  | [] => []
  | '\r' :: '\n' :: rest => '\n' :: lineFeedChars rest
  | '\r' :: rest => '\n' :: lineFeedChars rest
  | c :: rest => c :: lineFeedChars rest

def withLineFeeds (s : String) : String :=
  String.ofList (lineFeedChars s.toList)

theorem lineFeedChars_of_not_mem {cs : List Char} (h : '\r' ∉ cs) : lineFeedChars cs = cs := by
  fun_induction lineFeedChars cs with
  | case1 => rfl
  | case2 => simp at h
  | case3 => simp at h
  | case4 c rest _ _ ih => rw [ih (fun hc => h (List.mem_cons_of_mem _ hc))]

/-- A text without carriage returns is read as it is. -/
theorem withLineFeeds_of_not_mem {s : String} (h : '\r' ∉ s.toList) : withLineFeeds s = s := by
  simp [withLineFeeds, lineFeedChars_of_not_mem h]

end JsxAudit.Text
