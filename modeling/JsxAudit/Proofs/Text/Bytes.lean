import JsxAudit.Text.Utf8

/-!
Texts and their bytes.

Reading the bytes of a text gives back the text (`decode?_eq_some`). An ASCII character stands in a
text exactly if its byte stands among the bytes (`mem_utf8_iff`), so that a text can be searched for
carriage returns in either form.

A stretch of the bytes of a text is a text of its own if and only if it is empty or both of its ends
are boundaries of characters (`isText_slice_iff`). So what stands between two stretches that are
texts is a text again, and so is what stands before them and behind them.
-/

namespace JsxAudit.Text

variable {s : String} {bytes : List UInt8} {c : Char}

/-! ### Reading bytes back -/

theorem mk_toArray (bytes : List UInt8) : ByteArray.mk bytes.toArray = bytes.toByteArray :=
  ByteArray.ext List.data_toByteArray.symm

theorem toByteArray_utf8 (s : String) : (utf8 s).toByteArray = s.toList.utf8Encode := by
  simp [utf8, List.utf8Encode]

theorem decode?_utf8 (s : String) : decode? (utf8 s) = some s := by
  rw [decode?, mk_toArray, toByteArray_utf8, List.utf8Decode?_utf8Encode]
  simp

theorem utf8_injective {s s' : String} (h : utf8 s = utf8 s') : s = s' :=
  Option.some.inj ((decode?_utf8 s).symm.trans ((congrArg decode? h).trans (decode?_utf8 s')))

/-- Bytes that are read as a text are the bytes of the text, and no others are. -/
theorem decode?_eq_some : decode? bytes = some s ↔ utf8 s = bytes := by
  constructor
  · intro h
    obtain ⟨chars, decoded, -⟩ := Option.map_eq_some_iff.mp h
    obtain ⟨cs, eq⟩ := ByteArray.isSome_utf8Decode?_iff.mp (Option.isSome_of_eq_some decoded)
    rw [mk_toArray] at eq
    have same : bytes = utf8 (String.ofList cs) :=
      List.toByteArray_inj.mp (eq.trans (by simp [toByteArray_utf8]))
    rw [same, decode?_utf8] at h
    rw [same, Option.some.inj h]
  · rintro rfl
    exact decode?_utf8 s

/-! ### ASCII -/

/-- The bytes of a character that is not ASCII are not ASCII either. -/
theorem not_ascii_of_mem_utf8EncodeChar (wide : 0x80 ≤ c.toNat) {b : UInt8}
    (h : b ∈ String.utf8EncodeChar c) : 0x80 ≤ b.toNat := by
  have notSmall : ¬ c.val.toNat ≤ 0x7F := by
    have : c.toNat = c.val.toNat := rfl
    omega
  unfold String.utf8EncodeChar at h
  simp only [notSmall, if_false] at h
  split at h
  · simp only [List.mem_cons, List.not_mem_nil, or_false] at h
    rcases h with rfl | rfl <;> simp [UInt8.toNat_add] <;> omega
  · split at h
    · simp only [List.mem_cons, List.not_mem_nil, or_false] at h
      rcases h with rfl | rfl | rfl <;> simp [UInt8.toNat_add] <;> omega
    · simp only [List.mem_cons, List.not_mem_nil, or_false] at h
      rcases h with rfl | rfl | rfl | rfl <;> simp [UInt8.toNat_add] <;> omega

theorem utf8EncodeChar_of_ascii (small : c.toNat < 0x80) :
    String.utf8EncodeChar c = [UInt8.ofNat c.toNat] := by
  have single : c.val.toNat ≤ 0x7F := by
    have : c.toNat = c.val.toNat := rfl
    omega
  unfold String.utf8EncodeChar
  rw [if_pos single]
  rfl

/-- An ASCII character stands in a text exactly if its byte stands among the bytes. -/
theorem mem_utf8_iff (small : c.toNat < 0x80) : UInt8.ofNat c.toNat ∈ utf8 s ↔ c ∈ s.toList := by
  rw [utf8, List.mem_flatMap]
  constructor
  · rintro ⟨x, mem, byte⟩
    by_cases ascii : x.toNat < 0x80
    · rw [utf8EncodeChar_of_ascii ascii, List.mem_singleton] at byte
      have same := congrArg UInt8.toNat byte
      rw [UInt8.toNat_ofNat', UInt8.toNat_ofNat', Nat.mod_eq_of_lt (by omega),
        Nat.mod_eq_of_lt (by omega)] at same
      rwa [Char.toNat_inj.mp same]
    · have wide := not_ascii_of_mem_utf8EncodeChar (Nat.not_lt.mp ascii) byte
      rw [UInt8.toNat_ofNat', Nat.mod_eq_of_lt (by omega)] at wide
      omega
  · intro mem
    exact ⟨c, mem, by simp [utf8EncodeChar_of_ascii small]⟩

/-! ### Stretches of bytes -/

theorem slice_prefix (bytes : List UInt8) (start stop : Nat) :
    slice bytes start stop <+: bytes.drop start := by
  rw [slice, List.drop_take]
  exact List.take_prefix _ _

theorem length_slice_le (bytes : List UInt8) (start stop : Nat) :
    (slice bytes start stop).length ≤ stop - start := by
  rw [slice, List.drop_take]
  exact List.length_take_le _ _

/-- Bytes that come from an offset on are the stretch of their length there. -/
theorem slice_of_prefix {part : List UInt8} {start : Nat} (h : part <+: bytes.drop start) :
    slice bytes start (start + part.length) = part := by
  rw [slice, List.drop_take, Nat.add_sub_cancel_left]
  exact (List.prefix_iff_eq_take.mp h).symm

theorem take_append_slice (bytes : List UInt8) {start stop : Nat} (le : start ≤ stop) :
    bytes.take start ++ slice bytes start stop = bytes.take stop := by
  have whole := List.take_append_drop start (bytes.take stop)
  rwa [List.take_take, Nat.min_eq_left le] at whole

/-- The bytes of a text that is put together of parts. -/
theorem utf8_eq_append {front part : String} {back : List Char}
    (h : s.toList = front.toList ++ part.toList ++ back) :
    utf8 s = utf8 front ++ utf8 part ++ utf8 (String.ofList back) := by
  simp [utf8, h]

theorem not_mem_toList_append {t : String} (first : c ∉ s.toList) (second : c ∉ t.toList) :
    c ∉ (s ++ t).toList := by
  rw [String.toList_append, List.mem_append, not_or]
  exact ⟨first, second⟩

/-- A character that is in no part and not in what is put between them is not in the whole. -/
theorem not_mem_intercalate {sep : String} {parts : List String} (between : c ∉ sep.toList)
    (each : ∀ part ∈ parts, c ∉ part.toList) : c ∉ (sep.intercalate parts).toList := by
  induction parts with
  | nil => simp
  | cons part rest ih =>
    obtain ⟨first, others⟩ := List.forall_mem_cons.mp each
    cases rest with
    | nil => simpa using first
    | cons next more =>
      rw [String.intercalate_cons_cons]
      exact not_mem_toList_append (not_mem_toList_append first between) (ih others)

/-! ### Bytes of texts -/

section

variable {bytes' : List UInt8} {start stop : Nat}

/-- The bytes are those of a text. -/
def IsText (bytes : List UInt8) : Prop :=
  ∃ t, utf8 t = bytes

theorem isText_utf8 (s : String) : IsText (utf8 s) :=
  ⟨s, rfl⟩

theorem IsText.append (h : IsText bytes) (h' : IsText bytes') : IsText (bytes ++ bytes') := by
  obtain ⟨t, rfl⟩ := h
  obtain ⟨t', rfl⟩ := h'
  exact ⟨t ++ t', utf8_append t t'⟩

theorem isText_flatMap {α : Type} {xs : List α} {part : α → List UInt8}
    (h : ∀ x ∈ xs, IsText (part x)) : IsText (xs.flatMap part) := by
  induction xs with
  | nil => exact ⟨"", utf8_empty⟩
  | cons x xs ih =>
    exact (h x List.mem_cons_self).append (ih fun y mem => h y (List.mem_cons_of_mem _ mem))

/-- Bytes are those of a text if they encode some characters. -/
theorem isText_iff : IsText bytes ↔ bytes.toByteArray.IsValidUTF8 := by
  constructor
  · rintro ⟨t, rfl⟩
    rw [toByteArray_utf8]
    exact ByteArray.isValidUTF8_utf8Encode
  · rintro ⟨cs, eq⟩
    refine ⟨String.ofList cs, List.toByteArray_inj.mp ?_⟩
    rw [toByteArray_utf8, String.toList_ofList, eq]

/-! ### Cuts -/

/-- A character of the text begins at the byte offset, or it is the end. -/
def IsCut (s : String) (offset : Nat) : Prop :=
  String.Pos.Raw.IsValid s ⟨offset⟩

instance (s : String) (offset : Nat) : Decidable (IsCut s offset) :=
  inferInstanceAs (Decidable (String.Pos.Raw.IsValid s ⟨offset⟩))

theorem length_utf8 (s : String) : (utf8 s).length = s.rawEndPos.byteIdx := by
  rw [String.byteIdx_rawEndPos, ← String.size_toByteArray, ← utf8_eq_toByteArray,
    List.size_toByteArray]

theorem IsCut.le_length {offset : Nat} (h : IsCut s offset) : offset ≤ (utf8 s).length := by
  rw [length_utf8]
  exact h.le_rawEndPos

theorem isCut_zero (s : String) : IsCut s 0 :=
  String.Pos.Raw.isValid_zero

theorem isCut_length (s : String) : IsCut s (utf8 s).length := by
  rw [length_utf8]
  exact String.Pos.Raw.isValid_rawEndPos

theorem toByteArray_slice (bytes : List UInt8) (start stop : Nat) :
    (slice bytes start stop).toByteArray = bytes.toByteArray.extract start stop := by
  refine ByteArray.ext (Array.toList_inj.mp ?_)
  rw [List.data_toByteArray, ByteArray.data_extract, List.data_toByteArray, Array.toList_extract]
  simp [slice, List.extract, List.drop_take]

/-- A stretch of a text is a text if it is empty or ends on both sides where the text can be cut. -/
theorem isText_slice_iff (le : start ≤ stop) (inside : stop ≤ (utf8 s).length) :
    IsText (slice (utf8 s) start stop) ↔ start = stop ∨ IsCut s start ∧ IsCut s stop := by
  rw [length_utf8] at inside
  have cut := String.Pos.Raw.isValidUTF8_extract_iff (s := s) ⟨start⟩ ⟨stop⟩ le inside
  rw [isText_iff, toByteArray_slice, utf8_eq_toByteArray, cut, String.Pos.Raw.mk.injEq]
  rfl

theorem length_utf8_pos {t : String} (filled : t ≠ "") : 0 < (utf8 t).length := by
  refine List.length_pos_iff.mpr fun empty => filled (utf8_injective ?_)
  rw [empty, utf8_empty]

theorem lt_of_utf8_eq_slice {t : String} (filled : t ≠ "") (h : utf8 t = slice bytes start stop) :
    start < stop := by
  have some := length_utf8_pos filled
  have length := length_slice_le bytes start stop
  rw [← h] at length
  omega

/-- The text around a text that is not empty can be cut on both sides of it. -/
theorem isCut_of_utf8_eq_slice {t : String} (filled : t ≠ "") (inside : stop ≤ (utf8 s).length)
    (h : utf8 t = slice (utf8 s) start stop) : IsCut s start ∧ IsCut s stop := by
  have some := lt_of_utf8_eq_slice filled h
  rcases (isText_slice_iff (Nat.le_of_lt some) inside).mp ⟨t, h⟩ with same | cut
  · exact absurd same (Nat.ne_of_lt some)
  · exact cut

/-- Where the bytes of a text that is not empty stand in another text, its characters do. -/
theorem exists_append_of_slice {t : String} (filled : t ≠ "")
    (h : slice (utf8 s) start (start + (utf8 t).length) = utf8 t) :
    ∃ front back, s = front ++ t ++ back ∧ (utf8 front).length = start := by
  have some := lt_of_utf8_eq_slice filled h.symm
  have length := congrArg List.length h
  rw [slice, List.length_drop, List.length_take] at length
  have inside : start + (utf8 t).length ≤ (utf8 s).length := by omega
  obtain ⟨left, right⟩ := isCut_of_utf8_eq_slice filled inside h.symm
  obtain ⟨front, before⟩ :=
    (isText_slice_iff (Nat.zero_le _) (by omega)).mpr (.inr ⟨isCut_zero s, left⟩)
  obtain ⟨back, behind⟩ :=
    (isText_slice_iff inside (Nat.le_refl _)).mpr (.inr ⟨right, isCut_length s⟩)
  rw [slice, List.drop_zero] at before
  rw [slice, List.take_length] at behind
  have joined := take_append_slice (utf8 s) (Nat.le_of_lt some)
  rw [h] at joined
  refine ⟨front, back, utf8_injective ?_, ?_⟩
  · rw [utf8_append, utf8_append, before, behind, joined, List.take_append_drop]
  · rw [before, List.length_take_of_le (by omega)]

end

/-! ### Carriage returns -/

/-- The text holds no carriage returns. -/
def NoReturns (s : String) : Prop :=
  '\r' ∉ s.toList

instance (s : String) : Decidable (NoReturns s) :=
  inferInstanceAs (Decidable ('\r' ∉ s.toList))

theorem noReturns_iff : NoReturns s ↔ (13 : UInt8) ∉ utf8 s :=
  not_congr (mem_utf8_iff (by decide)).symm

theorem not_mem_lineFeedChars (cs : List Char) : '\r' ∉ lineFeedChars cs := by
  fun_induction lineFeedChars cs with
  | case1 => exact List.not_mem_nil
  | case2 rest ih => simp [ih]
  | case3 rest _ ih => simp [ih]
  | case4 c rest _ other ih =>
    rw [List.mem_cons, not_or]
    exact ⟨fun eq => other eq.symm, ih⟩

/-- A text as it is read holds no carriage returns. -/
theorem noReturns_withLineFeeds (s : String) : NoReturns (withLineFeeds s) := by
  rw [NoReturns, withLineFeeds, String.toList_ofList]
  exact not_mem_lineFeedChars s.toList

/-- In a text as it is read, all bytes but the carriage returns are still there, in their order. -/
theorem sublist_withLineFeeds (s : String) :
    ((utf8 s).filter (· ≠ 13)).Sublist (utf8 (withLineFeeds s)) := by
  have chars (cs : List Char) : ((cs.flatMap String.utf8EncodeChar).filter (· ≠ 13)).Sublist
      ((lineFeedChars cs).flatMap String.utf8EncodeChar) := by
    have returned : String.utf8EncodeChar '\r' = [13] := by decide
    have fed : String.utf8EncodeChar '\n' = [10] := by decide
    fun_induction lineFeedChars cs with
    | case1 => exact .refl _
    | case2 rest ih => simpa [returned, fed] using ih
    | case3 rest _ ih => simpa [returned, fed] using ih.trans (List.sublist_cons_self 10 _)
    | case4 c rest _ _ ih =>
      rw [List.flatMap_cons, List.flatMap_cons, List.filter_append]
      exact List.filter_sublist.append ih
  rw [utf8, utf8, withLineFeeds, String.toList_ofList]
  exact chars s.toList

end JsxAudit.Text
