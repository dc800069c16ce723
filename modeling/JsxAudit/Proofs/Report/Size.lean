import JsxAudit.Report.Size
import Mathlib.Data.List.Basic
import Mathlib.Data.Rat.Floor
import Mathlib.Tactic.FieldSimp
import Mathlib.Tactic.Linarith

/-!
What the text of a size says about the size.

A size is rounded twice: to a number that 53 bits can hold, then to tenths of a unit. The first
rounding changes nothing where the significand suffices (`toSignificand_mul_two_pow`) and never more
than its last bit (`abs_toSignificand_sub_le`). The unit is the largest one that is no larger than
the size, and it is chosen before the second rounding, which can come up to the next unit.
`sizeText_rounds` says when it does, and how far from the size the text is.
-/

namespace JsxAudit.Decimal

variable {num den m n : ℕ}

/-! ### Nearest quotients -/

theorem roundDiv_mul_cancel (pos : 0 < den) (dvd : den ∣ num) : roundDiv num den * den = num := by
  rw [roundDiv, Nat.mod_eq_zero_of_dvd dvd, Nat.mul_zero, if_pos pos, Nat.div_mul_cancel dvd]

/-- The nearest whole number is half of one away at most. -/
theorem roundDiv_near (num : ℕ) (pos : 0 < den) :
    2 * num ≤ 2 * (roundDiv num den * den) + den ∧
      2 * (roundDiv num den * den) ≤ 2 * num + den := by
  have whole : num / den * den + num % den = num := Nat.div_add_mod' num den
  have rest : num % den < den := Nat.mod_lt num pos
  have next : (num / den + 1) * den = num / den * den + den := Nat.succ_mul _ _
  unfold roundDiv
  dsimp only
  split_ifs
  · omega
  · omega
  · omega
  · omega

theorem abs_roundDiv_mul_sub_le (num : ℕ) (pos : 0 < den) :
    |(roundDiv num den * den : ℚ) - num| ≤ den / 2 := by
  obtain ⟨low, high⟩ := roundDiv_near num pos
  have low : 2 * (num : ℚ) ≤ 2 * (roundDiv num den * den) + den := by exact_mod_cast low
  have high : 2 * (roundDiv num den * den : ℚ) ≤ 2 * num + den := by exact_mod_cast high
  rw [abs_le]
  constructor
  · linarith
  · linarith

/-! ### Numbers of 53 bits -/

theorem toSignificand_eq (n : ℕ) :
    toSignificand n = roundDiv n (2 ^ (n.log2 - 52)) * 2 ^ (n.log2 - 52) := by
  rw [toSignificand, significandBits, Nat.one_shiftLeft]
  rfl

/-- A number with a significand of 53 bits stays as it is. -/
theorem toSignificand_mul_two_pow (small : m < 2 ^ 53) (e : ℕ) :
    toSignificand (m * 2 ^ e) = m * 2 ^ e := by
  have fits : (m * 2 ^ e).log2 - 52 ≤ e := by
    by_cases zero : m * 2 ^ e = 0
    · simp [zero]
    · have bound : m * 2 ^ e < 2 ^ (53 + e) := by
        rw [Nat.pow_add]
        exact Nat.mul_lt_mul_of_pos_right small (Nat.two_pow_pos e)
      have := (Nat.log2_lt zero).mpr bound
      omega
  rw [toSignificand_eq]
  exact roundDiv_mul_cancel (Nat.two_pow_pos _)
    ((Nat.pow_dvd_pow 2 fits).trans (Nat.dvd_mul_left _ _))

theorem toSignificand_of_lt (small : n < 2 ^ 53) : toSignificand n = n := by
  have same := toSignificand_mul_two_pow small 0
  rwa [Nat.pow_zero, Nat.mul_one] at same

/-- A number is changed by half of the last of its 53 bits at most. -/
theorem abs_toSignificand_sub_le (n : ℕ) : |(toSignificand n : ℚ) - n| ≤ n / 2 ^ 53 := by
  by_cases small : n < 2 ^ 53
  · rw [toSignificand_of_lt small, sub_self, abs_zero]
    positivity
  · have ne : n ≠ 0 := by omega
    have wide : 53 ≤ n.log2 := (Nat.le_log2 ne).mpr (Nat.le_of_not_lt small)
    have bits : 2 ^ (n.log2 - 52) * 2 ^ 52 ≤ n := by
      rw [← Nat.pow_add, Nat.sub_add_cancel (by omega)]
      exact Nat.log2_self_le ne
    have bits : ((2 ^ (n.log2 - 52) : ℕ) : ℚ) * 2 ^ 52 ≤ n := by exact_mod_cast bits
    have near := abs_roundDiv_mul_sub_le n (Nat.two_pow_pos (n.log2 - 52))
    rw [toSignificand_eq, Nat.cast_mul]
    refine near.trans ?_
    linarith

theorem le_toSignificand (low : m ≤ 2 ^ 52) (le : m ≤ n) : m ≤ toSignificand n := by
  by_cases small : n < 2 ^ 53
  · rwa [toSignificand_of_lt small]
  · have wide : (2 ^ 53 : ℚ) ≤ n := by exact_mod_cast Nat.le_of_not_lt small
    have near := (abs_le.mp (abs_toSignificand_sub_le n)).1
    have large : (2 ^ 52 : ℚ) ≤ toSignificand n := by linarith
    exact low.trans (by exact_mod_cast large)

end JsxAudit.Decimal

namespace JsxAudit.Report

open Decimal

variable {n : ℕ}

/-! ### Units -/

/-- What a size is counted in. -/
inductive SizeUnit where
  | byte | kilobyte | megabyte | gigabyte
  deriving DecidableEq

namespace SizeUnit

/-- Number of bytes. -/
def bytes : SizeUnit → ℕ
  | byte => 1
  | kilobyte => Report.kilobyte
  | megabyte => Report.megabyte
  | gigabyte => Report.gigabyte

def name : SizeUnit → String
  | byte => "B"
  | kilobyte => "KB"
  | megabyte => "MB"
  | gigabyte => "GB"

/-- The largest unit that is no larger than a size. -/
def of (n : ℕ) : SizeUnit :=
  if n < Report.kilobyte then byte
  else if n < Report.megabyte then kilobyte
  else if n < Report.gigabyte then megabyte
  else gigabyte

theorem bytes_pos (u : SizeUnit) : 0 < u.bytes := by
  cases u <;> decide

theorem bytes_le (u : SizeUnit) : u.bytes ≤ 2 ^ 30 := by
  cases u <;> decide

theorem not_mem_name (u : SizeUnit) {c : Char} (other : c.isAlpha = false) :
    c ∉ u.name.toList := by
  intro mem
  have all : u.name.toList.all (·.isAlpha) = true := by
    cases u <;> decide
  rw [List.all_eq_true.mp all c mem] at other
  cases other

theorem name_inj {u v : SizeUnit} : u.name = v.name ↔ u = v := by
  cases u <;> cases v <;> decide

theorem bytes_of_le (pos : 0 < n) : (of n).bytes ≤ n := by
  unfold of
  split_ifs with small medium large
  · exact pos
  · exact Nat.le_of_not_lt small
  · exact Nat.le_of_not_lt medium
  · exact Nat.le_of_not_lt large

theorem lt_of_ne_gigabyte (other : of n ≠ gigabyte) : n < 1024 * (of n).bytes := by
  unfold of at other ⊢
  split_ifs at other ⊢ with small medium large
  · exact small
  · exact medium
  · exact large
  · exact absurd rfl other

theorem of_gigabyte (large : Report.gigabyte ≤ n) : of n = gigabyte := by
  have some : Report.kilobyte ≤ n := Nat.le_trans (by decide) large
  have more : Report.megabyte ≤ n := Nat.le_trans (by decide) large
  rw [of, if_neg (Nat.not_lt.mpr some), if_neg (Nat.not_lt.mpr more), if_neg (Nat.not_lt.mpr large)]

end SizeUnit

/-! ### Texts -/

theorem not_mem_toDigits (n : ℕ) {c : Char} (other : c.isDigit = false) :
    c ∉ Nat.toDigits 10 n := by
  intro mem
  rw [Nat.isDigit_of_mem_toDigits (by decide) (by decide) mem] at other
  cases other

theorem eq_of_toDigits_eq {m n : ℕ} (same : Nat.toDigits 10 m = Nat.toDigits 10 n) : m = n := by
  rw [← @Nat.ofDigitChars_ten_toDigits m, same, Nat.ofDigitChars_ten_toDigits]

/-- A number of tenths of a unit as it is written. -/
def tenthsText (tenths : ℕ) (unit : SizeUnit) : String :=
  toString (tenths / 10) ++ "." ++ toString (tenths % 10) ++ " " ++ unit.name

theorem toList_tenthsText (tenths : ℕ) (unit : SizeUnit) : (tenthsText tenths unit).toList =
    Nat.toDigits 10 (tenths / 10) ++
      '.' :: (Nat.toDigits 10 (tenths % 10) ++ ' ' :: unit.name.toList) := by
  simp [tenthsText]

/-- The text of a size can be read in one way only. -/
theorem tenthsText_inj {t t' : ℕ} {u u' : SizeUnit} :
    tenthsText t u = tenthsText t' u' ↔ t = t' ∧ u = u' := by
  constructor
  · intro same
    have same := congrArg String.toList same
    have behind : '.' ∉ Nat.toDigits 10 (t % 10) ++ ' ' :: u.name.toList := by
      rw [List.mem_append, List.mem_cons]
      rintro (digit | blank | letter)
      · exact not_mem_toDigits _ rfl digit
      · cases blank
      · exact u.not_mem_name rfl letter
    rw [toList_tenthsText, toList_tenthsText,
      List.append_cons_inj_of_notMem (not_mem_toDigits _ rfl) behind,
      List.append_cons_inj_of_notMem (not_mem_toDigits _ rfl) (u.not_mem_name rfl),
      String.toList_inj, SizeUnit.name_inj] at same
    obtain ⟨whole, -, tenth, -, unit⟩ := same
    refine ⟨?_, unit⟩
    rw [← Nat.div_add_mod t 10, ← Nat.div_add_mod t' 10, eq_of_toDigits_eq whole,
      eq_of_toDigits_eq tenth]
  · rintro ⟨rfl, rfl⟩
    rfl

/-! ### Sizes -/

/-- The unit is the same before and after the first rounding. -/
theorem of_toSignificand (n : ℕ) : SizeUnit.of (toSignificand n) = SizeUnit.of n := by
  by_cases small : n < 2 ^ 53
  · rw [toSignificand_of_lt small]
  · have large : gigabyte ≤ n := Nat.le_trans (by decide) (Nat.le_of_not_lt small)
    rw [SizeUnit.of_gigabyte large, SizeUnit.of_gigabyte (le_toSignificand (by decide) large)]

theorem unitFor_eq (large : kilobyte ≤ n) :
    unitFor n = ((SizeUnit.of n).bytes, (SizeUnit.of n).name) := by
  unfold unitFor SizeUnit.of
  rw [if_neg (Nat.not_lt.mpr large)]
  split_ifs
  · rfl
  · rfl
  · rfl

/-- The tenths of its unit that a size is shown with. -/
def tenthsOf (n : ℕ) : ℕ :=
  roundDiv (10 * toSignificand n) (SizeUnit.of n).bytes

theorem sizeText_eq (pos : 0 < n) : sizeText n = tenthsText (tenthsOf n) (SizeUnit.of n) := by
  have some : ¬ (n : ℤ) ≤ 0 := by omega
  rw [sizeText, if_neg some, Int.toNat_natCast, tenthsOf]
  by_cases small : n < kilobyte
  · have unit : SizeUnit.of n = .byte := if_pos small
    have exact : toSignificand n = n := toSignificand_of_lt (Nat.lt_trans small (by decide))
    have name : " B" = " " ++ SizeUnit.byte.name := by decide
    rw [if_pos small, exact, unit, name, ← String.append_assoc]
    rfl
  · have large := le_toSignificand (by decide) (Nat.le_of_not_lt small)
    rw [if_neg small]
    dsimp only
    rw [unitFor_eq large, of_toSignificand]
    rfl

theorem ten_le_tenthsOf (pos : 0 < n) : 10 ≤ tenthsOf n := by
  have unit := SizeUnit.bytes_pos (.of n)
  have low := (SizeUnit.bytes_le (.of n)).trans (by decide : 2 ^ 30 ≤ 2 ^ 52)
  have one := le_toSignificand low (SizeUnit.bytes_of_le pos)
  have near := (roundDiv_near (10 * toSignificand n) unit).1
  rw [← tenthsOf] at near
  have nine : 9 * (SizeUnit.of n).bytes < tenthsOf n * (SizeUnit.of n).bytes := by omega
  exact Nat.lt_of_mul_lt_mul_right nine

/-- In a unit with a larger one above it, the tenths stay below that one if and only if more than
half a tenth is missing to it. -/
theorem tenthsOf_le (other : SizeUnit.of n ≠ .gigabyte) : tenthsOf n ≤ 10240 ∧
    (tenthsOf n < 10240 ↔ 20 * n < 20479 * (SizeUnit.of n).bytes) := by
  have below := SizeUnit.lt_of_ne_gigabyte other
  have near := roundDiv_near (10 * toSignificand n) (SizeUnit.bytes_pos (.of n))
  rw [← tenthsOf] at near
  have exact : toSignificand n = n := by
    have small := SizeUnit.bytes_le (.of n)
    exact toSignificand_of_lt (by omega)
  rw [exact] at near
  -- The bound is no whole number of bytes in any of the units.
  cases unit : SizeUnit.of n with
  | gigabyte => exact absurd unit other
  | byte | kilobyte | megabyte =>
    rw [unit] at below near
    simp only [SizeUnit.bytes, kilobyte, megabyte] at below near ⊢
    omega

theorem abs_tenthsOf_sub_le (n : ℕ) :
    |(tenthsOf n / 10 : ℚ) - toSignificand n / (SizeUnit.of n).bytes| ≤ 1 / 20 := by
  have unit := SizeUnit.bytes_pos (.of n)
  have unit' : (0 : ℚ) < (SizeUnit.of n).bytes := Nat.cast_pos.mpr unit
  have near := abs_roundDiv_mul_sub_le (10 * toSignificand n) unit
  rw [← tenthsOf] at near
  have scaled : (tenthsOf n / 10 : ℚ) - toSignificand n / (SizeUnit.of n).bytes =
      (tenthsOf n * (SizeUnit.of n).bytes - (10 * toSignificand n : ℕ)) /
        (10 * (SizeUnit.of n).bytes) := by
    push_cast
    field_simp
  rw [scaled, abs_div, abs_of_pos (by positivity : (0 : ℚ) < 10 * (SizeUnit.of n).bytes),
    div_le_iff₀ (by positivity)]
  linarith

/-- The two roundings together. -/
theorem abs_tenthsOf_sub_le_of_size (n : ℕ) :
    |(tenthsOf n / 10 : ℚ) - n / (SizeUnit.of n).bytes| ≤
      1 / 20 + n / (SizeUnit.of n).bytes / 2 ^ 53 := by
  have unit : (0 : ℚ) < (SizeUnit.of n).bytes := Nat.cast_pos.mpr (SizeUnit.bytes_pos _)
  have first : |(toSignificand n / (SizeUnit.of n).bytes : ℚ) - n / (SizeUnit.of n).bytes| ≤
      n / (SizeUnit.of n).bytes / 2 ^ 53 := by
    rw [← sub_div, abs_div, abs_of_pos unit, div_right_comm]
    exact div_le_div_of_nonneg_right (abs_toSignificand_sub_le n) unit.le
  calc |(tenthsOf n / 10 : ℚ) - n / (SizeUnit.of n).bytes|
      ≤ |(tenthsOf n / 10 : ℚ) - toSignificand n / (SizeUnit.of n).bytes| +
          |(toSignificand n / (SizeUnit.of n).bytes : ℚ) - n / (SizeUnit.of n).bytes| :=
        abs_sub_le _ _ _
    _ ≤ 1 / 20 + n / (SizeUnit.of n).bytes / 2 ^ 53 := add_le_add (abs_tenthsOf_sub_le n) first

/-- A size is shown in one way, as a number of tenths of the largest unit that is no larger than the
size. The number is never less than one. In a unit with a larger one above it, it never passes 1024,
and it stays below 1024 if and only if more than half a tenth of the unit is missing to the larger
one: of a size that is nearer than that, the text is 1024.0 of the smaller unit. The number is within
half a tenth of the size if 53 bits can hold the size, as they can up to two to the 53, and otherwise
farther off by half of the last of these bits at most. -/
theorem sizeText_rounds {size : ℤ} (pos : 0 < size) :
    ∃ (tenths : ℕ) (unit : SizeUnit),
      (∀ t u, sizeText size = tenthsText t u ↔ t = tenths ∧ u = unit) ∧
      unit.bytes ≤ size ∧ (unit ≠ .gigabyte → size < 1024 * unit.bytes) ∧
      (1 : ℚ) ≤ tenths / 10 ∧
      (unit ≠ .gigabyte → (tenths / 10 : ℚ) ≤ 1024 ∧
        ((tenths / 10 : ℚ) < 1024 ↔ (size / unit.bytes : ℚ) < 1024 - 1 / 20)) ∧
      |(tenths / 10 : ℚ) - size / unit.bytes| ≤ 1 / 20 + size / unit.bytes / 2 ^ 53 ∧
      ∀ m e : ℕ, m < 2 ^ 53 → size = m * 2 ^ e →
        |(tenths / 10 : ℚ) - size / unit.bytes| ≤ 1 / 20 := by
  obtain ⟨n, rfl⟩ := Int.eq_ofNat_of_zero_le pos.le
  have some : 0 < n := Int.natCast_pos.mp pos
  refine ⟨tenthsOf n, .of n, fun t u => ?_, ?_, fun other => ?_, ?_, fun other => ?_, ?_,
    fun m e small held => ?_⟩
  · rw [sizeText_eq some, tenthsText_inj, eq_comm, @eq_comm _ (SizeUnit.of n)]
  · exact_mod_cast SizeUnit.bytes_of_le some
  · exact_mod_cast SizeUnit.lt_of_ne_gigabyte other
  · have ten : (10 : ℚ) ≤ tenthsOf n := by exact_mod_cast ten_le_tenthsOf some
    linarith
  · obtain ⟨most, iff⟩ := tenthsOf_le other
    have most : (tenthsOf n : ℚ) ≤ 10240 := by exact_mod_cast most
    have unit : (0 : ℚ) < (SizeUnit.of n).bytes := Nat.cast_pos.mpr (SizeUnit.bytes_pos _)
    have iff : (tenthsOf n : ℚ) < 10240 ↔ 20 * (n : ℚ) < 20479 * (SizeUnit.of n).bytes := by
      exact_mod_cast iff
    refine ⟨by linarith, ?_⟩
    rw [Int.cast_natCast, div_lt_iff₀ unit]
    constructor
    · intro less
      have := iff.mp (by linarith)
      linarith
    · intro missing
      have := iff.mpr (by linarith)
      linarith
  · rw [Int.cast_natCast]
    exact abs_tenthsOf_sub_le_of_size n
  · obtain rfl : n = m * 2 ^ e := by exact_mod_cast held
    have near := abs_tenthsOf_sub_le (m * 2 ^ e)
    rw [toSignificand_mul_two_pow small] at near
    rwa [Int.cast_natCast]

/-- A byte less than a megabyte is shown as 1024.0 of the smaller unit, which is within half a
tenth. -/
theorem sizeText_rounds_megabyte :
    (0 : ℤ) < 1048575 ∧ sizeText 1048575 = "1024.0 KB" ∧
      ∃ (tenths : ℕ) (unit : SizeUnit), sizeText 1048575 = tenthsText tenths unit ∧
        unit = .kilobyte ∧ ¬ (tenths / 10 : ℚ) < 1024 ∧
        |(tenths / 10 : ℚ) - (1048575 : ℤ) / unit.bytes| ≤ 1 / 20 := by
  have text : sizeText 1048575 = tenthsText 10240 .kilobyte := by
    decide +kernel
  obtain ⟨tenths, unit, shown, -, -, -, -, -, near⟩ :=
    @sizeText_rounds 1048575 (by decide)
  obtain ⟨rfl, rfl⟩ := (shown _ _).mp text
  refine ⟨by decide, by decide +kernel, 10240, .kilobyte, text, rfl, by norm_num, ?_⟩
  exact near 1048575 0 (by decide) (by decide)

/-- Past 53 bits a size may be rounded up twice. -/
example : sizeText (2 ^ 53 + 3 * 2 ^ 28 - 1) = "8388608.8 GB" := by
  decide +kernel

end JsxAudit.Report
