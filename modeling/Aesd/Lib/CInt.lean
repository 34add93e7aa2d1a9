import Mathlib

/-!
# Fixed-width C integers

Values of C integer types are `ℕ` or `ℤ`; a conversion to a type of `w` bits is the explicit
reduction modulo `2 ^ w`, into `0 .. 2 ^ w - 1` for an unsigned type and into
`-2 ^ (w-1) .. 2 ^ (w-1) - 1` (two's complement) for a signed one. Signed arithmetic that leaves
its range is taken to wrap.
-/

namespace CInt

/-- `unsigned char`. -/
abbrev Byte := UInt8

/-- The character constant for a new line. -/
def newline : Byte := 10

/-- Conversion to `uint8_t`. -/
def toU8 (x : ℤ) : ℤ := x % 2 ^ 8

/-- Conversion to `uint32_t`. -/
def toU32 (x : ℤ) : ℤ := x % 2 ^ 32

/-- Conversion to a 64-bit unsigned type. -/
def toU64 (x : ℤ) : ℤ := x % 2 ^ 64

/-- Conversion to `int`. -/
def toI32 (x : ℤ) : ℤ := (x + 2 ^ 31) % 2 ^ 32 - 2 ^ 31

/-- Conversion to a 64-bit signed type. -/
def toI64 (x : ℤ) : ℤ := (x + 2 ^ 63) % 2 ^ 64 - 2 ^ 63

lemma toU32_nonneg (x : ℤ) : 0 ≤ toU32 x := Int.emod_nonneg _ (by decide)

lemma toU32_lt (x : ℤ) : toU32 x < 2 ^ 32 := Int.emod_lt_of_pos _ (by decide)

lemma toU32_of_range {x : ℤ} (h : 0 ≤ x) (h' : x < 2 ^ 32) : toU32 x = x :=
  Int.emod_eq_of_lt h h'

lemma toU64_nonneg (x : ℤ) : 0 ≤ toU64 x := Int.emod_nonneg _ (by decide)

lemma toU64_of_range {x : ℤ} (h : 0 ≤ x) (h' : x < 2 ^ 64) : toU64 x = x :=
  Int.emod_eq_of_lt h h'

lemma toI32_of_range {x : ℤ} (h : -2 ^ 31 ≤ x) (h' : x < 2 ^ 31) : toI32 x = x := by
  rw [toI32, Int.emod_eq_of_lt (by omega) (by omega), add_sub_cancel_right]

lemma toI32_lt (x : ℤ) : toI32 x < 2 ^ 31 := by
  rw [toI32]
  omega

lemma toI64_of_range {x : ℤ} (h : -2 ^ 63 ≤ x) (h' : x < 2 ^ 63) : toI64 x = x := by
  rw [toI64, Int.emod_eq_of_lt (by omega) (by omega), add_sub_cancel_right]

/-- Sums of 64-bit signed values may be reduced at the end. -/
lemma toI64_add (x y : ℤ) : toI64 (toI64 x + y) = toI64 (x + y) := by
  simp only [toI64]
  omega

/-- Sums in an `int` may be reduced at the end. -/
lemma toI32_add (x y : ℤ) : toI32 (toI32 x + y) = toI32 (x + y) := by
  simp only [toI32]
  omega

/-- An `int` survives being passed as an `uint32_t`. -/
lemma toI32_toU32 (x : ℤ) : toI32 (toU32 (toI32 x)) = toI32 x := by
  simp only [toI32, toU32]
  omega

/-- Truncating a 64-bit sum to 32 bits truncates the mathematical sum. -/
lemma toU32_toU64 (x : ℤ) : toU32 (toU64 x) = toU32 x := by
  rw [toU32, toU32, toU64]
  exact Int.emod_emod_of_dvd x (by decide)

end CInt
