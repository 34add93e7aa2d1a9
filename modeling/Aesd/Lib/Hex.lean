import Mathlib

/-!
# Hexadecimal numerals

Numerals as strings of ASCII codes, in capital or small letters, padded with zeros to a minimal
width, and the number that a numeral stands for. A numeral of any width reads back as the number it
was written for (`value_padded`).
-/

namespace Hex

/-- The digit `d`. -/
def digit (upper : Bool) (d : ℕ) : UInt8 :=
  (if upper then d.digitChar.toUpper else d.digitChar).toUInt8

/-- The numeral of `n` without zeros in front. -/
def digits (upper : Bool) (n : ℕ) : List UInt8 :=
  (Nat.toDigits 16 n).map fun ch => (if upper then ch.toUpper else ch).toUInt8

/-- The numeral of `n` with zeros in front up to `width` digits. -/
def padded (upper : Bool) (width n : ℕ) : List UInt8 :=
  List.replicate (width - (digits upper n).length) 48 ++ digits upper n

/-- The value of a digit. -/
def digitValue (b : UInt8) : Option ℕ :=
  if 48 ≤ b ∧ b ≤ 57 then some (b.toNat - 48)
  else if 65 ≤ b ∧ b ≤ 70 then some (b.toNat - 55)
  else if 97 ≤ b ∧ b ≤ 102 then some (b.toNat - 87)
  else none

/-- A number that is read on by the digit `b`. -/
def push (v : ℕ) (b : UInt8) : Option ℕ := (digitValue b).map fun d => 16 * v + d

/-- The number that a numeral stands for; `none` if it is not one. -/
def value : List UInt8 → Option ℕ
  | [] => none
  | s  => s.foldlM push 0

variable {upper : Bool} {width n d : ℕ} {b : UInt8}

/-! ### Digits -/

lemma digitValue_digit (hd : d < 16) : digitValue (digit upper d) = some d := by
  have hall : ∀ upper : Bool, ∀ d : Fin 16, digitValue (digit upper d) = some d.val := by decide
  exact hall upper ⟨d, hd⟩

lemma push_digit (v : ℕ) (hd : d < 16) : push v (digit upper d) = some (16 * v + d) := by
  rw [push, digitValue_digit hd, Option.map_some]

lemma push_zero (v : ℕ) : push v 48 = some (16 * v) := rfl

/-! ### Numerals -/

/-- The numeral of a number is that of all but its last digit, and the last digit. -/
lemma digits_eq_if (upper : Bool) (n : ℕ) : digits upper n =
    if n < 16 then [digit upper n] else digits upper (n / 16) ++ [digit upper (n % 16)] := by
  rw [digits, Nat.toDigits_eq_if (by decide)]
  by_cases hn : n < 16
  · rw [if_pos hn, if_pos hn]
    rfl
  · rw [if_neg hn, if_neg hn, List.map_append]
    rfl

lemma digits_ne_nil : digits upper n ≠ [] := by
  rw [digits_eq_if]
  split_ifs <;> simp

lemma foldlM_digits (upper : Bool) (n : ℕ) : (digits upper n).foldlM push 0 = some n := by
  induction n using Nat.strong_induction_on with
  | _ n ih =>
    rw [digits_eq_if]
    split_ifs with hn
    · simp [push_digit 0 hn]
    · rw [List.foldlM_append, ih (n / 16) (by omega)]
      simp [push_digit (n / 16) (Nat.mod_lt n (by decide)), Nat.div_add_mod]

lemma foldlM_zeros (k : ℕ) : (List.replicate k 48).foldlM push 0 = some 0 := by
  induction k with
  | zero => rfl
  | succ k ih => rwa [List.replicate_succ, List.foldlM_cons, push_zero]

lemma padded_ne_nil : padded upper width n ≠ [] := by
  rw [padded, Ne, List.append_eq_nil_iff]
  exact fun h => digits_ne_nil h.2

/-- A numeral reads back as its number. -/
lemma value_padded (upper : Bool) (width n : ℕ) : value (padded upper width n) = some n := by
  have hfold : (padded upper width n).foldlM push 0 = some n := by
    rw [padded, List.foldlM_append, foldlM_zeros]
    exact foldlM_digits upper n
  cases hs : padded upper width n with
  | nil => exact absurd hs padded_ne_nil
  | cons b s => rwa [hs] at hfold

/-- All bytes of a numeral are digits. -/
lemma isSome_of_mem_padded (hb : b ∈ padded upper width n) : (digitValue b).isSome = true := by
  have hdigits : ∀ m, ∀ b ∈ digits upper m, (digitValue b).isSome = true := by
    intro m
    induction m using Nat.strong_induction_on with
    | _ m ih =>
      intro b hb
      rw [digits_eq_if] at hb
      split_ifs at hb with hm
      · rw [List.mem_singleton.mp hb, digitValue_digit hm]
        rfl
      · rcases List.mem_append.mp hb with hb | hb
        · exact ih (m / 16) (by omega) b hb
        · rw [List.mem_singleton.mp hb, digitValue_digit (Nat.mod_lt m (by decide))]
          rfl
  rcases List.mem_append.mp hb with hb | hb
  · rw [List.eq_of_mem_replicate hb]
    rfl
  · exact hdigits n b hb

/-! ### Widths -/

lemma length_padded : (padded upper width n).length = max width (digits upper n).length := by
  rw [padded, List.length_append, List.length_replicate]
  omega

lemma width_le_length_padded : width ≤ (padded upper width n).length :=
  length_padded ▸ le_max_left _ _

/-- A number that has no more digits than asked for fills the width. -/
lemma length_padded_of_lt (hpos : 0 < width) (hn : n < 16 ^ width) :
    (padded upper width n).length = width := by
  rw [length_padded, digits, List.length_map]
  exact max_eq_left ((Nat.length_toDigits_le_iff (by decide) hpos).mpr hn)

end Hex
