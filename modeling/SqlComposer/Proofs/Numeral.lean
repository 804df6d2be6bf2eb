import Mathlib.Algebra.Group.Nat.Defs
import SqlComposer.Clause.Window

/-! Numbers that are too long to be written. A number is written if it has at most 4300 digits; the product
of two such numbers may have more, and then no window can be written that it stands in. -/

namespace SqlComposer

namespace Text.Numeral
variable {n k : Nat}

theorem isWritable_iff : isWritable n ↔ n < 10 ^ longest := by
  rw [isWritable, decide_eq_true_iff]
  exact Nat.length_toDigits_le_iff (by decide) (by decide)

theorem isWritable_eq_false_iff : isWritable n = false ↔ 10 ^ longest ≤ n := by
  rw [Bool.eq_false_iff, ne_eq, isWritable_iff, Nat.not_lt]

theorem isWritable_square (h : longest ≤ k + k) : isWritable (10 ^ k * 10 ^ k) = false := by
  rw [isWritable_eq_false_iff, ← Nat.pow_add]
  exact Nat.pow_le_pow_right (by decide) h

theorem ten_pow_pos (k : Nat) : 0 < 10 ^ k := Nat.pow_pos (by decide)

/-- A number that can be written while its square cannot. -/
def wide : Nat := 10 ^ 3000

theorem wide_pos : 0 < wide := by
  rw [wide]
  exact ten_pow_pos 3000

theorem isWritable_wide_mul_wide : isWritable (wide * wide) = false := by
  rw [wide]
  exact isWritable_square (k := 3000) (by decide)

end Text.Numeral

namespace Window
variable {w : Window}

def IsLong (w : Window) : Prop :=
  (∃ n, w.limit = some n ∧ 4300 < (Nat.toDigits 10 n).length) ∨
    4300 < (Nat.toDigits 10 w.offset).length

theorem isWritable_eq_false_iff : w.isWritable = false ↔ w.IsLong := by
  have hlong (n : Nat) :
      Text.Numeral.isWritable n = false ↔ 4300 < (Nat.toDigits 10 n).length := by
    rw [Text.Numeral.isWritable, decide_eq_false_iff_not, Nat.not_le, Text.Numeral.longest]
  obtain ⟨limit, offset⟩ := w
  cases limit with
  | none => simp [isWritable, IsLong, hlong]
  | some n =>
    simp only [isWritable, IsLong, Option.all_some, Bool.and_eq_false_iff, hlong, Option.some.injEq,
      exists_eq_left']

theorem not_isLong_iff : ¬ w.IsLong ↔ w.isWritable := by
  rw [← isWritable_eq_false_iff, Bool.not_eq_false]

end Window
end SqlComposer
