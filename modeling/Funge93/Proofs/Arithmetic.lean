import Funge93.Instruction
import Mathlib.Algebra.Order.Ring.Int
import Mathlib.Tactic.Common

/-!
# Arithmetic is exact arithmetic, cut down once

A word operation is the operation on integers with its result reduced to a word
at the very end. For sums, differences and products that is how the operations
are made. For quotients and remainders it has to be shown: the operations of the
machine round towards zero, and the correction of `floorDiv` and `floorMod` must
be in force for exactly those operands whose floor lies elsewhere.

The two integer lemmas say when it is. Carried over to words they leave one case
that does not fit into a word, the least one divided by minus one, and there the
reduction gives the same on both sides.
-/

namespace Funge93

namespace BinaryOp

/-- The result in the integers, for the value `a` on top and `b` below it. -/
def exact : BinaryOp → (b a : Int) → Int
  | add, b, a => b + a
  | sub, b, a => b - a
  | mul, b, a => b * a
  | div, b, a => if a = 0 then 0 else b.fdiv a
  | mod, b, a => if a = 0 then 0 else b.fmod a
  | greater, b, a => if a < b then 1 else 0

end BinaryOp

namespace Word

/-! ## The floor and the quotient that rounds towards zero -/

theorem fdiv_eq_tdiv_corrected {b a : Int} (ha : a ≠ 0) :
    b.fdiv a =
      if b.tmod a ≠ 0 ∧ ¬(b < 0 ↔ a < 0) then b.tdiv a - 1 else b.tdiv a := by
  have hdvd : a ∣ b ↔ b.tmod a = 0 := Int.dvd_iff_tmod_eq_zero
  rw [Int.fdiv_eq_tdiv]
  rcases lt_or_gt_of_ne ha with hneg | hpos
  · have hsign : a.sign = -1 := Int.sign_eq_neg_one_of_neg hneg
    grind
  · have hsign : a.sign = 1 := Int.sign_eq_one_of_pos hpos
    grind

theorem tmod_nonpos {b : Int} (a : Int) (hb : b ≤ 0) : b.tmod a ≤ 0 := by
  have h := Int.tmod_nonneg a (show 0 ≤ -b by omega)
  rw [Int.neg_tmod] at h
  omega

theorem fmod_eq_tmod_corrected {b a : Int} :
    b.fmod a =
      if b.tmod a ≠ 0 ∧ ¬(b.tmod a < 0 ↔ a < 0) then b.tmod a + a
      else b.tmod a := by
  have hdvd : a ∣ b ↔ b.tmod a = 0 := Int.dvd_iff_tmod_eq_zero
  rw [Int.fmod_eq_tmod]
  rcases lt_or_ge b 0 with hneg | hpos
  · have hr := tmod_nonpos a hneg.le
    grind
  · have hr := Int.tmod_nonneg a hpos
    grind

/-! ## Words -/

theorem toInt_eq_zero_iff {a : Word} : a.toInt = 0 ↔ a = 0 := by
  rw [← Int64.toInt_inj, Int64.toInt_zero]

theorem neg_iff_toInt_neg {a : Word} : a < 0 ↔ a.toInt < 0 := by
  rw [Int64.lt_iff_toInt_lt, Int64.toInt_zero]

theorem ofInt_tdiv_toInt (b a : Word) :
    Int64.ofInt (b.toInt.tdiv a.toInt) = b / a := by
  rw [Int64.ofInt_tdiv b.minValue_le_toInt b.toInt_le a.minValue_le_toInt
    a.toInt_le, Int64.ofInt_toInt, Int64.ofInt_toInt]

theorem ofInt_tmod_toInt (b a : Word) :
    Int64.ofInt (b.toInt.tmod a.toInt) = b % a := by
  rw [← Int64.toInt_mod, Int64.ofInt_toInt]

/-- The condition under which the machine's rounding is corrected, in the
integers: a rest that is not zero, and different signs. -/
theorem corrected_iff {r w a : Word} :
    (r != 0 && opposed w a) = true ↔
      r.toInt ≠ 0 ∧ ¬(w.toInt < 0 ↔ a.toInt < 0) := by
  simp only [opposed, Bool.and_eq_true, bne_iff_ne, ne_eq, decide_eq_decide,
    neg_iff_toInt_neg, toInt_eq_zero_iff]

theorem floorDiv_eq {b a : Word} (ha : a ≠ 0) :
    floorDiv b a = Int64.ofInt (b.toInt.fdiv a.toInt) := by
  rw [fdiv_eq_tdiv_corrected (mt toInt_eq_zero_iff.mp ha), floorDiv]
  simp only [corrected_iff, Int64.toInt_mod]
  split
  · rw [Int64.ofInt_sub, ofInt_tdiv_toInt]
    rfl
  · rw [ofInt_tdiv_toInt]

theorem floorMod_eq {b a : Word} :
    floorMod b a = Int64.ofInt (b.toInt.fmod a.toInt) := by
  rw [fmod_eq_tmod_corrected, floorMod]
  simp only [corrected_iff, Int64.toInt_mod]
  split
  · rw [Int64.ofInt_add, ofInt_tmod_toInt, Int64.ofInt_toInt]
  · rw [ofInt_tmod_toInt]

end Word

/-- A word operation is the exact one with its result reduced to a word. -/
theorem BinaryOp.apply_eq_ofInt_exact (op : BinaryOp) (b a : Word) :
    op.apply b a = Int64.ofInt (op.exact b.toInt a.toInt) := by
  cases op with
  | add => simp only [apply, exact, Int64.ofInt_add, Int64.ofInt_toInt]
  | sub => simp only [apply, exact, Int64.ofInt_sub, Int64.ofInt_toInt]
  | mul => simp only [apply, exact, Int64.ofInt_mul, Int64.ofInt_toInt]
  | div =>
      simp only [apply, exact, Word.toInt_eq_zero_iff]
      split
      · rfl
      · next ha => exact Word.floorDiv_eq ha
  | mod =>
      simp only [apply, exact, Word.toInt_eq_zero_iff]
      split
      · rfl
      · exact Word.floorMod_eq
  | greater =>
      simp only [apply, exact, Word.truth, decide_eq_true_eq,
        Int64.lt_iff_toInt_lt]
      split <;> rfl

end Funge93
