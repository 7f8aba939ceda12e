import Funge93.Proofs.Arithmetic
import Funge93.Proofs.Attempt
import Mathlib.Data.Rat.Floor

/-!
# Division is floored and nothing overflows

That a quotient and a remainder are the exact ones reduced to words leaves two questions
open: when the reduction changes anything, and whether it is needed on the way.

The exact quotient is not larger than the dividend, sign aside, so it is a word but for one
pair of operands, the least word and minus one. The exact remainder is smaller than the
divisor, so it always is a word. And the one sum on the way that has not been told to wrap
around, the correction of a remainder, adds words of different signs, so it never leaves
the words either: if that sum were partial, the remainder would still be total
(`plainFloorMod?_eq`).
-/

namespace Funge93

/-! ## The floor -/

theorem floor_div_eq_fdiv (b a : Int) : ⌊(b : ℚ) / a⌋ = b.fdiv a := by
  have hnonneg : ∀ (b : Int) (n : Nat), ⌊(b : ℚ) / (n : Int)⌋ = b.fdiv n := by
    intro b n
    rw [Int.fdiv_eq_ediv_of_nonneg b (Int.natCast_nonneg n), Int.cast_natCast]
    exact Rat.floor_intCast_div_natCast b n
  obtain ⟨n, rfl | rfl⟩ := a.eq_nat_or_neg
  · exact hnonneg b n
  · rw [← Int.neg_fdiv_neg, neg_neg, ← hnonneg, Int.cast_neg, Int.cast_neg, neg_div,
      div_neg]

/-- A floored remainder is smaller than its divisor, and on the same side of zero. -/
theorem fmod_bounds (b : Int) {a : Int} (ha : a ≠ 0) :
    0 < a ∧ 0 ≤ b.fmod a ∧ b.fmod a < a ∨ a < 0 ∧ a < b.fmod a ∧ b.fmod a ≤ 0 := by
  rcases lt_or_gt_of_ne ha with hneg | hpos
  · have hflip := Int.neg_fmod_neg b a
    have hlow := Int.fmod_nonneg_of_pos (-b) (show 0 < -a by omega)
    have hhigh := Int.fmod_lt_of_pos (-b) (show 0 < -a by omega)
    right
    omega
  · exact .inl ⟨hpos, Int.fmod_nonneg_of_pos b hpos, Int.fmod_lt_of_pos b hpos⟩

/-- The quotient of two words leaves the words for one pair of operands. -/
theorem fdiv_le_iff {b a : Int} (hb : -2 ^ 63 ≤ b) (hb' : b < 2 ^ 63) (ha : a ≠ 0) :
    -2 ^ 63 ≤ b.fdiv a ∧ (2 ^ 63 ≤ b.fdiv a ↔ b = -2 ^ 63 ∧ a = -1) := by
  have hsize := Int.natAbs_fdiv_le_natAbs b a
  have hwhole := Int.mul_fdiv_add_fmod b a
  have hrest := fmod_bounds b ha
  refine ⟨by omega, fun hlarge => ?_, ?_⟩
  · have hquotient : b.fdiv a = 2 ^ 63 := by omega
    rw [hquotient] at hwhole
    omega
  · rintro ⟨rfl, rfl⟩
    decide

namespace Word

variable {b a : Word}

/-! ## Quotient and remainder -/

theorem toInt_floorMod (ha : a ≠ 0) : (floorMod b a).toInt = b.toInt.fmod a.toInt := by
  have hrest := fmod_bounds b.toInt (mt toInt_eq_zero_iff.mp ha)
  have hlow := a.le_toInt
  have hhigh := a.toInt_lt
  rw [floorMod_eq]
  exact Int64.toInt_ofInt_of_le (by omega) (by omega)

theorem sign_floorMod (ha : a ≠ 0) :
    (floorMod b a = 0 ∨ ((floorMod b a).toInt < 0 ↔ a.toInt < 0)) ∧
      |(floorMod b a).toInt| < |a.toInt| := by
  have hrest := fmod_bounds b.toInt (mt toInt_eq_zero_iff.mp ha)
  rw [← toInt_eq_zero_iff, toInt_floorMod ha, abs_lt]
  rcases hrest with ⟨hpos, hlow, hhigh⟩ | ⟨hneg, hlow, hhigh⟩
  · rw [abs_of_pos hpos]
    omega
  · rw [abs_of_neg hneg]
    omega

/-- The quotient is the floor, unless the floor is the number behind the greatest word. -/
theorem toInt_floorDiv_ne_iff (ha : a ≠ 0) :
    (floorDiv b a).toInt ≠ b.toInt.fdiv a.toInt ↔ b.toInt = -2 ^ 63 ∧ a.toInt = -1 := by
  have hrange :=
    fdiv_le_iff b.le_toInt b.toInt_lt (mt toInt_eq_zero_iff.mp ha)
  rw [← hrange.2, floorDiv_eq ha]
  constructor
  · intro hwraps
    by_contra hsmall
    exact hwraps (Int64.toInt_ofInt_of_le hrange.1 (by omega))
  · intro hlarge heq
    have hword := (Int64.ofInt (b.toInt.fdiv a.toInt)).toInt_lt
    omega

theorem floorDiv_of_wraps (hb : b.toInt = -2 ^ 63) (ha : a.toInt = -1) :
    (floorDiv b a).toInt = -2 ^ 63 := by
  have hne : a ≠ 0 := by
    rintro rfl
    cases ha
  rw [floorDiv_eq hne, hb, ha]
  decide

theorem floorDiv_mul_add_floorMod (ha : a ≠ 0) : floorDiv b a * a + floorMod b a = b := by
  rw [floorDiv_eq ha, floorMod_eq, ← Int64.ofInt_toInt a, ← Int64.ofInt_mul, ← Int64.ofInt_add,
    Int64.ofInt_toInt, Int.fdiv_mul_add_fmod, Int64.ofInt_toInt]

/-! ## Sums that must not wrap around -/

/-- The sum of two words, if it is a word. -/
def plainSum? (x y : Word) : Option Word :=
  Input.word? (x.toInt + y.toInt)

/-- The floored remainder, found as `floorMod` finds it but with a sum that must not wrap
around. -/
def plainFloorMod? (b a : Word) : Option Word :=
  if b % a != 0 && opposed (b % a) a then plainSum? (b % a) a else some (b % a)

theorem plainSum?_of_opposed {x y : Word} (h : opposed x y = true) :
    plainSum? x y = some (x + y) := by
  have hsign : ¬(x.toInt < 0 ↔ y.toInt < 0) := by
    rwa [opposed, bne_iff_ne, ne_eq, decide_eq_decide, neg_iff_toInt_neg, neg_iff_toInt_neg]
      at h
  have hx := x.le_toInt
  have hx' := x.toInt_lt
  have hy := y.le_toInt
  have hy' := y.toInt_lt
  rw [plainSum?, Input.word?, Int64.toInt_minValue, Int64.toInt_maxValue, if_pos (by omega),
    Int64.ofInt_add, Int64.ofInt_toInt, Int64.ofInt_toInt]

theorem plainFloorMod?_eq (b a : Word) : plainFloorMod? b a = some (floorMod b a) := by
  rw [plainFloorMod?, floorMod]
  split
  · next hcorrected => exact plainSum?_of_opposed (Bool.and_eq_true_iff.mp hcorrected).2
  · rfl

end Word

namespace Machine

variable {m : Machine}

/-- Whether the next attempt puts a value in place of the two on top of the stack. -/
def Combines (m : Machine) (source : Random.Source) (w : Word) : Prop :=
  m.step source =
    ⟨.did (.pushed w), { m with stack := m.stack.drop.drop.push w }.finish, source⟩

theorem combines_of_binary (h : m.Executes) (source : Random.Source) {op : BinaryOp}
    (hcell : Instruction.ofChar m.cell = .binary op) :
    m.Combines source (op.apply m.stack.drop.peek m.stack.peek) := by
  rw [Combines, step_of_executes h, hcell]
  rfl

/-- A division by zero gives zero, and so does its remainder. Otherwise the quotient is the
floor, reduced to a word, which it is but for one pair of operands, and the remainder is the
exact rest: it has the sign of the divisor or none, and is smaller. The two belong together,
and no sum on the way leaves the words. -/
theorem division_is_floored (h : m.Executes) (source : Random.Source) :
    let a := m.stack.peek
    let b := m.stack.drop.peek
    let q := BinaryOp.div.apply b a
    let r := BinaryOp.mod.apply b a
    let floor := ⌊(b.toInt : ℚ) / a.toInt⌋
    (m.cell = '/' → m.Combines source q) ∧ (m.cell = '%' → m.Combines source r) ∧
      (a = 0 → q = 0 ∧ r = 0) ∧
      (a ≠ 0 →
        (q = Int64.ofInt floor ∧ (q.toInt ≠ floor ↔ b.toInt = -2 ^ 63 ∧ a.toInt = -1) ∧
          (q.toInt ≠ floor → q.toInt = -2 ^ 63)) ∧
        (r.toInt = b.toInt - a.toInt * floor ∧ (r = 0 ∨ (r.toInt < 0 ↔ a.toInt < 0)) ∧
          |r.toInt| < |a.toInt|) ∧
        q * a + r = b ∧ Word.plainFloorMod? b a = some r) := by
  intro a b q r floor
  have hfloor : floor = b.toInt.fdiv a.toInt := floor_div_eq_fdiv _ _
  refine ⟨fun hcell => combines_of_binary h source ?_,
    fun hcell => combines_of_binary h source ?_, fun ha => ?_, fun ha => ?_⟩
  · rw [hcell]
    rfl
  · rw [hcell]
    rfl
  · exact ⟨if_pos ha, if_pos ha⟩
  · have hq : q = Word.floorDiv b a := if_neg ha
    have hr : r = Word.floorMod b a := if_neg ha
    rw [hq, hr, hfloor, Word.toInt_floorDiv_ne_iff ha]
    refine ⟨⟨Word.floorDiv_eq ha, Iff.rfl, fun hwraps => ?_⟩, ⟨?_, Word.sign_floorMod ha⟩,
      Word.floorDiv_mul_add_floorMod ha, Word.plainFloorMod?_eq b a⟩
    · exact Word.floorDiv_of_wraps hwraps.1 hwraps.2
    · rw [Word.toInt_floorMod ha, Int.fmod_def]

/-- The least word divided by minus one, and the rest of seven when divided by minus two. -/
theorem division_is_floored_least :
    let m := Machine.start (Grid.ofLines [['/', '%']])
    let m₁ : Machine := { m with stack := ⟨[-1, Int64.minValue]⟩ }
    let m₂ : Machine := { m with stack := ⟨[-2, 7]⟩, place := ⟨1, 0⟩ }
    m₁.Executes ∧ m₁.Combines (.seeded 0) Int64.minValue ∧
      m₂.Executes ∧ m₂.Combines (.seeded 0) (-1) := by
  intro m m₁ m₂
  have h₁ : m₁.Executes := ⟨rfl, rfl, rfl⟩
  have h₂ : m₂.Executes := ⟨rfl, rfl, rfl⟩
  obtain ⟨hdiv, -, -, -⟩ := division_is_floored h₁ (.seeded 0)
  obtain ⟨-, hmod, -, -⟩ := division_is_floored h₂ (.seeded 0)
  have hq : BinaryOp.div.apply m₁.stack.drop.peek m₁.stack.peek = Int64.minValue := by decide
  have hr : BinaryOp.mod.apply m₂.stack.drop.peek m₂.stack.peek = -1 := by decide
  exact ⟨h₁, hq ▸ hdiv (by decide), h₂, hr ▸ hmod (by decide)⟩

end Machine

end Funge93
