/-!
# Words

The stack holds words: signed integers of 64 bits. Sums, differences and
products keep the low 64 bits of the exact result. Quotients are rounded towards
the floor, so a remainder has the sign of its divisor. A word also stands for a
character, in two ways: as a code when it is printed, and as a byte when it is
stored into program space.
-/

namespace Funge93

/-- A stack value: a signed integer of 64 bits. -/
abbrev Word := Int64

namespace Word

def ofChar (c : Char) : Word :=
  Int64.ofInt c.toNat

def truth (b : Bool) : Word :=
  if b then 1 else 0

/-- Whether a dividend and a divisor lie on different sides of zero. -/
def opposed (b a : Word) : Bool :=
  decide (b < 0) != decide (a < 0)

/-- The quotient `b / a` rounded towards the floor. The machine's own division
rounds towards zero, which is one too high when the division leaves a rest and
the signs differ. -/
def floorDiv (b a : Word) : Word :=
  if b % a != 0 && opposed b a then b / a - 1 else b / a

/-- The remainder that belongs to `floorDiv`; it has the sign of `a`. -/
def floorMod (b a : Word) : Word :=
  if b % a != 0 && opposed (b % a) a then b % a + a else b % a

/-- The character that a code stands for, and the replacement character if it is
no Unicode scalar value. -/
def toChar (w : Word) : Char :=
  if 0 ≤ w.toInt ∧ w.toInt.toNat.isValidChar then Char.ofNat w.toInt.toNat else '\ufffd'

/-- The character whose code is the residue of a word modulo 256. -/
def toByteChar (w : Word) : Char :=
  Char.ofNat (w.toInt % 256).toNat

theorem toNat_toByteChar (w : Word) : (w.toByteChar.toNat : Int) = w.toInt % 256 := by
  have hvalid : (w.toInt % 256).toNat.isValidChar := by
    left
    omega
  have hcode : w.toByteChar.toNat = (w.toInt % 256).toNat := by
    rw [toByteChar, Char.ofNat, dif_pos hvalid]
    rfl
  omega

end Word

end Funge93
