import Funge93.Heading
import Funge93.Input

/-!
# Instructions

Each character of program space is an instruction. A character that has no
meaning of its own does nothing, so text and programs mix freely.
-/

namespace Funge93

/-- An operation that takes two values and gives one back. -/
inductive BinaryOp where
  | add
  | sub
  | mul
  | div
  | mod
  | greater
deriving DecidableEq

namespace BinaryOp

/-- The result for the value `a` on top and the value `b` below it. Division by
zero gives zero, and so does its remainder. -/
def apply : BinaryOp → (b a : Word) → Word
  | add, b, a => b + a
  | sub, b, a => b - a
  | mul, b, a => b * a
  | div, b, a => if a = 0 then 0 else Word.floorDiv b a
  | mod, b, a => if a = 0 then 0 else Word.floorMod b a
  | greater, b, a => Word.truth (a < b)

end BinaryOp

/-- What a character means when the instruction pointer stands on it outside a
string. -/
inductive Instruction where
  | go (heading : Heading)
  | goRandom
  /-- Take a value; face east if it is zero and west otherwise. -/
  | branchHorizontal
  /-- Take a value; face south if it is zero and north otherwise. -/
  | branchVertical
  | quote
  | digit (value : Fin 10)
  | binary (op : BinaryOp)
  /-- Take a value; push whether it is zero. -/
  | not
  | duplicate
  | swap
  | drop
  | printInteger
  /-- Take a value and print the character whose code it is. -/
  | printCharacter
  /-- Ask for input and push it. -/
  | ask (input : Input)
  /-- Take a column and a row; push the code of the character there. -/
  | get
  /-- Take a column, a row and a value; store the value there. -/
  | put
  | bridge
  | halt
  | nop
deriving DecidableEq

namespace Instruction

def ofDigit? (c : Char) : Option Instruction :=
  if h : 48 ≤ c.toNat ∧ c.toNat ≤ 57 then some (digit ⟨c.toNat - 48, by omega⟩) else none

def ofChar (c : Char) : Instruction :=
  match c with
  | '>' => go .east
  | '<' => go .west
  | '^' => go .north
  | 'v' => go .south
  | '?' => goRandom
  | '_' => branchHorizontal
  | '|' => branchVertical
  | '\x22' => quote
  | '+' => binary .add
  | '-' => binary .sub
  | '*' => binary .mul
  | '/' => binary .div
  | '%' => binary .mod
  | '\x60' => binary .greater
  | '!' => not
  | ':' => duplicate
  | '\\' => swap
  | '$' => drop
  | '.' => printInteger
  | ',' => printCharacter
  | '&' => ask .integer
  | '~' => ask .character
  | 'g' => get
  | 'p' => put
  | '#' => bridge
  | '@' => halt
  | c => (ofDigit? c).getD nop

end Instruction

end Funge93
