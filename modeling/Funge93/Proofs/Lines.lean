import Funge93.Headless.InputLine
import Mathlib.Data.List.DropRight

/-!
# The lines of an input

A run takes its input apart line by line as it goes. Seen from outside the input
is a list of lines from the start: it is split at every line feed, and the line
with number `i` is the one that answers the request with number `i`. What lies
behind a line feed at the very end is an empty line, which is also what a request
gets when the lines are used up, so the two need not be told apart.

`line?_unread` says that the two ways of looking at it agree: whoever has taken
`k` lines from the front, one at a time, finds line number `k` next.
-/

namespace Funge93.Headless

/-- The text that a line of bytes is supplied as, if it is one: without the
carriage returns and line feeds at its end. -/
def lineText? (line : List UInt8) : Option String :=
  (Text.ofBytes? line).map fun text =>
    String.ofList (text.toList.rdropWhile fun c => c == '\r' || c == '\n')

/-- The text that answers the request with number `i`. -/
def nthLine? (input : List UInt8) (i : Nat) : Option String :=
  lineText? ((input.splitOn 10).getD i [])

/-- The bytes that are left when `k` lines have been taken. -/
def unread (input : List UInt8) (k : Nat) : List UInt8 :=
  List.intercalate [10] ((input.splitOn 10).drop k)

theorem not_mem_lineBytes (input : List UInt8) : 10 ∉ lineBytes input := by
  intro h
  have hne := List.mem_takeWhile_imp h
  simp at hne

theorem lineBytes_append (input : List UInt8) (h : 10 ∈ input) :
    lineBytes input ++ 10 :: afterLine input = input := by
  induction input with
  | nil => cases h
  | cons b rest ih =>
      by_cases hb : b = 10
      · subst hb
        rfl
      · have hrest : 10 ∈ rest := (List.mem_cons.mp h).resolve_left (Ne.symm hb)
        have hline : lineBytes (b :: rest) = b :: lineBytes rest := by
          simp [lineBytes, hb]
        have hafter : afterLine (b :: rest) = afterLine rest := by
          simp [afterLine, hb]
        rw [hline, hafter, List.cons_append, ih hrest]

theorem lineBytes_of_not_mem {input : List UInt8} (h : 10 ∉ input) :
    lineBytes input = input := by
  rw [lineBytes, List.takeWhile_eq_self_iff]
  intro b hb
  simp only [bne_iff_ne]
  rintro rfl
  exact h hb

theorem afterLine_of_not_mem {input : List UInt8} (h : 10 ∉ input) :
    afterLine input = [] := by
  rw [afterLine, List.dropWhile_eq_nil_iff.mpr, List.drop_nil]
  intro b hb
  simp only [bne_iff_ne]
  rintro rfl
  exact h hb

/-- The first line of an input is what stands before its first line feed, and the
other lines are those of what stands behind it. -/
theorem splitOn_eq_lineBytes_cons (input : List UInt8) :
    input.splitOn 10 =
      lineBytes input ::
        if 10 ∈ input then (afterLine input).splitOn 10 else [] := by
  by_cases h : 10 ∈ input
  · rw [if_pos h]
    conv_lhs => rw [← lineBytes_append input h]
    exact List.splitOn_append_cons_self_of_not_mem (not_mem_lineBytes input) _
  · rw [if_neg h, List.splitOn_eq_singleton h, lineBytes_of_not_mem h]

theorem line?_eq (input : List UInt8) : line? input = nthLine? input 0 := by
  rw [nthLine?, splitOn_eq_lineBytes_cons]
  rfl

theorem nthLine?_afterLine (input : List UInt8) (i : Nat) :
    nthLine? (afterLine input) i = nthLine? input (i + 1) := by
  rw [nthLine?, nthLine?, splitOn_eq_lineBytes_cons input]
  by_cases h : 10 ∈ input
  · rw [if_pos h]
    rfl
  · -- Nothing is left, and the only line of nothing is empty.
    rw [if_neg h, afterLine_of_not_mem h]
    cases i <;> rfl

theorem unread_zero (input : List UInt8) : unread input 0 = input := by
  rw [unread, List.drop_zero, List.intercalate_splitOn]

theorem unread_afterLine (input : List UInt8) (k : Nat) :
    unread (afterLine input) k = unread input (k + 1) := by
  rw [unread, unread, splitOn_eq_lineBytes_cons input, List.drop_succ_cons]
  by_cases h : 10 ∈ input
  · rw [if_pos h]
  · rw [if_neg h, afterLine_of_not_mem h, List.drop_nil]
    cases k with
    | zero => rfl
    | succ k =>
        rw [show ([] : List UInt8).splitOn 10 = [[]] from rfl,
          List.drop_succ_cons, List.drop_nil]

theorem afterLine_unread (input : List UInt8) (k : Nat) :
    afterLine (unread input k) = unread input (k + 1) := by
  induction k generalizing input with
  | zero => rw [← unread_afterLine, unread_zero, unread_zero]
  | succ k ih => rw [← unread_afterLine, ih, unread_afterLine]

theorem afterLine_suffix (input : List UInt8) : afterLine input <:+ input :=
  (List.drop_suffix 1 _).trans (List.dropWhile_suffix _)

theorem unread_suffix (input : List UInt8) (k : Nat) : unread input k <:+ input := by
  induction k with
  | zero => exact ⟨[], unread_zero input⟩
  | succ k ih =>
      rw [← afterLine_unread]
      exact (afterLine_suffix _).trans ih

theorem line?_unread (input : List UInt8) (k : Nat) :
    line? (unread input k) = nthLine? input k := by
  induction k generalizing input with
  | zero => rw [unread_zero, line?_eq]
  | succ k ih => rw [← unread_afterLine, ih, nthLine?_afterLine]

/-- A request that comes when the input is used up gets the empty line. -/
theorem nthLine?_of_unread_eq_nil {input : List UInt8} {k : Nat}
    (h : unread input k = []) : nthLine? input k = some "" := by
  rw [← line?_unread, h]
  rfl

end Funge93.Headless
