import Funge93.Text.Lines
import Mathlib.Data.List.TakeWhile

/-!
# The lines of a text

Cutting a text into lines looks at it from the front, and a limit does nothing but stop
it: the first lines of a text are the first of all its lines (`lines_eq_take`). No line
holds a terminator. Lines that hold none come back from the text that joins them by line
feeds, as long as the last one is not empty. A text that ends in a line feed has no
line behind it, so an empty line at the end is the one thing that joining loses.
-/

namespace Funge93.Text

/-- The characters that end a line. -/
def terminators : List Char :=
  ['\n', '\x0b', '\x0c', '\r', '\x1c', '\x1d', '\x1e', '\u0085', '\u2028', '\u2029']

theorem isTerminator_iff {c : Char} : isTerminator c = true ↔ c ∈ terminators := by
  constructor
  · intro h
    have hcode : c.toNat ∈ terminators.map Char.toNat := by
      simp only [isTerminator, Bool.or_eq_true, Bool.and_eq_true, decide_eq_true_eq,
        beq_iff_eq] at h
      show c.toNat ∈ [10, 11, 12, 13, 28, 29, 30, 133, 8232, 8233]
      simp only [List.mem_cons, List.not_mem_nil, or_false]
      omega
    obtain ⟨d, hmem, hcode⟩ := List.mem_map.mp hcode
    rw [← Char.ofNat_toNat c, ← hcode, Char.ofNat_toNat]
    exact hmem
  · intro h
    have hall : terminators.all isTerminator = true := by decide
    exact List.all_eq_true.mp hall c h

/-- A text without terminators. -/
def Unbroken (text : List Char) : Prop :=
  ∀ c ∈ text, isTerminator c = false

/-- All lines of a text. Each takes one character at least. -/
def allLines (text : List Char) : List (List Char) :=
  lines text.length text

/-- What is left of a text behind its first line. -/
def behindLine (text : List Char) : List Char :=
  dropTerminator (text.dropWhile fun c => !isTerminator c)

section Lines

variable {line text : List Char} (n : Nat)

@[simp] theorem lines_nil : lines n [] = [] := by
  cases n <;> rfl

theorem lines_succ (h : text ≠ []) :
    lines (n + 1) text =
      (text.takeWhile fun c => !isTerminator c) :: lines n (behindLine text) := by
  cases text with
  | nil => exact absurd rfl h
  | cons c rest => rfl

theorem unbroken_of_mem_lines (h : line ∈ lines n text) : Unbroken line := by
  induction n generalizing text with
  | zero => cases h
  | succ n ih =>
      by_cases htext : text = []
      · rw [htext, lines_nil] at h
        cases h
      · rw [lines_succ n htext] at h
        rcases List.mem_cons.mp h with rfl | hmem
        · intro c hc
          have hplain := List.mem_takeWhile_imp (p := fun c => !isTerminator c) hc
          rwa [Bool.not_eq_true'] at hplain
        · exact ih hmem

/-! ## All lines, and the first of them -/

theorem length_dropTerminator_lt {text : List Char} (h : text ≠ []) :
    (dropTerminator text).length < text.length := by
  unfold dropTerminator
  split
  · simp only [List.length_cons]
    omega
  · exact Nat.lt_succ_self _
  · exact absurd rfl h

theorem length_behindLine_lt (h : text ≠ []) :
    (behindLine text).length < text.length := by
  have hrest := (List.dropWhile_suffix (l := text) fun c => !isTerminator c).length_le
  rw [behindLine]
  by_cases hempty : (text.dropWhile fun c => !isTerminator c) = []
  · rw [hempty]
    exact List.length_pos_iff.mpr h
  · exact Nat.lt_of_lt_of_le (length_dropTerminator_lt hempty) hrest

theorem lines_eq_take_of_le {m : Nat} (h : text.length ≤ m) :
    lines n text = (lines m text).take n := by
  induction n generalizing text m with
  | zero => rfl
  | succ n ih =>
      by_cases htext : text = []
      · rw [htext, lines_nil, lines_nil, List.take_nil]
      · have hshort := length_behindLine_lt htext
        obtain ⟨m, rfl⟩ : ∃ k, m = k + 1 := ⟨m - 1, by omega⟩
        rw [lines_succ n htext, lines_succ m htext, List.take_succ_cons,
          ← ih (by omega)]

theorem lines_eq_take (text : List Char) : lines n text = (allLines text).take n :=
  lines_eq_take_of_le n (Nat.le_refl _)

/-! ## Joining lines -/

theorem takeWhile_unbroken (h : Unbroken line) (rest : List Char) :
    ((line ++ '\n' :: rest).takeWhile fun c => !isTerminator c) = line := by
  rw [List.takeWhile_append_of_pos fun c hc => by rw [h c hc]; rfl,
    List.takeWhile_cons_of_neg (by decide), List.append_nil]

theorem behindLine_unbroken (h : Unbroken line) (rest : List Char) :
    behindLine (line ++ '\n' :: rest) = rest := by
  rw [behindLine, List.dropWhile_append_of_pos fun c hc => by rw [h c hc]; rfl,
    List.dropWhile_cons_of_neg (by decide)]
  rfl

theorem lines_of_unbroken (h : Unbroken line) (hline : line ≠ []) :
    lines (n + 1) line = [line] := by
  have hall : ∀ c ∈ line, (!isTerminator c) = true := by
    intro c hc
    rw [h c hc]
    rfl
  rw [lines_succ n hline, behindLine, List.takeWhile_eq_self_iff.mpr hall,
    List.dropWhile_eq_nil_iff.mpr hall]
  exact congrArg (line :: ·) (lines_nil n)

theorem lines_intercalate {rows : List (List Char)} (hrows : ∀ row ∈ rows, Unbroken row)
    (hlast : rows.getLast? ≠ some []) :
    lines n (['\n'].intercalate rows) = rows.take n := by
  induction rows generalizing n with
  | nil => rw [List.take_nil]; exact lines_nil n
  | cons row more ih =>
      cases n with
      | zero => rfl
      | succ n =>
          have hrow := hrows row List.mem_cons_self
          cases more with
          | nil =>
              have hne : row ≠ [] := fun h => hlast (by rw [h]; rfl)
              rw [List.intercalate_singleton, lines_of_unbroken n hrow hne,
                List.take_succ_cons, List.take_nil]
          | cons next more =>
              rw [List.intercalate_cons_cons, List.append_assoc, List.singleton_append,
                lines_succ n (by simp), takeWhile_unbroken hrow, behindLine_unbroken hrow,
                List.take_succ_cons]
              rw [ih n (fun r hr => hrows r (List.mem_cons_of_mem _ hr)) hlast]

end Lines

end Funge93.Text
