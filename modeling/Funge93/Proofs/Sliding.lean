import Funge93.Log
import Mathlib.Data.List.Infix

/-!
# The window of the log slides along

A log shows the end of what has been pushed and nothing else. Which end is settled by the
capacity alone: as many lines as the window holds, or all of them if there are not as many.
When the lines in front of the window are cleared away does not show, so it makes no
difference that it is not done at every push.

One push is the law `toList_push`. A history of them is that law once more, because the
last lines of the last lines and a further text are the last lines of it all
(`lastOf_append`). What the law leaves open is how much is kept that does not show. A push
clears away as soon as there is a whole window of it, so what is kept never grows beyond
two windows (`Tidy`), and that needs a window of one line at least.
-/

namespace Funge93

theorem lastOf_suffix (n : Nat) (xs : List α) : lastOf n xs <:+ xs :=
  List.drop_suffix _ _

theorem length_lastOf (n : Nat) (xs : List α) : (lastOf n xs).length = min n xs.length := by
  simp only [lastOf, List.length_drop]
  omega

namespace Log

theorem capacity_ofCapacity (capacity : Nat) : (ofCapacity capacity).capacity = max capacity 1 := by
  simp only [ofCapacity]
  split <;> omega

theorem toList_ofCapacity (capacity : Nat) : (ofCapacity capacity).toList = [] :=
  List.drop_nil

variable (log : Log)

theorem capacity_foldl_push (lines : List String) :
    (lines.foldl push log).capacity = log.capacity := by
  induction lines generalizing log with
  | nil => rfl
  | cons line rest ih => exact ih (log.push line)

/-- A window is no wider than itself. -/
theorem lastOf_toList : lastOf log.capacity log.toList = log.toList := by
  rw [toList, lastOf_lastOf, if_neg (Nat.lt_irrefl _)]

/-- What the log shows after any number of pushes. -/
theorem toList_foldl_push (lines : List String) :
    (lines.foldl push log).toList = lastOf log.capacity (log.toList ++ lines) := by
  induction lines generalizing log with
  | nil => rw [List.append_nil, lastOf_toList, List.foldl_nil]
  | cons line rest ih =>
      rw [List.foldl_cons, ih, toList_push]
      show lastOf log.capacity _ = _
      rw [lastOf_append, List.append_assoc, List.singleton_append]

/-- A line that is pushed takes the place of the oldest one if the window is full, and
none leaves it otherwise. -/
theorem toList_push_slides (holds : 0 < log.capacity) (line : String) :
    (log.push line).toList =
      (if log.size = log.capacity then log.toList.tail else log.toList) ++ [line] := by
  have hlength := log.length_toList
  have hfits : log.size ≤ log.capacity := by
    rw [size]
    split <;> omega
  rw [toList_push, lastOf, List.length_append, List.length_singleton, hlength]
  split
  · next hfull =>
      have hone : log.size + 1 - log.capacity = 1 := by omega
      rw [hone, List.drop_append_of_le_length (by omega), List.drop_one]
  · next hroom =>
      have hnone : log.size + 1 - log.capacity = 0 := by omega
      rw [hnone, List.drop_zero]

/-- What is kept is no more than two windows, and a window holds one line at least. -/
structure Tidy (log : Log) : Prop where
  holds : 0 < log.capacity
  kept : log.kept.size ≤ 2 * log.capacity

namespace Tidy

variable {log}

theorem ofCapacity (capacity : Nat) : Tidy (Log.ofCapacity capacity) where
  holds := by
    rw [capacity_ofCapacity]
    omega
  kept := Nat.zero_le _

theorem push (h : log.Tidy) (line : String) : (log.push line).Tidy where
  holds := h.holds
  kept := by
    have hholds := h.holds
    have hkept := h.kept
    simp only [Log.push, Array.size_push]
    split
    · omega
    · simp only [Array.size_extract]
      omega

theorem foldl_push (h : log.Tidy) (lines : List String) : (lines.foldl Log.push log).Tidy := by
  induction lines generalizing log with
  | nil => exact h
  | cons line rest ih => exact ih (h.push line)

end Tidy

/-- A new log shows the lines that were pushed last, in their order: as many as its
capacity, of which there is one at least, or as there are. Its size counts them, so it is
empty only as long as nothing was pushed. Its tail is the end of what it shows, as long as
wanted or as there is. The next line takes the place of the oldest one as soon as the
window is full. And whatever was pushed, two windows of it are all that is kept. -/
theorem shows_end_of_pushed (capacity : Nat) (lines : List String) :
    let log := lines.foldl push (ofCapacity capacity)
    (log.toList <:+ lines ∧ log.toList.length = min lines.length (max capacity 1)) ∧
      log.size = log.toList.length ∧ (log.isEmpty = true ↔ lines.length = 0) ∧
      (∀ n, log.tail n <:+ log.toList ∧ (log.tail n).length = min n log.size) ∧
      (∀ line, (log.push line).toList =
        (if log.size = max capacity 1 then log.toList.tail else log.toList) ++ [line]) ∧
      log.kept.size ≤ 2 * max capacity 1 := by
  intro log
  have hshown : log.toList = lastOf (max capacity 1) lines := by
    rw [toList_foldl_push, toList_ofCapacity, List.nil_append, capacity_ofCapacity]
  have hlength : log.toList.length = min lines.length (max capacity 1) := by
    rw [hshown, length_lastOf, Nat.min_comm]
  have hsize : log.size = log.toList.length := log.length_toList.symm
  have hcapacity : log.capacity = max capacity 1 := by
    rw [capacity_foldl_push, capacity_ofCapacity]
  have htidy : log.Tidy := (Tidy.ofCapacity capacity).foldl_push lines
  rw [← hcapacity] at hlength ⊢
  refine ⟨⟨?_, hlength⟩, hsize, ?_, fun n => ⟨?_, ?_⟩, log.toList_push_slides htidy.holds,
    htidy.kept⟩
  · rw [hshown]
    exact lastOf_suffix _ _
  · have hholds := htidy.holds
    rw [isEmpty, beq_iff_eq, hsize, hlength]
    omega
  · rw [tail_eq]
    exact lastOf_suffix _ _
  · rw [tail_eq, length_lastOf, hsize]

/-- A window without room has room for one line. -/
example : (["a", "b"].foldl push (ofCapacity 0)).toList = ["b"] := by decide

end Log

end Funge93
