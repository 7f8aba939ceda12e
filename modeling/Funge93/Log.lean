/-!
# The log

The log shows the most recent lines of a run's history. It is a window of a fixed
number of lines that slides along as lines are added.

Lines that have left the window are not cleared away one by one. They stay in
front of it until as many have gathered as the window holds, and then go all at
once, so adding a line costs the same on average however large the window is.
`toList_push` is the law that the rest of the library relies on: what the log
shows after a line is added depends on what it showed before and on nothing else.
-/

namespace Funge93

/-- The last elements of a list, as many as wanted or as there are. -/
def lastOf (n : Nat) (xs : List α) : List α :=
  xs.drop (xs.length - n)

structure Log where
  capacity : Nat
  /-- The lines not yet cleared away, the oldest first. -/
  kept : Array String
deriving DecidableEq

namespace Log

/-- The log with no lines yet. A window holds one line at least. -/
def ofCapacity (capacity : Nat) : Log :=
  ⟨if capacity = 0 then 1 else capacity, #[]⟩

/-- The lines in the window, the oldest first. -/
def toList (log : Log) : List String :=
  lastOf log.capacity log.kept.toList

def size (log : Log) : Nat :=
  if log.kept.size < log.capacity then log.kept.size else log.capacity

def isEmpty (log : Log) : Bool :=
  log.size == 0

def push (log : Log) (line : String) : Log :=
  let kept :=
    if log.kept.size < 2 * log.capacity then log.kept
    else log.kept.extract (log.kept.size - log.capacity) log.kept.size
  { log with kept := kept.push line }

/-- The last lines in the window, as many as wanted or as there are. -/
def tail (log : Log) (n : Nat) : List String :=
  lastOf (if n < log.size then n else log.size) log.kept.toList

end Log

theorem lastOf_lastOf (m n : Nat) (xs : List α) :
    lastOf m (lastOf n xs) = lastOf (if m < n then m else n) xs := by
  simp only [lastOf, List.drop_drop, List.length_drop]
  split <;> congr 1 <;> omega

theorem lastOf_append (n : Nat) (xs ys : List α) :
    lastOf n (lastOf n xs ++ ys) = lastOf n (xs ++ ys) := by
  simp only [lastOf, List.drop_append, List.drop_drop, List.length_append, List.length_drop]
  congr 2 <;> omega

namespace Log

theorem toList_extract_last (n : Nat) (kept : Array String) :
    (kept.extract (kept.size - n) kept.size).toList = lastOf n kept.toList := by
  rw [Array.toList_extract, List.extract_eq_take_drop]
  exact List.take_of_length_le (by simp)

theorem length_toList (log : Log) : log.toList.length = log.size := by
  simp only [toList, lastOf, size, List.length_drop, Array.length_toList]
  split <;> omega

theorem tail_eq (log : Log) (n : Nat) : log.tail n = lastOf n log.toList := by
  rw [tail, toList, lastOf_lastOf]
  simp only [size, lastOf, Array.length_toList]
  congr 1
  (repeat' split) <;> omega

theorem toList_push (log : Log) (line : String) :
    (log.push line).toList = lastOf log.capacity (log.toList ++ [line]) := by
  simp only [toList, push, Array.toList_push, lastOf_append]
  split
  · rfl
  · rw [toList_extract_last, lastOf_append]

end Log

end Funge93
