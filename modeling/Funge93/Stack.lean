import Funge93.Word

/-!
# The stack

The stack behaves as if it were infinitely deep and filled with zeros: taking or
reading a value when none is left answers zero. Only the values that were pushed
count towards its depth.
-/

namespace Funge93

/-- The pushed values that are still there, from the top down. -/
structure Stack where
  values : List Word
deriving DecidableEq

namespace Stack

def empty : Stack :=
  ⟨[]⟩

def push (s : Stack) (w : Word) : Stack :=
  ⟨w :: s.values⟩

def peek (s : Stack) : Word :=
  s.values.headD 0

def drop (s : Stack) : Stack :=
  ⟨s.values.tail⟩

/-- The number of values that can be taken before zeros come. -/
def depth (s : Stack) : Nat :=
  s.values.length

/-- Whether nothing but zeros would be taken. -/
def isEmpty (s : Stack) : Bool :=
  s.values.isEmpty

/-- The values from the bottom up. -/
def toList (s : Stack) : List Word :=
  s.values.reverse

end Stack

end Funge93
