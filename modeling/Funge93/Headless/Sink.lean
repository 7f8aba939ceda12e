/-!
# Sinks

What a program prints goes into a sink. A sink may have room for a limited number
of bytes only. It then takes what fits of the write that is too long for it, and
that write has failed.
-/

namespace Funge93.Headless

/-- Where printed bytes go. -/
structure Sink where
  /-- The number of bytes that it has room for, if that is limited. -/
  capacity : Option Nat
  /-- The bytes that it has taken, in order. -/
  bytes : Array UInt8
deriving DecidableEq

namespace Sink

/-- The sink that has taken nothing yet. -/
def empty (capacity : Option Nat) : Sink :=
  ⟨capacity, #[]⟩

/-- Whether there is room for all of some bytes. -/
def fits (s : Sink) (bytes : List UInt8) : Bool :=
  match s.capacity with
  | none => true
  | some n => s.bytes.size + bytes.length ≤ n

/-- The sink with as many of some bytes as there is room for. -/
def take (s : Sink) (bytes : List UInt8) : Sink :=
  match s.capacity with
  | none => { s with bytes := s.bytes ++ bytes }
  | some n => { s with bytes := s.bytes ++ bytes.take (n - s.bytes.size) }

end Sink

end Funge93.Headless
