import Funge93.Random.ChaCha
import Funge93.Random.Weighted

/-!
# Sources of random turns

Whoever runs a program brings a source that is asked for a heading at each random
turn. A source is an endless stream of answers together with the number of those
already taken, so what it will answer is settled from the start and only the
number ever changes.

A source is outside the machine. It may ask, in the moment in which it answers,
that the run be stopped; the answer says so.

A seed settles the source of a run. A run without one is given a key that the system
makes up, another one for each run.
-/

namespace Funge93.Random

/-- The answer of a source to one question. -/
structure Draw where
  heading : Heading
  /-- Whether the run is asked to stop. -/
  interrupts : Bool
deriving DecidableEq

/-- A stream of answers and the number of those taken. -/
structure Source where
  answers : Nat → Draw
  taken : Nat

namespace Source

/-- The next answer. -/
def draw (s : Source) : Draw :=
  s.answers s.taken

/-- The source with the next answer taken. -/
def rest (s : Source) : Source :=
  { s with taken := s.taken + 1 }

/-- The source that answers with the headings of a stream and never asks to stop. -/
def ofHeadings (headings : Nat → Heading) : Source :=
  ⟨fun n => ⟨headings n, false⟩, 0⟩

/-- The source that decides by a stream of random words, one for each answer. -/
def ofWords (words : Nat → UInt64) : Source :=
  ofHeadings fun n => Random.heading (words n)

/-- The source that a key determines. -/
def keyed (key : ChaCha.Key) : Source :=
  ofWords (ChaCha.word key)

/-- The source that a seed determines. -/
def seeded (seed : UInt64) : Source :=
  keyed (ChaCha.key seed)

end Source

/-- The keys that the system makes up, in their order. -/
abbrev Entropy := Nat → ChaCha.Key

/-- The source of a run with or without a seed. -/
def Source.drawn (seed : Option UInt64) (entropy : Entropy) : Source :=
  match seed with
  | some seed => seeded seed
  | none => keyed (entropy 0)

/-- The keys that a run leaves to later ones. -/
def Entropy.left (entropy : Entropy) (seed : Option UInt64) : Entropy :=
  match seed with
  | some _ => entropy
  | none => fun n => entropy (n + 1)

end Funge93.Random
