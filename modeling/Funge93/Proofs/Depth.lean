import Funge93.Proofs.Reachable

/-!
# Memory grows by one for each instruction

A run remembers two things that have no bound of their own, the values on its stack and
the characters that it has printed. What an instruction does to their number is told by
a small table: how many values it takes, how many it gives back, and how many characters
it prints. An instruction gives one value or prints one character, or does neither. So
one would think that a run remembers no more than it has completed instructions.

There is one exception. To swap two values is to take two and give two back, and when
none are there the two are zeros that nobody has pushed. The run is then one ahead, but
that cannot happen a second time: the swap leaves values behind, and before the stack is
empty again each of them has been taken by an instruction that gave less than it took.
So the invariant tells an empty stack from any other (`Thrifty`). With an empty stack
the count of instructions is not exceeded, and otherwise it is by one at most.
-/

namespace Funge93

namespace Stack

@[simp] theorem depth_push (s : Stack) (w : Word) : (s.push w).depth = s.depth + 1 := rfl

@[simp] theorem depth_drop (s : Stack) : s.drop.depth = s.depth - 1 :=
  List.length_tail

end Stack

namespace Instruction

/-- The number of values that an instruction takes from the stack, if so many are there. -/
def takes : Instruction → Nat
  | branchHorizontal => 1
  | branchVertical => 1
  | not => 1
  | drop => 1
  | printInteger => 1
  | printCharacter => 1
  | binary _ => 2
  | swap => 2
  | get => 2
  | put => 3
  | _ => 0

/-- The number of values that an instruction pushes. -/
def gives : Instruction → Nat
  | digit _ => 1
  | binary _ => 1
  | not => 1
  | duplicate => 1
  | get => 1
  | swap => 2
  | _ => 0

/-- The number of characters that an instruction adds to what has been printed. -/
def prints : Instruction → Nat
  | printCharacter => 1
  | _ => 0

theorem takes_le (i : Instruction) : i.takes ≤ 3 := by
  cases i <;> simp [takes]

theorem gives_add_prints_le {i : Instruction} (h : i ≠ swap) : i.gives + i.prints ≤ 1 := by
  cases i with
  | swap => exact absurd rfl h
  | _ => simp [gives, prints]

end Instruction

namespace Machine

variable {m m' : Machine}

/-! ## One instruction -/

theorem depth_execute (m : Machine) (source : Random.Source) (i : Instruction) :
    (m.execute source i).machine.stack.depth = m.stack.depth - i.takes + i.gives := by
  cases i <;>
    simp [execute, completing, finish, forward, turning, turningRandomly, pushing, storing,
      printing, push, drop, Instruction.takes, Instruction.gives, Nat.sub_sub]

theorem length_output_execute (m : Machine) (source : Random.Source) (i : Instruction) :
    (m.execute source i).machine.output.length = m.output.length + i.prints := by
  cases i with
  | printCharacter => exact String.length_push _
  | _ => rfl

/-- What is remembered is worth no more than the instructions that were completed, or one
more if values are on the stack. -/
structure Thrifty (m : Machine) : Prop where
  all : m.stack.depth + m.output.length ≤ m.steps + 1
  emptied : m.stack.depth = 0 → m.output.length ≤ m.steps

namespace Thrifty

/-- An instruction that adds no more than one thing is paid for, whatever it takes. -/
theorem of_added (h : m.Thrifty) (takes gives prints : Nat)
    (hdepth : m'.stack.depth = m.stack.depth - takes + gives)
    (houtput : m'.output.length = m.output.length + prints)
    (hsteps : m'.steps = m.steps + 1) (hadded : gives + prints ≤ 1) : m'.Thrifty := by
  have hall := h.all
  have hemptied := h.emptied
  constructor <;> omega

theorem swapped (h : m.Thrifty) (hdepth : m'.stack.depth = m.stack.depth - 2 + 2)
    (houtput : m'.output.length = m.output.length) (hsteps : m'.steps = m.steps + 1) :
    m'.Thrifty := by
  have hall := h.all
  have hemptied := h.emptied
  constructor <;> omega

theorem execute (h : m.Thrifty) (source : Random.Source) (i : Instruction) :
    (m.execute source i).machine.Thrifty := by
  have hdepth := m.depth_execute source i
  have houtput := m.length_output_execute source i
  cases i with
  | swap => exact h.swapped hdepth houtput rfl
  | ask input => exact ⟨h.all, h.emptied⟩
  | halt => exact ⟨h.all, h.emptied⟩
  | _ => exact h.of_added _ _ _ hdepth houtput rfl (Instruction.gives_add_prints_le nofun)

theorem quoting (h : m.Thrifty) (c : Char) : (m.quoting c).2.finish.Thrifty := by
  rw [Machine.quoting]
  split
  · exact h.of_added 0 0 0 rfl rfl rfl (by omega)
  · exact h.of_added 0 1 0 rfl rfl rfl (by omega)

theorem step (h : m.Thrifty) (source : Random.Source) :
    (m.step source).machine.Thrifty := by
  cases hbarred : m.barred? with
  | some outcome =>
      rw [step_of_barred hbarred]
      exact ⟨h.all, h.emptied⟩
  | none =>
      cases hmode : m.stringMode with
      | true =>
          rw [step_of_reads hbarred hmode]
          exact h.quoting m.cell
      | false =>
          rw [step_of_executes (executes_of_free hbarred hmode)]
          exact h.execute source _

theorem resume (h : m.Thrifty) {line : String} {outcome : Outcome}
    (htaken : m.resume line = (.ok outcome, m')) : m'.Thrifty := by
  obtain ⟨input, -, -, rfl⟩ := of_resume_ok htaken
  exact h.of_added 0 1 0 rfl rfl rfl (by omega)

theorem perform (h : m.Thrifty) {operation : Operation} {reply : Reply}
    (performs : m.Performs operation reply m') : m'.Thrifty := by
  cases performs with
  | step source => exact h.step source
  | run hreturns =>
      obtain ⟨n, rfl, -⟩ := hreturns
      exact Step.proceed_keeps (P := Thrifty) (fun _ source hm => hm.step source) n
        (h.step _)
  | take htaken => exact h.resume htaken
  | refuse hrefused =>
      obtain ⟨-, -, rfl⟩ := of_resume_error hrefused
      exact h

end Thrifty

theorem Reachable.thrifty {grid : Grid} (h : Reachable grid m) : m.Thrifty := by
  induction h with
  | start => exact ⟨Nat.zero_le _, fun _ => Nat.zero_le _⟩
  | perform _ performs ih => exact ih.perform performs
  | interrupt _ ih => exact ⟨ih.all, ih.emptied⟩

/-- In every machine that can be met, the values on the stack and the characters printed
are together no more than the instructions completed and one. If the stack is empty the
characters are no more than the instructions. Without the one it would be wrong: a program
that swaps at once has two values after one instruction. -/
theorem memory_grows_with_steps :
    (∀ grid m, Reachable grid m →
      m.stack.depth + m.output.length ≤ m.steps + 1 ∧
        (m.stack.depth = 0 → m.output.length ≤ m.steps)) ∧
    ∃ grid m, Reachable grid m ∧ m.stack.depth = 2 ∧ m.steps = 1 := by
  refine ⟨?_, ?_⟩
  · intro grid m h
    exact ⟨h.thrifty.all, h.thrifty.emptied⟩
  · refine ⟨Grid.ofLines [['\\']], _, .perform .start (.step (.seeded 0)), ?_, ?_⟩ <;>
      decide +kernel

/-- A program that swaps and then prints the two zeros that this leaves. After the swap it
is one ahead, and when the stack is empty again it is not. -/
theorem memory_grows_with_steps_swapped :
    let grid := Grid.ofLines [['\\', ',', ',']]
    let swapped := ((Machine.start grid).step (.seeded 0)).machine
    let printed := ((swapped.step (.seeded 1)).machine.step (.seeded 2)).machine
    (Reachable grid swapped ∧ swapped.stack.depth + swapped.output.length = swapped.steps + 1) ∧
      Reachable grid printed ∧ printed.stack.depth = 0 ∧ printed.output.length = 2 ∧
      printed.output.length ≤ printed.steps := by
  intro grid swapped printed
  have hswapped : Reachable grid swapped := .perform .start (.step _)
  have hprinted : Reachable grid printed := .perform (.perform hswapped (.step _)) (.step _)
  have hahead : swapped.steps + 1 ≤ swapped.stack.depth + swapped.output.length := by
    decide +kernel
  have hempty : printed.stack.depth = 0 := by decide +kernel
  have htwo : printed.output.length = 2 := by decide +kernel
  obtain ⟨hbound, -⟩ := memory_grows_with_steps
  have heven := Nat.le_antisymm (hbound grid swapped hswapped).1 hahead
  exact ⟨⟨hswapped, heven⟩, hprinted, hempty, htwo, (hbound grid printed hprinted).2 hempty⟩

end Machine

end Funge93
