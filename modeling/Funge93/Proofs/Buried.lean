import Funge93.Proofs.Depth

/-!
# Buried values

An instruction looks at the three topmost values of the stack at most and takes no others.
So what lies below three values for each instruction still to come cannot make a difference
to any of these instructions. It is neither read nor taken, and lies there afterwards as it
did before.

A run with values buried under its stack is compared with the run that lacks them (`above`).
As long as three values are left, an attempt comes to the same in both, and takes three of
them at most. So the values above the buried ones are a supply that each call takes its part
from, and two runs with different values buried are both compared with the one that has none.
-/

namespace Funge93

namespace Stack

/-- The stack standing on some more values. -/
def above (s : Stack) (buried : List Word) : Stack :=
  ⟨s.values ++ buried⟩

end Stack

namespace Machine

def above (m : Machine) (buried : List Word) : Machine :=
  { m with stack := m.stack.above buried }

end Machine

def Step.above (r : Step) (buried : List Word) : Step :=
  { r with machine := r.machine.above buried }

namespace Machine

variable {m : Machine} {buried : List Word}

theorem exists_top_three (h : 3 ≤ m.stack.depth) :
    ∃ a b c rest, m.stack = ⟨a :: b :: c :: rest⟩ := by
  rcases hstack : m.stack with ⟨values⟩
  rw [hstack] at h
  match values, h with
  | a :: b :: c :: rest, _ => exact ⟨a, b, c, rest, rfl⟩

theorem execute_above (h : 3 ≤ m.stack.depth) (source : Random.Source) (i : Instruction) :
    (m.above buried).execute source i = (m.execute source i).above buried := by
  obtain ⟨a, b, c, rest, hstack⟩ := exists_top_three h
  obtain ⟨_, _, _, stack, _, _, _, _, _⟩ := m
  subst hstack
  cases i <;> rfl

theorem quoting_above (c : Char) :
    (m.above buried).quoting c = ((m.quoting c).1, (m.quoting c).2.above buried) := by
  rw [quoting, quoting]
  split <;> rfl

theorem step_above (h : 3 ≤ m.stack.depth) (source : Random.Source) :
    (m.above buried).step source = (m.step source).above buried := by
  cases hbarred : m.barred? with
  | some outcome =>
      rw [step_of_barred hbarred, step_of_barred (m := m.above buried) hbarred]
      rfl
  | none =>
      cases hmode : m.stringMode with
      | true =>
          rw [step_of_reads hbarred hmode, step_of_reads (m := m.above buried) hbarred hmode]
          exact congrArg (completing source) (quoting_above m.cell)
      | false =>
          have hexecutes := executes_of_free hbarred hmode
          rw [step_of_executes hexecutes, step_of_executes (m := m.above buried) hexecutes]
          exact execute_above h source _

/-- An attempt takes three values at most. -/
theorem depth_le_step (m : Machine) (source : Random.Source) :
    m.stack.depth ≤ (m.step source).machine.stack.depth + 3 := by
  cases hbarred : m.barred? with
  | some outcome =>
      rw [step_of_barred hbarred]
      exact Nat.le_add_right _ 3
  | none =>
      cases hmode : m.stringMode with
      | true =>
          rw [step_of_reads hbarred hmode]
          show m.stack.depth ≤ (m.quoting m.cell).2.stack.depth + 3
          rw [quoting]
          split
          · exact Nat.le_add_right _ 3
          · exact Nat.le_add_right _ 4
      | false =>
          rw [step_of_executes (executes_of_free hbarred hmode), depth_execute]
          have htakes := (Instruction.ofChar m.cell).takes_le
          omega

end Machine

namespace Engine

variable {e : Engine}

def above (e : Engine) (buried : List Word) : Engine :=
  { e with machine := e.machine.above buried }

theorem call_above (h : 3 ≤ e.machine.stack.depth) (buried : List Word) (c : Call) :
    (e.above buried).call c = ((e.call c).1, (e.call c).2.above buried) := by
  cases c with
  | step =>
      simp only [call, above, Machine.step_above h]
      rfl
  | resume line =>
      obtain ⟨⟨_, _, _, _, _, _, _, status, _⟩, _⟩ := e
      cases status <;> rfl
  | interrupt => rfl

theorem depth_le_call (e : Engine) (c : Call) :
    e.machine.stack.depth ≤ (e.call c).2.machine.stack.depth + 3 := by
  cases c with
  | step => exact e.machine.depth_le_step e.source
  | resume line =>
      simp only [call, Machine.resume]
      cases e.machine.status with
      | awaiting input => exact Nat.le_add_right _ 4
      | _ => exact Nat.le_add_right _ 3
  | interrupt => exact Nat.le_add_right _ 3

/-- A history of calls, each of which has three values of its own above the buried ones. -/
theorem perform_above (buried : List Word) (calls : List Call)
    (h : 3 * calls.length ≤ e.machine.stack.depth) :
    (e.above buried).perform calls = ((e.perform calls).1, (e.perform calls).2.above buried) := by
  refine perform_map (P := fun e calls => 3 * calls.length ≤ e.machine.stack.depth)
    (above · buried) ?_ calls h
  intro e c rest h
  rw [List.length_cons] at h
  have hcall := e.depth_le_call c
  exact ⟨call_above (by omega) buried c, by omega⟩

end Engine

/-- Two runs that differ in nothing but in the values below the topmost `3 * n` answer `n`
calls alike and are the same afterwards, but for those values: each still has its own, below
what the calls have left of the others. -/
theorem buried_values_do_not_matter {n : Nat} {calls : List Call} (hcalls : calls.length ≤ n)
    (e : Engine) {t : List Word} (ht : 3 * n ≤ t.length) (s s' : List Word) :
    let run := fun values : List Word =>
      Engine.perform { e with machine := { e.machine with stack := ⟨values⟩ } } calls
    (run (t ++ s')).1 = (run (t ++ s)).1 ∧
      ∃ u, (run (t ++ s)).2.machine.stack.values = u ++ s ∧
        (run (t ++ s')).2.machine.stack.values = u ++ s' ∧
        (run (t ++ s')).2 = { (run (t ++ s)).2 with
          machine := { (run (t ++ s)).2.machine with stack := ⟨u ++ s'⟩ } } := by
  intro run
  have hdeep : 3 * calls.length ≤ t.length := by omega
  have hrun : ∀ buried, run (t ++ buried) = ((run t).1, (run t).2.above buried) :=
    fun buried => Engine.perform_above
      (e := { e with machine := { e.machine with stack := ⟨t⟩ } }) buried calls hdeep
  rw [hrun s, hrun s']
  exact ⟨rfl, (run t).2.machine.stack.values, rfl, rfl, rfl⟩

/-- A program that stores twice takes all six values that two instructions may take. -/
theorem buried_values_do_not_matter_stored :
    let e := Engine.start (Grid.ofLines [['p', 'p']]) (.seeded 0)
    let t : List Word := [3, 0, 65, 4, 0, 66]
    let run := fun values : List Word =>
      Engine.perform { e with machine := { e.machine with stack := ⟨values⟩ } } [.step, .step]
    (run (t ++ [8])).1 = (run (t ++ [7])).1 ∧
      (run (t ++ [7])).2.machine.stack.values = [7] ∧
      (run (t ++ [8])).2.machine.stack.values = [8] ∧
      (run (t ++ [8])).2.machine.grid = (run (t ++ [7])).2.machine.grid := by
  intro e t run
  have hseven : (run (t ++ [7])).2.machine.stack.values = [7] := by decide +kernel
  -- What the run computes is settled; nothing below has to compute it again.
  clear_value e
  have htwo : [Call.step, .step].length ≤ 2 := Nat.le_refl 2
  have hsix : 3 * 2 ≤ t.length := Nat.le_refl 6
  obtain ⟨hanswers, u, hleft, hother, hsame⟩ :=
    buried_values_do_not_matter htwo e hsix [7] [8]
  have hu : u = [] := List.append_left_eq_self.mp (hleft.symm.trans hseven)
  subst hu
  have hgrid := congrArg (fun e : Engine => e.machine.grid) hsame
  exact ⟨hanswers, hseven, hother, hgrid⟩

end Funge93
