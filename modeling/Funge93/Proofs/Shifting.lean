import Funge93.Proofs.Attempt
import Funge93.Proofs.Refinement

/-!
# The torus has no seam

Nothing on the torus tells one cell from another but the character that it holds. If all
characters and the pointer are moved by the same number of columns and rows, a run does not
notice: it meets the same characters in the same order, answers every call alike, and is
afterwards the moved run. Where an edge was crossed before, none may be crossed now, and the
other way round.

Two instructions know better. To get a character, or to put one, is to name a place by its
column and its row, and those are counted from a corner. So they must not be executed; inside
a string they are characters like any other.

A move by one cell and a shift by any number of cells are both additions before they are
wrapped, so the two commute, and that is all there is to it (`Place.next_shift`).
-/

namespace Funge93

namespace Place

/-- The place that lies a number of columns and a number of rows further on. -/
def shift (p : Place) (i j : Int) : Place :=
  wrap (p.x.val + i) (p.y.val + j)

theorem shift_shift (p : Place) (i j k l : Int) :
    (p.shift i j).shift k l = p.shift (i + k) (j + l) := by
  rw [shift, shift, wrap_wrap_add, Int.add_assoc, Int.add_assoc]
  rfl

theorem shift_zero (p : Place) : p.shift 0 0 = p := by
  rw [shift, Int.add_zero, Int.add_zero, wrap_self]

theorem next_shift (p : Place) (i j : Int) (h : Heading) :
    (p.shift i j).next h = (p.next h).shift i j := by
  show (p.shift i j).shift h.dx h.dy = (p.shift h.dx h.dy).shift i j
  rw [shift_shift, shift_shift, Int.add_comm i, Int.add_comm j]

-- From here on a shift is known by these laws only.
attribute [irreducible] shift

end Place

namespace Grid

/-- The program space with every character moved by a number of columns and of rows. -/
def shift (g : Grid) (i j : Int) : Grid :=
  tabulate fun p => g.get (p.shift (-i) (-j))

theorem get_shift (g : Grid) (p : Place) (i j : Int) :
    (g.shift i j).get (p.shift i j) = g.get p := by
  rw [shift, get_tabulate, Place.shift_shift, Int.add_right_neg, Int.add_right_neg,
    Place.shift_zero]

attribute [irreducible] shift

end Grid

namespace Machine

def shift (m : Machine) (i j : Int) : Machine :=
  { m with grid := m.grid.shift i j, place := m.place.shift i j }

/-- The character that the next attempt executes, if it executes one. -/
def executed? (m : Machine) : Option Char :=
  if m.Executes then some m.cell else none

end Machine

def Step.shift (r : Step) (i j : Int) : Step :=
  { r with machine := r.machine.shift i j }

namespace Machine

variable {m : Machine} {i j : Int}

theorem cell_shift : (m.shift i j).cell = m.cell :=
  m.grid.get_shift m.place i j

theorem forward_shift : (m.shift i j).forward = m.forward.shift i j := by
  simp only [forward, shift, Place.next_shift]

theorem finish_shift : (m.shift i j).finish = m.finish.shift i j := by
  rw [finish, forward_shift]
  rfl

theorem completing_shift {source : Random.Source} {done done' : Event × Machine}
    (h : done' = (done.1, done.2.shift i j)) :
    completing source done' = (completing source done).shift i j := by
  rw [h]
  simp only [completing, finish_shift, Step.shift]

theorem execute_shift {instruction : Instruction} (hget : instruction ≠ .get)
    (hput : instruction ≠ .put) (source : Random.Source) :
    (m.shift i j).execute source instruction = (m.execute source instruction).shift i j := by
  cases instruction with
  | get => exact absurd rfl hget
  | put => exact absurd rfl hput
  | ask input => rfl
  | halt => rfl
  | bridge => exact completing_shift (congrArg (Prod.mk Event.bridged) forward_shift)
  | _ => exact completing_shift rfl

theorem quoting_shift (c : Char) :
    (m.shift i j).quoting c = ((m.quoting c).1, (m.quoting c).2.shift i j) := by
  rw [quoting, quoting]
  split <;> rfl

theorem step_shift (hget : m.executed? ≠ some 'g') (hput : m.executed? ≠ some 'p')
    (source : Random.Source) :
    (m.shift i j).step source = (m.step source).shift i j := by
  cases hbarred : m.barred? with
  | some outcome =>
      rw [step_of_barred hbarred, step_of_barred (m := m.shift i j) hbarred]
      rfl
  | none =>
      cases hmode : m.stringMode with
      | true =>
          rw [step_of_reads hbarred hmode, step_of_reads (m := m.shift i j) hbarred hmode,
            cell_shift]
          exact completing_shift (quoting_shift m.cell)
      | false =>
          have hexecutes := executes_of_free hbarred hmode
          rw [executed?, if_pos hexecutes] at hget hput
          rw [step_of_executes hexecutes, step_of_executes (m := m.shift i j) hexecutes,
            cell_shift]
          refine execute_shift ?_ ?_ source
          · intro hi
            exact hget (congrArg some (Instruction.eq_of_ofChar_eq hi rfl))
          · intro hi
            exact hput (congrArg some (Instruction.eq_of_ofChar_eq hi rfl))

theorem resume_shift (line : String) :
    (m.shift i j).resume line = ((m.resume line).1, (m.resume line).2.shift i j) := by
  simp only [resume, show (m.shift i j).status = m.status from rfl]
  cases m.status with
  | awaiting input =>
      have hfinish := finish_shift (m := { m with status := .running }.push (input.read line))
        (i := i) (j := j)
      exact congrArg (Prod.mk (Except.ok (Outcome.did (.pushed (input.read line))))) hfinish
  | _ => rfl

end Machine

namespace Engine

variable {e : Engine} {i j : Int}

def shift (e : Engine) (i j : Int) : Engine :=
  { e with machine := e.machine.shift i j }

/-- The characters that a history executes, in order. -/
def executed (e : Engine) : List Call → List Char
  | [] => []
  | c :: rest =>
    (if c = .step then e.machine.executed?.toList else []) ++ (e.call c).2.executed rest

theorem call_shift {c : Call} (hget : c = .step → e.machine.executed? ≠ some 'g')
    (hput : c = .step → e.machine.executed? ≠ some 'p') :
    (e.shift i j).call c = ((e.call c).1, (e.call c).2.shift i j) := by
  cases c with
  | step =>
      simp only [call, shift, Machine.step_shift (hget rfl) (hput rfl)]
      rfl
  | resume line =>
      simp only [call, shift, Machine.resume_shift]
  | interrupt => rfl

/-- A character that a history does not execute is not executed by its first call, nor by
those that follow. -/
theorem not_mem_executed_cons {c : Call} {rest : List Call} {glyph : Char}
    (h : glyph ∉ e.executed (c :: rest)) :
    (c = .step → e.machine.executed? ≠ some glyph) ∧ glyph ∉ (e.call c).2.executed rest := by
  rw [executed, List.mem_append, not_or] at h
  obtain ⟨hfirst, hrest⟩ := h
  refine ⟨?_, hrest⟩
  rintro rfl hglyph
  rw [if_pos rfl, hglyph] at hfirst
  exact hfirst (List.mem_singleton_self glyph)

end Engine

/-- A run and the same run moved on the torus, by any number of columns and of rows. Unless a
character is got or put, each call on the two is answered alike, and after the last call the
one is still the other moved. -/
theorem torus_has_no_seam (e : Engine) (i j : Int) {calls : List Call}
    (hget : 'g' ∉ e.executed calls) (hput : 'p' ∉ e.executed calls) :
    (e.shift i j).perform calls = ((e.perform calls).1, (e.perform calls).2.shift i j) := by
  refine perform_map
    (P := fun e calls => 'g' ∉ e.executed calls ∧ 'p' ∉ e.executed calls)
    (Engine.shift · i j) ?_ calls ⟨hget, hput⟩
  rintro e c rest ⟨hget, hput⟩
  obtain ⟨hget, hgetrest⟩ := Engine.not_mem_executed_cons hget
  obtain ⟨hput, hputrest⟩ := Engine.not_mem_executed_cons hput
  exact ⟨Engine.call_shift hget hput, hgetrest, hputrest⟩

/-- A program that jumps over a cell, reads a string and asks, in its corner and moved over
the right edge into the last row. -/
theorem torus_has_no_seam_at_edge :
    let e := Engine.start (Grid.ofLines [['#', '@', '"', 'g', '"', '~']]) (.seeded 0)
    let calls := [.step, .step, .step, .step, .step, .resume "x"]
    let r := e.perform calls
    let moved := (e.shift 79 (-1)).perform calls
    'g' ∉ e.executed calls ∧ 'p' ∉ e.executed calls ∧
      (e.shift 79 (-1)).machine.place = ⟨79, 24⟩ ∧ moved.1 = r.1 ∧
      r.2.machine.place = ⟨6, 0⟩ ∧ moved.2.machine.place = ⟨5, 24⟩ ∧
      moved.2.machine.stack.values = [120, 103] := by
  intro e calls r moved
  have hget : 'g' ∉ e.executed calls := by decide +kernel
  have hput : 'p' ∉ e.executed calls := by decide +kernel
  have hbegins : (e.shift 79 (-1)).machine.place = ⟨79, 24⟩ := by decide +kernel
  have hplace : r.2.machine.place = ⟨6, 0⟩ := by decide +kernel
  have hmoved : (r.2.shift 79 (-1)).machine.place = ⟨5, 24⟩ := by decide +kernel
  have hstack : (r.2.shift 79 (-1)).machine.stack.values = [120, 103] := by decide +kernel
  have h : moved = (r.1, r.2.shift 79 (-1)) := torus_has_no_seam e 79 (-1) hget hput
  rw [h]
  exact ⟨hget, hput, hbegins, rfl, hplace, hmoved, hstack⟩

end Funge93
