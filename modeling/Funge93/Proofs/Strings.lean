import Funge93.Proofs.Reachable
import Funge93.Proofs.Refinement
import Mathlib.Dynamics.PeriodicPts.Defs

/-!
# Strings

A string is read along one line of the torus, and the line is closed. The quote that
began the string lies on it, just behind the pointer at first, and so does the pointer
from then on, since nothing turns it before the string ends. Nothing is written either.
So there is always a quote ahead, be it the one that the string began with, and the
string ends at the first of them.

That a quote is ahead holds of every machine that can be met and is inside a string
(`Reachable.enclosed`). How far ahead need not be kept along: a quote that lies any
number of cells ahead lies fewer cells ahead than the line has. The rest is a count of
attempts. Each that does not find a quote pushes the character it finds, and leaves a
machine with the same grid, facing the same way, one cell further on.
-/

namespace Funge93

/-! ## Lines of the torus -/

/-- The number of cells on a line that is followed along a heading. -/
def Heading.span : Heading → Nat
  | east => Torus.width
  | west => Torus.width
  | south => Torus.height
  | north => Torus.height

namespace Place

theorem iterate_next (p : Place) (h : Heading) (n : Nat) :
    (fun p : Place => p.next h)^[n] p = wrap (p.x.val + n * h.dx) (p.y.val + n * h.dy) := by
  induction n with
  | zero => simp [wrap_self]
  | succ n ih =>
      rw [Function.iterate_succ_apply', ih, next_wrap]
      simp only [Nat.cast_succ, Int.add_mul, Int.one_mul, Int.add_assoc]

/-- Whoever follows a line comes back to where it began. -/
theorem isPeriodicPt_next (p : Place) (h : Heading) :
    Function.IsPeriodicPt (fun p : Place => p.next h) h.span p := by
  have hround : wrap (p.x.val + h.span * h.dx) (p.y.val + h.span * h.dy) =
      wrap p.x.val p.y.val := by
    cases h with
    | east => exact Plane.wrap_add_mul _ _ 1 0
    | west => exact Plane.wrap_add_mul _ _ (-1) 0
    | south => exact Plane.wrap_add_mul _ _ 0 1
    | north => exact Plane.wrap_add_mul _ _ 0 (-1)
  rw [Function.IsPeriodicPt, Function.IsFixedPt, iterate_next, hround, wrap_self]

end Place

theorem Heading.span_pos (h : Heading) : 0 < h.span := by
  cases h <;> decide

namespace Machine

variable {grid : Grid} {m m' : Machine}

/-! ## What lies ahead -/

/-- The place a number of cells ahead. -/
def ahead (m : Machine) (n : Nat) : Place :=
  (fun p : Place => p.next m.heading)^[n] m.place

/-- The character a number of cells ahead, the one under the pointer first. -/
def letter (m : Machine) (n : Nat) : Char :=
  m.grid.get (m.ahead n)

/-- The characters from the pointer on. -/
def text (m : Machine) (n : Nat) : List Char :=
  (List.range n).map m.letter

theorem text_succ (n : Nat) : m.text (n + 1) = m.text n ++ [m.letter n] := by
  rw [text, List.range_succ, List.map_append]
  rfl

theorem ahead_succ (n : Nat) : m.ahead (n + 1) = (m.ahead n).next m.heading :=
  Function.iterate_succ_apply' _ n _

theorem letter_mod (n : Nat) : m.letter (n % m.heading.span) = m.letter n := by
  rw [letter, ahead, (m.place.isPeriodicPt_next m.heading).iterate_mod_apply]
  rfl

/-- Whether a quote lies ahead on the line that the pointer follows. -/
def Enclosed (m : Machine) : Prop :=
  ∃ n, m.letter n = '\x22'

namespace Enclosed

/-- The line is looked at from one cell further on. A quote that was under the pointer is
the last cell ahead then. -/
theorem forward (h : m.Enclosed) (hgrid : m'.grid = m.grid) (hheading : m'.heading = m.heading)
    (hplace : m'.place = m.place.next m.heading) : m'.Enclosed := by
  obtain ⟨n, hquote⟩ := h
  have hpos := m.heading.span_pos
  have hnext : ∀ k, m'.letter k = m.letter (k + 1) := by
    intro k
    simp only [letter, ahead, hgrid, hheading, hplace, Function.iterate_succ_apply]
  refine ⟨n + (m.heading.span - 1), ?_⟩
  rw [hnext, ← letter_mod, show n + (m.heading.span - 1) + 1 = n + m.heading.span by omega,
    Nat.add_mod_right, letter_mod]
  exact hquote

theorem exists_lt (h : m.Enclosed) : ∃ n < m.heading.span, m.letter n = '\x22' := by
  obtain ⟨n, hquote⟩ := h
  exact ⟨n % m.heading.span, Nat.mod_lt _ m.heading.span_pos, m.letter_mod n |>.trans hquote⟩

end Enclosed

/-! ## A quote is ahead in every string -/

theorem enclosed_execute (hmode : m.stringMode = false) (source : Random.Source)
    (h : (m.execute source (Instruction.ofChar m.cell)).machine.stringMode = true) :
    (m.execute source (Instruction.ofChar m.cell)).machine.Enclosed := by
  cases hi : Instruction.ofChar m.cell with
  | quote =>
      have hcell : m.letter 0 = '\x22' := Instruction.eq_of_ofChar_eq hi rfl
      exact Enclosed.forward (m := m) ⟨0, hcell⟩ rfl rfl rfl
  | _ =>
      -- No other instruction begins a string.
      rw [hi] at h
      exact absurd (hmode.symm.trans h) Bool.false_ne_true

theorem enclosed_step (hm : m.stringMode = true → m.Enclosed) (source : Random.Source)
    (h : (m.step source).machine.stringMode = true) : (m.step source).machine.Enclosed := by
  rw [step] at h ⊢
  split at h
  · exact hm h
  · exact hm h
  · split at h
    · next hrequest => rw [if_pos hrequest]; exact hm h
    · next hcalm =>
        rw [if_neg hcalm]
        split at h
        · next hmode =>
            rw [if_pos hmode]
            simp only [quoting] at h ⊢
            split at h
            · cases h
            · next hother => rw [if_neg hother]; exact (hm hmode).forward rfl rfl rfl
        · next hmode =>
            rw [if_neg hmode]
            exact enclosed_execute (Bool.eq_false_iff.mpr hmode) source h
  · split at h
    · next hrequest => rw [if_pos hrequest]; exact hm h
    · next hcalm => rw [if_neg hcalm]; exact hm h

theorem enclosed_perform (hm : m.stringMode = true → m.Enclosed) {operation : Operation}
    {reply : Reply} (performs : m.Performs operation reply m') :
    m'.stringMode = true → m'.Enclosed := by
  cases performs with
  | step source => exact enclosed_step hm source
  | run hreturns =>
      obtain ⟨n, rfl, -⟩ := hreturns
      exact Step.proceed_keeps (P := fun m => m.stringMode = true → m.Enclosed)
        (fun _ source hm => enclosed_step hm source) n (enclosed_step hm _)
  | take htaken =>
      -- The pointer would move on, but along the same line.
      obtain ⟨input, -, -, rfl⟩ := of_resume_ok htaken
      intro h
      exact (hm h).forward rfl rfl rfl
  | refuse hrefused =>
      obtain ⟨-, -, rfl⟩ := of_resume_error hrefused
      exact hm

theorem Reachable.enclosed (h : Reachable grid m) : m.stringMode = true → m.Enclosed := by
  induction h with
  | start => exact nofun
  | perform _ performs ih => exact enclosed_perform ih performs
  | interrupt _ ih => exact ih

/-! ## Reading a string -/

/-- Attempts one after the other, each with a source of its own: the outcomes, and the
machine after the last. -/
def attempts (m : Machine) : List Random.Source → List Outcome × Machine
  | [] => ([], m)
  | source :: rest =>
    let after := (m.step source).machine.attempts rest
    ((m.step source).outcome :: after.1, after.2)

/-- The machine that has read a number of characters as part of a string. -/
def crossed (m : Machine) (n : Nat) : Machine :=
  { m with
    place := m.ahead n
    stack := ⟨((m.text n).map Word.ofChar).reverse ++ m.stack.values⟩
    steps := m.steps + n }

theorem attempts_append (sources more : List Random.Source) :
    m.attempts (sources ++ more) =
      ((m.attempts sources).1 ++ ((m.attempts sources).2.attempts more).1,
        ((m.attempts sources).2.attempts more).2) := by
  induction sources generalizing m with
  | nil => rfl
  | cons source rest ih =>
      simp only [List.cons_append, attempts, ih]

section String

variable (hrunning : m.status = .running) (hcalm : m.interruptRequested = false)
  (hmode : m.stringMode = true)

include hrunning hcalm hmode

theorem step_crossed (n : Nat) (source : Random.Source) :
    (m.crossed n).step source =
      completing source ((m.crossed n).quoting (m.letter n)) := by
  rw [step, show (m.crossed n).status = .running from hrunning]
  simp only [show (m.crossed n).interruptRequested = false from hcalm,
    show (m.crossed n).stringMode = true from hmode, Bool.false_eq_true, if_false, if_true]
  rfl

theorem step_crossed_of_ne {n : Nat} (h : m.letter n ≠ '\x22') (source : Random.Source) :
    (m.crossed n).step source =
      ⟨.did (.pushed (Word.ofChar (m.letter n))), m.crossed (n + 1), source⟩ := by
  rw [step_crossed hrunning hcalm hmode, quoting, if_neg h]
  simp only [completing, pushing, finish, push, Stack.push, Machine.forward, crossed, text_succ,
    ahead_succ, List.map_append, List.map_singleton, List.reverse_append,
    List.reverse_singleton, List.cons_append, List.nil_append, Nat.add_assoc]

theorem step_crossed_of_eq {n : Nat} (h : m.letter n = '\x22') (source : Random.Source) :
    (m.crossed n).step source =
      ⟨.did (.stringMode false),
        { m.crossed n with
          stringMode := false
          place := m.ahead (n + 1)
          steps := m.steps + (n + 1) }, source⟩ := by
  rw [step_crossed hrunning hcalm hmode, quoting, if_pos h]
  simp only [completing, finish, Machine.forward, crossed, ahead_succ, Nat.add_assoc]

/-- As long as no quote is met each attempt pushes the character that it finds. -/
theorem attempts_crossing (sources : List Random.Source)
    (h : ∀ i < sources.length, m.letter i ≠ '\x22') :
    m.attempts sources =
      ((m.text sources.length).map fun c => .did (.pushed (Word.ofChar c)),
        m.crossed sources.length) := by
  induction sources using List.reverseRecOn with
  | nil => rfl
  | append_singleton sources source ih =>
      rw [List.length_append, List.length_singleton] at h ⊢
      rw [attempts_append, ih fun i hi => h i (by omega), attempts, attempts]
      simp only [step_crossed_of_ne hrunning hcalm hmode (h _ (Nat.lt_succ_self _)), text_succ,
        List.map_append, List.map_singleton]

end String

/-- Inside a string the first quote ahead is less than a whole line away. Unless it has
been asked to stop, a machine pushes the codes of the characters before that quote, one
by one and whatever they would mean outside a string, and the attempt that finds the
quote ends the string and leaves the pointer behind it. Nothing else has changed, at any
time in between. No source matters to this. -/
theorem string_ends_at_first_quote (h : Reachable grid m) (hrunning : m.status = .running)
    (hmode : m.stringMode = true) :
    ∃ j < m.heading.span, (∀ i < j, m.letter i ≠ '\x22') ∧ m.letter j = '\x22' ∧
      (m.interruptRequested = false →
        (∀ sources, sources.length ≤ j →
          m.attempts sources =
            ((m.text sources.length).map fun c => .did (.pushed (Word.ofChar c)),
              m.crossed sources.length)) ∧
        ∀ sources, sources.length = j + 1 →
          m.attempts sources =
            ((m.text j).map (fun c => .did (.pushed (Word.ofChar c))) ++
                [.did (.stringMode false)],
              { m with
                stringMode := false
                place := m.ahead (j + 1)
                stack := ⟨((m.text j).map Word.ofChar).reverse ++ m.stack.values⟩
                steps := m.steps + (j + 1) })) := by
  obtain ⟨n, hlt, hn⟩ := (h.enclosed hmode).exists_lt
  have hquote : ∃ j, m.letter j = '\x22' := ⟨n, hn⟩
  have hfirst : ∀ i < Nat.find hquote, m.letter i ≠ '\x22' := fun i hi => Nat.find_min hquote hi
  refine ⟨Nat.find hquote, Nat.lt_of_le_of_lt (Nat.find_min' hquote hn) hlt, hfirst,
    Nat.find_spec hquote, ?_⟩
  intro hcalm
  have hcross : ∀ sources : List Random.Source, sources.length ≤ Nat.find hquote →
      m.attempts sources = _ := fun sources hle =>
    attempts_crossing hrunning hcalm hmode sources fun i hi => hfirst i (by omega)
  refine ⟨hcross, ?_⟩
  intro sources hlength
  obtain ⟨before, last, rfl⟩ : ∃ before last, sources = before ++ [last] := by
    have hne : sources ≠ [] := by
      rintro rfl
      cases hlength
    exact ⟨sources.dropLast, sources.getLast hne, (List.dropLast_append_getLast hne).symm⟩
  rw [List.length_append, List.length_singleton] at hlength
  have hbefore : before.length = Nat.find hquote := by omega
  rw [attempts_append, hcross before hbefore.le, hbefore, attempts, attempts]
  simp only [step_crossed_of_eq hrunning hcalm hmode (Nat.find_spec hquote)]
  rfl

/-- A string that is ended by the quote that it began with: read southwards, over the
edge of the torus and the character that turned the pointer. -/
theorem string_ends_at_first_quote_own :
    let grid := Grid.ofLines [['v'], ['\x22']]
    let turned := ((Machine.start grid).step (.seeded 0)).machine
    let m := (turned.step (.seeded 0)).machine
    let sources := List.replicate 25 (.seeded 0)
    Reachable grid m ∧ m.status = .running ∧ m.stringMode = true ∧
      m.interruptRequested = false ∧ (m.attempts sources).2.stringMode = false ∧
      (m.attempts sources).2.place = m.ahead 25 ∧
      (m.attempts sources).2.stack.values = 118 :: List.replicate 23 32 := by
  intro grid turned m sources
  have hreachable : Reachable grid m := .perform (.perform .start (.step _)) (.step _)
  have hrunning : m.status = .running := by decide +kernel
  have hmode : m.stringMode = true := by decide +kernel
  have hcalm : m.interruptRequested = false := by decide +kernel
  have hclear : ∀ i < 24, m.letter i ≠ '\x22' := by decide +kernel
  have hown : m.letter 24 = '\x22' := by decide +kernel
  have hstack : ((m.text 24).map Word.ofChar).reverse ++ m.stack.values =
      118 :: List.replicate 23 32 := by decide +kernel
  obtain ⟨j, -, hfirst, hquote, hreads⟩ :=
    string_ends_at_first_quote hreachable hrunning hmode
  obtain rfl : j = 24 := by
    rcases Nat.lt_trichotomy j 24 with hlt | heq | hgt
    · exact absurd hquote (hclear j hlt)
    · exact heq
    · exact absurd hown (hfirst 24 hgt)
  have hends := (hreads hcalm).2 sources rfl
  rw [hends]
  exact ⟨hreachable, hrunning, hmode, hcalm, rfl, rfl, hstack⟩

end Machine

end Funge93
