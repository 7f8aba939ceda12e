import Funge93.Proofs.SessionCalls

/-!
# What a session remembers

A session keeps two things that its machine would tell as well: whether the run is
over, and where the latest instruction has written. Both are set when an attempt is
noted, and only then. A line that is taken changes the machine without a note of this
kind, so after it the session remembers what it did before.

That does no harm. A line is only taken from a run that waits. The attempt that found
it waiting has written nothing, and nothing since has set the place again: whatever the
status is, a machine that is not running is shown by a session without a place
(`Remembers.still`). So the place that is remembered is always the one that the latest
attempt or the latest line has written to, and what it wrote is still there.
-/

namespace Funge93

theorem Outcome.written?_eq_some_iff {outcome : Outcome} {place : Place} :
    outcome.written? = some place ↔ ∃ c, outcome = .did (.stored place c) := by
  constructor
  · intro h
    cases outcome with
    | did event =>
        cases event with
        | stored place' c =>
            cases h
            exact ⟨c, rfl⟩
        | _ => cases h
    | _ => cases h
  · rintro ⟨c, rfl⟩
    rfl

/-- What came of a call, if it was an attempt or a line that was taken. -/
def Answer.outcome? : Answer → Option Outcome
  | .came outcome => some outcome
  | _ => none

/-- The latest attempt or line that was taken, and what came of it. -/
def lastCarriedOut (told : List (Call × Answer)) : Option (Call × Outcome) :=
  (told.filterMap fun t => t.2.outcome?.map (t.1, ·)).getLast?

theorem lastCarriedOut_came (told : List (Call × Answer)) (c : Call) (outcome : Outcome) :
    lastCarriedOut (told ++ [(c, .came outcome)]) = some (c, outcome) := by
  rw [lastCarriedOut, List.filterMap_append]
  exact List.getLast?_concat

theorem lastCarriedOut_of_outcome? (told : List (Call × Answer)) (c : Call)
    {answer : Answer} (h : answer.outcome? = none) :
    lastCarriedOut (told ++ [(c, answer)]) = lastCarriedOut told := by
  rw [lastCarriedOut, List.filterMap_append, List.filterMap_cons_none (by rw [h]; rfl),
    List.filterMap_nil, List.append_nil]
  rfl

namespace Session

/-- What holds of a session after the calls and answers of a transcript. -/
structure Remembers (told : List (Call × Answer)) (s : Session) : Prop where
  finished : s.finished = s.machine.status.isOver
  written : ∀ place, s.lastWrite = some place ↔
    ∃ c, lastCarriedOut told = some (.step, .did (.stored place c))
  kept : ∀ place c, lastCarriedOut told = some (.step, .did (.stored place c)) →
    s.machine.grid.get place = c
  still : s.machine.status ≠ .running → s.lastWrite = none

namespace Remembers

variable {told : List (Call × Answer)} {s s' : Session} {c : Call} {answer : Answer}

theorem start (grid : Grid) (source : Random.Source) :
    Remembers [] (Session.start grid source) where
  finished := rfl
  written place := by
    constructor
    · intro h
      cases h
    · rintro ⟨c, h⟩
      cases h
  kept place c h := by cases h
  still h := rfl

/-- An attempt sets both anew. -/
theorem of_note {outcome : Outcome} (s : Session)
    (hfinished : (s.finished || outcome.isFinal) = s.machine.status.isOver)
    (hkept : ∀ place c, outcome = .did (.stored place c) → s.machine.grid.get place = c)
    (hstill : s.machine.status ≠ .running → outcome.written? = none) :
    Remembers (told ++ [(.step, .came outcome)]) (s.note outcome) where
  finished := by rw [finished_note, machine_note, hfinished]
  written place := by
    rw [lastWrite_note, lastCarriedOut_came, Outcome.written?_eq_some_iff]
    simp only [Option.some.injEq, Prod.mk.injEq, true_and]
  kept place c h := by
    rw [lastCarriedOut_came] at h
    rw [machine_note]
    exact hkept place c (Prod.mk.inj (Option.some.inj h)).2
  still h := by
    rw [lastWrite_note]
    rw [machine_note] at h
    exact hstill h

/-- Nothing is remembered of a call that carried nothing out. -/
theorem unheard (h : Remembers told s) (hanswer : answer.outcome? = none) :
    Remembers (told ++ [(c, answer)]) s := by
  have hlatest := lastCarriedOut_of_outcome? told c hanswer
  refine ⟨h.finished, ?_, ?_, h.still⟩
  · rw [hlatest]
    exact h.written
  · rw [hlatest]
    exact h.kept

theorem called (h : Remembers told s) (hcalled : s.Called c answer s') :
    Remembers (told ++ [(c, answer)]) s' := by
  cases hcalled with
  | @completed event m source running runs written =>
      have hfinished := h.finished
      rw [running] at hfinished
      refine of_note _ ?_ ?_ ?_
      · show (s.finished || false) = m.status.isOver
        rw [hfinished, runs]
        rfl
      · intro place c hstored
        exact written place c (Outcome.did.inj hstored)
      · intro hstopped
        exact absurd runs hstopped
  | @suspended outcome hsuspended lasting =>
      refine of_note _ ?_ ?_ ?_
      · show (s.finished || outcome.isFinal) = outcome.status.isOver
        rw [h.finished, Outcome.isOver_status]
        cases hover : s.machine.status.isOver with
        | false => rfl
        | true =>
            have hfinal := outcome.isOver_status
            rw [lasting hover, hover] at hfinal
            exact hfinal
      · rintro place c rfl
        cases hsuspended
      · intro _
        cases outcome with
        | did event => cases hsuspended
        | _ => rfl
  | @taken input line awaiting =>
      -- The line is noted without a place, which is right only because there was none.
      have hwrite : s.lastWrite = none :=
        h.still (by rw [awaiting]; exact Status.noConfusion)
      have hfinished := h.finished
      rw [awaiting] at hfinished
      refine ⟨hfinished, ?_, ?_, fun _ => hwrite⟩
      · intro place
        rw [lastCarriedOut_came]
        constructor
        · intro hplace
          cases hwrite.symm.trans hplace
        · rintro ⟨c, hlatest⟩
          cases hlatest
      · intro place c hlatest
        rw [lastCarriedOut_came] at hlatest
        cases hlatest
  | refused busy => exact h.unheard rfl
  | interrupted =>
      have hsame : Remembers told s.interrupt := ⟨h.finished, h.written, h.kept, h.still⟩
      exact hsame.unheard rfl

theorem perform (grid : Grid) (source : Random.Source) (calls : List Call) :
    Remembers ((Session.start grid source).transcript calls)
      ((Session.start grid source).perform calls).2 :=
  perform_keeps (fun _ s c h => h.called (s.called c)) calls (start grid source)

end Remembers

/-- After any history a session takes the run to be over exactly if it is, and
remembers a place exactly if the latest attempt or line has written to it, which then
was an attempt. The place is on the torus, the character that was written is still
there, and no place is remembered while the program waits or when it is over. -/
theorem session_remembers_truly (grid : Grid) (source : Random.Source)
    (calls : List Call) :
    let told := (Session.start grid source).transcript calls
    let s := ((Session.start grid source).perform calls).2
    (s.finished = true ↔ s.machine.status = .halted ∨ s.machine.status = .interrupted) ∧
      (∀ place, s.lastWrite = some place ↔
        ∃ c, lastCarriedOut told = some (.step, .did (.stored place c))) ∧
      (∀ place c, lastCarriedOut told = some (.step, .did (.stored place c)) →
        (place.x.val < 80 ∧ place.y.val < 25) ∧ s.machine.grid.get place = c) ∧
      (s.awaited?.isSome = true ∨ s.finished = true → s.lastWrite = none) := by
  intro told s
  have h : Remembers told s := .perform grid source calls
  refine ⟨?_, h.written, ?_, ?_⟩
  · rw [h.finished]
    exact Status.isOver_iff
  · intro place c hlatest
    exact ⟨⟨place.x.isLt, place.y.isLt⟩, h.kept place c hlatest⟩
  · intro hstopped
    refine h.still ?_
    intro hrunning
    rcases hstopped with hwaits | hover
    · rw [awaited?, hrunning] at hwaits
      cases hwaits
    · rw [h.finished, hrunning] at hover
      cases hover

/-- A program that writes into its second row and then asks for a number. -/
theorem session_remembers_truly_written :
    let grid := Grid.ofLines [['5', '1', '2', 'p', '&']]
    let place := Place.wrap 2 1
    let writing : List Call := [.step, .step, .step, .step, .interrupt, .resume "7"]
    let asking : List Call := [.step, .step, .step, .step, .step]
    ((Session.start grid (.seeded 0)).perform writing).2.lastWrite = some place ∧
      ((Session.start grid (.seeded 0)).perform writing).2.machine.grid.get place = '\x05' ∧
      ((Session.start grid (.seeded 0)).perform asking).2.awaited? = some .integer ∧
      ((Session.start grid (.seeded 0)).perform asking).2.lastWrite = none := by
  intro grid place writing asking
  have hlatest : lastCarriedOut ((Session.start grid (.seeded 0)).transcript writing) =
      some (.step, .did (.stored place '\x05')) := by decide +kernel
  have hwaits : ((Session.start grid (.seeded 0)).perform asking).2.awaited? =
      some .integer := by decide +kernel
  obtain ⟨-, hwritten, hkept, -⟩ := session_remembers_truly grid (.seeded 0) writing
  obtain ⟨-, -, -, hnone⟩ := session_remembers_truly grid (.seeded 0) asking
  refine ⟨(hwritten place).mpr ⟨_, hlatest⟩, (hkept place _ hlatest).2, hwaits, ?_⟩
  exact hnone (.inl (Option.isSome_of_mem hwaits))

end Session

end Funge93
