import Funge93.Proofs.SessionCalls

/-!
# Only a completed instruction moves the machine

Between two completed instructions a machine stands still. An attempt that finds a
request for input, the end of the program or a request to stop leaves all but the
status as it was: it has neither moved nor taken anything from the stack, and no
random turn was drawn. A machine that waits or is over does not even change its status
when it is attempted again. A line that nobody waits for is refused before anything
else is done. One that is taken completes the instruction that asked, which pushes the
value, moves the pointer on by one cell, and is counted.

`rest` is what of a run can be told apart once its status and the request to stop are
left out. It is the same after every call that completes nothing, so it is the same
after any number of them.
-/

namespace Funge93

namespace Engine

variable (e : Engine) (line : String)

/-- The run without its status and without the request to stop. -/
def rest (e : Engine) : Engine :=
  { e with machine := { e.machine with status := .running, interruptRequested := false } }

theorem call_step_of_suspended {outcome : Outcome}
    (hcame : (e.call .step).1 = .came outcome) (h : outcome.isCompletion = false) :
    (e.call .step).2 = { e with machine := { e.machine with status := outcome.status } } := by
  have houtcome : (e.machine.step e.source).outcome = outcome := Answer.came.inj hcame
  show Engine.mk (e.machine.step e.source).machine (e.machine.step e.source).source = _
  rw [e.machine.step_of_suspended e.source houtcome h]

/-- A run that waits or is over, and was not asked to stop, is left alone. -/
theorem call_step_of_stopped (h : e.machine.status ≠ .running)
    (calm : e.machine.interruptRequested = false) : (e.call .step).2 = e := by
  obtain ⟨hstatus, -⟩ := e.machine.step_of_stopped e.source h (.inr calm)
  have hsuspended : (e.machine.step e.source).outcome.isCompletion = false := by
    generalize (e.machine.step e.source).outcome = outcome at hstatus
    cases outcome with
    | did event => exact absurd hstatus.symm h
    | _ => rfl
  rw [e.call_step_of_suspended rfl hsuspended, hstatus]

theorem call_resume_refused_iff (error : Machine.NotAwaiting) :
    (e.call (.resume line)).1 = .refused error ↔
      (∀ input, e.machine.status ≠ .awaiting input) ∧ error = ⟨e.machine.status⟩ := by
  rw [← Status.awaited?_eq_none_iff, ← Machine.resume_refused_iff]
  exact Answer.ofLine_eq_refused_iff

theorem call_resume_refused {error : Machine.NotAwaiting}
    (h : (e.call (.resume line)).1 = .refused error) : (e.call (.resume line)).2 = e := by
  show { e with machine := (e.machine.resume line).2 } = e
  rw [Machine.resume_of_refused (Answer.ofLine_eq_refused_iff.mp h)]

theorem call_resume_came {outcome : Outcome}
    (h : (e.call (.resume line)).1 = .came outcome) :
    ∃ input, e.machine.status = .awaiting input ∧
      outcome = .did (.pushed (input.read line)) ∧
      (e.call (.resume line)).2 = { e with machine := { e.machine with
        stack := e.machine.stack.push (input.read line)
        place := e.machine.place.next e.machine.heading
        steps := e.machine.steps + 1
        status := .running } } := by
  have hok : e.machine.resume line = (.ok outcome, (e.machine.resume line).2) :=
    Prod.ext (Answer.ofLine_eq_came_iff.mp h) rfl
  obtain ⟨input, hstatus, houtcome, hafter⟩ := Machine.of_resume_ok hok
  refine ⟨input, hstatus, houtcome, ?_⟩
  show { e with machine := (e.machine.resume line).2 } = _
  rw [hafter]
  rfl

/-! ## Histories -/

theorem rest_call {c : Call} (h : (e.call c).1.event? = none) :
    (e.call c).2.rest = e.rest := by
  cases c with
  | step =>
      have hsuspended : (e.machine.step e.source).outcome.isCompletion = false := by
        have hevent : (e.machine.step e.source).outcome.event? = none := h
        generalize (e.machine.step e.source).outcome = outcome at hevent
        cases outcome with
        | did event => cases hevent
        | _ => rfl
      rw [e.call_step_of_suspended rfl hsuspended]
      rfl
  | resume line =>
      have hoffered := e.machine.offered line
      simp only [call] at h ⊢
      generalize e.machine.resume line = r at h hoffered
      cases hoffered with
      | taken awaiting => cases h
      | refused busy => rfl
  | interrupt => rfl

theorem rest_perform (calls : List Call) (h : eventsOf (e.perform calls).1 = []) :
    (e.perform calls).2.rest = e.rest := by
  induction calls generalizing e with
  | nil => rfl
  | cons c more ih =>
      have hevents : ((e.call c).1 :: ((e.call c).2.perform more).1).filterMap
          Answer.event? = [] := h
      cases hevent : (e.call c).1.event? with
      | some event =>
          rw [List.filterMap_cons_some hevent] at hevents
          cases hevents
      | none =>
          rw [List.filterMap_cons_none hevent] at hevents
          exact (ih (e.call c).2 hevents).trans (e.rest_call hevent)

end Engine

namespace Session

variable (s : Session)

theorem supply_refused {line : String} {error : Machine.NotAwaiting}
    (h : (s.supply line).1 = .error error) : (s.supply line).2 = s := by
  rcases s.machine.status.awaiting_or_busy with ⟨input, hstatus⟩ | hbusy
  · rw [s.supply_of_awaiting hstatus] at h
    cases h
  · rw [s.supply_of_busy hbusy]

/-- A session, the run that it shows, a line and a history. An attempt on the run that
completes nothing changes its status and nothing else, and not even that if the run
waits or is over and was not asked to stop. A line is refused exactly if the run does
not wait, with its status. The machine and the session that come back with a refusal are
the ones that the line was offered to. A line that is taken changes the stack, the place,
the count and the status. A session answers as its run does. A history that completes
nothing leaves all but the status and the request to stop as it was. -/
theorem only_completion_moves (line : String) (calls : List Call) :
    let e := s.engine
    let m := s.machine
    (∀ outcome, (e.call .step).1 = .came outcome → outcome.isCompletion = false →
      (e.call .step).2 = { e with machine := { m with status := outcome.status } }) ∧
    (m.status ≠ .running → m.interruptRequested = false → (e.call .step).2 = e) ∧
    (∀ error, (e.call (.resume line)).1 = .refused error ↔
      (∀ input, m.status ≠ .awaiting input) ∧ error = ⟨m.status⟩) ∧
    (∀ error, (m.resume line).1 = .error error → (m.resume line).2 = m) ∧
    (∀ error, (s.supply line).1 = .error error → (s.supply line).2 = s) ∧
    (∀ error, (e.call (.resume line)).1 = .refused error →
      (e.call (.resume line)).2 = e ∧ (s.call (.resume line)).2 = s) ∧
    (∀ outcome, (e.call (.resume line)).1 = .came outcome →
      ∃ input, m.status = .awaiting input ∧ outcome = .did (.pushed (input.read line)) ∧
        (e.call (.resume line)).2 = { e with machine := { m with
          stack := m.stack.push (input.read line)
          place := m.place.next m.heading
          steps := m.steps + 1
          status := .running } }) ∧
    (∀ c, (s.call c).1 = (e.call c).1 ∧ (s.call c).2.engine = (e.call c).2) ∧
    (eventsOf (e.perform calls).1 = [] → (e.perform calls).2.rest = e.rest) := by
  intro e m
  refine ⟨?_, ?_, ?_, ?_, ?_, ?_, ?_, s.engine_call, e.rest_perform calls⟩
  · intro outcome hcame hsuspended
    exact e.call_step_of_suspended hcame hsuspended
  · exact e.call_step_of_stopped
  · exact e.call_resume_refused_iff line
  · intro error hrefused
    exact Machine.resume_of_refused hrefused
  · intro error hrefused
    exact s.supply_refused hrefused
  · intro error hrefused
    refine ⟨e.call_resume_refused line hrefused, ?_⟩
    rw [← (s.engine_call (.resume line)).1] at hrefused
    exact s.supply_refused (Answer.ofLine_eq_refused_iff.mp hrefused)
  · intro outcome hcame
    exact e.call_resume_came line hcame

/-- A program that asks for a number at once, before and after it has asked. -/
theorem only_completion_moves_asking :
    let s := Session.start (Grid.ofLines [['&', '@']]) (.seeded 0)
    let waiting := (s.call .step).2
    (s.engine.call .step).2 =
        { s.engine with machine := { s.machine with status := .awaiting .integer } } ∧
      (s.call (.resume "7")).2 = s ∧
      (waiting.engine.call .step).2 = waiting.engine ∧
      (waiting.engine.call (.resume "7")).2.machine.stack = Stack.empty.push 7 ∧
      (waiting.engine.perform [.step, .interrupt, .step]).2.rest = waiting.engine.rest := by
  intro s waiting
  have hasks : (s.engine.call .step).1 = .came (.awaits .integer) := by decide +kernel
  have hrefused : (s.engine.call (.resume "7")).1 = .refused ⟨.running⟩ := by decide +kernel
  have hwaiting : waiting.machine.status = .awaiting .integer := by decide +kernel
  have htaken : (waiting.engine.call (.resume "7")).1 = .came (.did (.pushed 7)) := by
    decide +kernel
  have hnothing :
      eventsOf (waiting.engine.perform [.step, .interrupt, .step]).1 = [] := by
    decide +kernel
  obtain ⟨hstep, -, -, -, -, hrefuse, -⟩ := s.only_completion_moves "7" []
  obtain ⟨-, hagain, -, -, -, -, htake, -, hhistory⟩ :=
    waiting.only_completion_moves "7" [.step, .interrupt, .step]
  refine ⟨hstep _ hasks rfl, (hrefuse _ hrefused).2, ?_, ?_, hhistory hnothing⟩
  · exact hagain (by rw [hwaiting]; exact Status.noConfusion) (by decide +kernel)
  · obtain ⟨input, -, houtcome, hafter⟩ := htake _ htaken
    have hvalue : 7 = input.read "7" := Event.pushed.inj (Outcome.did.inj houtcome)
    rw [hafter, ← hvalue]
    rfl

end Session

end Funge93
