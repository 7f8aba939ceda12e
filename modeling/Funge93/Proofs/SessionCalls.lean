import Funge93.Proofs.Attempt

/-!
# Calls on a session

A session is called like the run that it shows, and answers as the run does: what it
notes about itself never reaches the machine. `called` says once and for all what a
call can come to. An attempt completes an instruction, or it does nothing but set the
status, to the one that was set already if the run was over. A line is taken from
whoever waits for one, and otherwise refused with nothing done. The session then
differs from what it was by that and by its notes, so whatever is to hold of sessions
throughout a history is looked at in these five cases.
-/

namespace Funge93

/-- Whether a run is over. -/
def Status.isOver : Status → Bool
  | halted => true
  | interrupted => true
  | _ => false

theorem Status.isOver_iff {status : Status} :
    status.isOver = true ↔ status = .halted ∨ status = .interrupted := by
  cases status <;> simp [isOver]

theorem Status.awaited?_eq_none_iff {status : Status} :
    status.awaited? = none ↔ ∀ input, status ≠ .awaiting input := by
  cases status <;> simp [awaited?]

@[simp] theorem Outcome.isOver_status (outcome : Outcome) :
    outcome.status.isOver = outcome.isFinal := by
  cases outcome <;> rfl

namespace Machine

variable (m : Machine) (source : Random.Source)

/-- A run that is over, or waits and has not been asked to stop, stays as it is. -/
theorem step_of_stopped (hstopped : m.status ≠ .running)
    (h : m.status.isOver = true ∨ m.interruptRequested = false) :
    (m.step source).outcome.status = m.status ∧ (m.step source).machine = m := by
  rw [step]
  split
  · next hstatus => exact ⟨hstatus.symm, rfl⟩
  · next hstatus => exact ⟨hstatus.symm, rfl⟩
  · next hstatus => exact absurd hstatus hstopped
  · next input hstatus =>
      rw [hstatus] at h
      rcases h with hover | hcalm
      · cases hover
      · rw [if_neg (by rw [hcalm]; exact Bool.false_ne_true)]
        exact ⟨hstatus.symm, rfl⟩

/-- What was stored is found where it was stored. -/
theorem get_of_stored {place : Place} {c : Char}
    (h : (m.step source).outcome = .did (.stored place c)) :
    (m.step source).machine.grid.get place = c := by
  have hview := m.onlooker_step source
  rw [h] at hview
  have hgrid : (m.step source).machine.grid = m.grid.set place c :=
    congrArg Onlooker.grid hview
  rw [hgrid, Grid.get_set, if_pos rfl]

end Machine

namespace Session

/-- Does to a session what the owner of its run calls for. -/
def call (s : Session) : Call → Answer × Session
  | .step =>
    let r := s.advance
    (.came r.1, r.2)
  | .resume line =>
    let r := s.supply line
    (.ofLine r.1, r.2)
  | .interrupt => (.noted, s.interrupt)

def perform (s : Session) (calls : List Call) : List Answer × Session :=
  Funge93.perform call s calls

/-- The calls of a history, each with its answer. -/
def transcript (s : Session) (calls : List Call) : List (Call × Answer) :=
  Funge93.transcript call s calls

/-- The run that a session shows. -/
def engine (s : Session) : Engine :=
  ⟨s.machine, s.source⟩

variable (s : Session)

/-! ## The run behind a session -/

theorem engine_call (c : Call) :
    (s.call c).1 = (s.engine.call c).1 ∧ (s.call c).2.engine = (s.engine.call c).2 := by
  cases c with
  | step =>
      refine ⟨rfl, ?_⟩
      show Engine.mk s.advance.2.machine s.advance.2.source = _
      rw [machine_advance, source_advance]
      rfl
  | resume line =>
      simp only [call, Engine.call, supply, engine]
      rcases s.machine.resume line with ⟨error | outcome, m'⟩
      · exact ⟨rfl, rfl⟩
      · refine ⟨rfl, ?_⟩
        simp only [noteInput]
        split <;> rfl
  | interrupt => exact ⟨rfl, rfl⟩

/-! ## What a call comes to -/

/-- What comes of a call on a session: the answer, and the session after it. -/
inductive Called (s : Session) : Call → Answer → Session → Prop where
  | completed {event : Event} {m : Machine} {source : Random.Source}
      (running : s.machine.status = .running) (runs : m.status = .running)
      (written : ∀ place c, event = .stored place c → m.grid.get place = c) :
      Called s .step (.came (.did event))
        ({ s with machine := m, source := source }.note (.did event))
  | suspended {outcome : Outcome} (h : outcome.isCompletion = false)
      (lasting : s.machine.status.isOver = true → outcome.status = s.machine.status) :
      Called s .step (.came outcome)
        ({ s with machine := { s.machine with status := outcome.status } }.note outcome)
  | taken {input : Input} {line : String} (awaiting : s.machine.status = .awaiting input) :
      Called s (.resume line) (.came (.did (.pushed (input.read line))))
        ({ s with machine := s.machine.answered input line }.noteInput (some input)
          (.did (.pushed (input.read line))))
  | refused {line : String} (busy : s.machine.status.awaited? = none) :
      Called s (.resume line) (.refused ⟨s.machine.status⟩) s
  | interrupted : Called s .interrupt .noted s.interrupt

theorem called_step : s.Called .step (.came s.advance.1) s.advance.2 := by
  have houtcome : s.advance.1 = (s.machine.step s.source).outcome := rfl
  cases hcompletion : s.advance.1.isCompletion with
  | true =>
      obtain ⟨event, hdid⟩ : ∃ event, s.advance.1 = .did event := by
        cases h : s.advance.1 with
        | did event => exact ⟨event, rfl⟩
        | _ => rw [h] at hcompletion; cases hcompletion
      obtain ⟨hrunning, hruns⟩ := s.machine.running_of_did s.source (houtcome ▸ hdid)
      have hsession : s.advance.2 = ({ s with
          machine := (s.machine.step s.source).machine,
          source := (s.machine.step s.source).source } : Session).note (.did event) := by
        rw [← hdid]
        rfl
      rw [hdid, hsession]
      refine .completed hrunning hruns ?_
      rintro place c rfl
      exact s.machine.get_of_stored s.source (houtcome ▸ hdid)
  | false =>
      have hstep := s.machine.step_of_suspended s.source houtcome.symm hcompletion
      have hsession : s.advance.2 = ({ s with
          machine := { s.machine with status := s.advance.1.status } } : Session).note
            s.advance.1 := by
        show ({ s with
          machine := (s.machine.step s.source).machine,
          source := (s.machine.step s.source).source } : Session).note _ = _
        rw [hstep]
      rw [hsession]
      refine .suspended hcompletion ?_
      intro hover
      refine (s.machine.step_of_stopped s.source ?_ (.inl hover)).1
      intro hrunning
      rw [hrunning] at hover
      cases hover

theorem called (c : Call) : s.Called c (s.call c).1 (s.call c).2 := by
  cases c with
  | step => exact s.called_step
  | resume line =>
      rcases s.machine.status.awaiting_or_busy with ⟨input, hstatus⟩ | hbusy
      · simp only [call, s.supply_of_awaiting hstatus line]
        exact .taken hstatus
      · simp only [call, s.supply_of_busy hbusy line]
        exact .refused hbusy
  | interrupt => exact .interrupted

end Session

end Funge93
