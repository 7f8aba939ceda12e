import Funge93.Machine.Step

/-!
# Calls

Whoever owns a run can do three things to it: attempt an instruction, answer a
request with a line, and ask that the run be stopped. A history is a list of
such calls in any order, and what it shows is the list of the answers.

`perform` carries out a history on anything that answers calls, so that one
induction serves all who compare two such things. `perform_simulation` is that
induction: a relation that every single call keeps, with equal answers, is kept
by every history. `view_perform` is the other one in use. A view of the state
that every call changes as its event says, and leaves alone if it has none, is
at the end of a history what the events make of the view at its start. `perform_map`
is for a change of the state that makes no difference to what comes of it. Where the
calls matter too, and what was answered before, there is the transcript, and
`perform_keeps` for what holds between a transcript and the state that it leads to.
-/

namespace Funge93

inductive Call where
  | step
  | resume (line : String)
  | interrupt
deriving DecidableEq

inductive Answer where
  /-- What came of an attempt, or of a line that was taken. -/
  | came (outcome : Outcome)
  | refused (error : Machine.NotAwaiting)
  /-- A request to stop returns nothing. -/
  | noted
deriving DecidableEq

/-- The answer to whoever has offered a line. -/
def Answer.ofLine : Except Machine.NotAwaiting Outcome → Answer
  | .ok outcome => .came outcome
  | .error error => .refused error

theorem Answer.ofLine_eq_came_iff {r : Except Machine.NotAwaiting Outcome}
    {outcome : Outcome} : Answer.ofLine r = .came outcome ↔ r = .ok outcome := by
  cases r <;> simp [ofLine]

theorem Answer.ofLine_eq_refused_iff {r : Except Machine.NotAwaiting Outcome}
    {error : Machine.NotAwaiting} : Answer.ofLine r = .refused error ↔ r = .error error := by
  cases r <;> simp [ofLine]

def Outcome.event? : Outcome → Option Event
  | .did event => some event
  | _ => none

/-- The event of a call that completed an instruction. -/
def Answer.event? : Answer → Option Event
  | .came outcome => outcome.event?
  | _ => none

/-- The events in a list of answers, in order. -/
def eventsOf (answers : List Answer) : List Event :=
  answers.filterMap Answer.event?

section History

variable {σ τ α : Type} {call : σ → Call → Answer × σ}
  {call' : τ → Call → Answer × τ}

/-- Carries out calls one after the other: the answers, and the state after the
last call. -/
def perform (call : σ → Call → Answer × σ) : σ → List Call → List Answer × σ
  | s, [] => ([], s)
  | s, c :: rest =>
    let answered := call s c
    let after := perform call answered.2 rest
    (answered.1 :: after.1, after.2)

theorem perform_simulation (R : σ → τ → Prop)
    (hcall : ∀ s t c, R s t →
      (call s c).1 = (call' t c).1 ∧ R (call s c).2 (call' t c).2)
    (calls : List Call) : ∀ {s t}, R s t →
      (perform call s calls).1 = (perform call' t calls).1 ∧
        R (perform call s calls).2 (perform call' t calls).2 := by
  induction calls with
  | nil =>
      intro s t h
      exact ⟨rfl, h⟩
  | cons c rest ih =>
      intro s t h
      obtain ⟨hanswer, hafter⟩ := hcall s t c h
      obtain ⟨hanswers, hend⟩ := ih hafter
      simp only [perform]
      exact ⟨by rw [hanswer, hanswers], hend⟩

theorem view_perform (view : σ → α) (hear : α → Event → α)
    (hcall : ∀ s c, view (call s c).2 =
      (call s c).1.event?.elim (view s) (hear (view s)))
    (calls : List Call) : ∀ s, view (perform call s calls).2 =
      (eventsOf (perform call s calls).1).foldl hear (view s) := by
  induction calls with
  | nil => intro s; rfl
  | cons c rest ih =>
      intro s
      simp only [perform, eventsOf, List.filterMap_cons]
      rw [ih, hcall, eventsOf]
      cases (call s c).1.event? <;> rfl

/-- A change of the state that every call carries over, with the same answer, a history
carries over. What makes a call do so may be used up or change along the way, so it is
asked of each state together with the calls that are still to come. -/
theorem perform_map {P : σ → List Call → Prop} (f : σ → σ)
    (hcall : ∀ s c rest, P s (c :: rest) →
      call (f s) c = ((call s c).1, f (call s c).2) ∧ P (call s c).2 rest)
    (calls : List Call) : ∀ {s}, P s calls →
      perform call (f s) calls = ((perform call s calls).1, f (perform call s calls).2) := by
  induction calls with
  | nil => intro s h; rfl
  | cons c rest ih =>
      intro s h
      obtain ⟨hcalled, hrest⟩ := hcall s c rest h
      simp only [perform, hcalled, ih hrest]

/-- The calls of a history, each with its answer. -/
def transcript (call : σ → Call → Answer × σ) (s : σ) (calls : List Call) :
    List (Call × Answer) :=
  calls.zip (perform call s calls).1

/-- What every call keeps that is added to a transcript, a history keeps. -/
theorem perform_keeps {P : List (Call × Answer) → σ → Prop}
    (hcall : ∀ told s c, P told s → P (told ++ [(c, (call s c).1)]) (call s c).2)
    (calls : List Call) : ∀ {told s}, P told s →
      P (told ++ transcript call s calls) (perform call s calls).2 := by
  induction calls with
  | nil =>
      intro told s h
      rw [transcript, List.zip_nil_left, List.append_nil]
      exact h
  | cons c rest ih =>
      intro told s h
      have hrest := ih (hcall told s c h)
      rw [List.append_assoc] at hrest
      exact hrest

theorem perform_append (calls more : List Call) : ∀ s : σ,
    (perform call s (calls ++ more)).2 =
      (perform call (perform call s calls).2 more).2 := by
  induction calls with
  | nil => intro s; rfl
  | cons c rest ih => intro s; exact ih (call s c).2

end History

/-- A run in the hands of its owner: the machine and the source that its random
turns draw from. -/
structure Engine where
  machine : Machine
  source : Random.Source

namespace Engine

def start (grid : Grid) (source : Random.Source) : Engine :=
  ⟨Machine.start grid, source⟩

def call (e : Engine) : Call → Answer × Engine
  | .step =>
    let r := e.machine.step e.source
    (.came r.outcome, ⟨r.machine, r.source⟩)
  | .resume line =>
    let r := e.machine.resume line
    (.ofLine r.1, { e with machine := r.2 })
  | .interrupt => (.noted, { e with machine := e.machine.interrupt })

def perform (e : Engine) (calls : List Call) : List Answer × Engine :=
  Funge93.perform call e calls

end Engine

end Funge93
