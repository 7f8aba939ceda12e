import Funge93.Proofs.Reference
import Funge93.Proofs.SessionCalls

/-!
# Random turns

A source is asked for a heading when a `?` is executed, and at no other time. A `?` that
is read as part of a string, that is jumped over, or that is under the pointer of a run
which waits, is over or was asked to stop takes nothing from the source. So the number
of answers that a run has taken is the number of `?` that it has executed, and no other
answers can have mattered to it.

Both come out of one comparison, of a run with the same run on another source. An
attempt on the other source comes to the same if the two sources give the same answer,
and an attempt that executes no `?` comes to the same in any case
(`Machine.step_withSource`). Along a history the answers on which the sources agree are
a supply that each random turn takes one from, so the two runs stay together while it
lasts. A run without random turns needs no supply at all. Compared with itself, a run
tells how many answers it has taken.
-/

namespace Funge93

/-! ## Sources that agree for a while -/

namespace Random.Source

/-- The source with some more answers taken. -/
def skip (s : Source) (n : Nat) : Source :=
  { s with taken := s.taken + n }

/-- The headings of the next answers. -/
def headings (s : Source) (n : Nat) : List Heading :=
  (List.range n).map fun i => (s.answers (s.taken + i)).heading

/-- Whether the next answers of two sources are the same, as many as told. -/
def Agrees (s : Source) (k : Nat) (s' : Source) : Prop :=
  ∀ i < k, s'.answers (s'.taken + i) = s.answers (s.taken + i)

variable {s s' : Source} {k m n : Nat}

theorem skip_skip (s : Source) (m n : Nat) : (s.skip m).skip n = s.skip (m + n) := by
  simp only [skip, Nat.add_assoc]

theorem headings_add (s : Source) (m n : Nat) :
    s.headings (m + n) = s.headings m ++ (s.skip m).headings n := by
  simp only [headings, skip, List.range_add, List.map_append, List.map_map, Nat.add_assoc]
  rfl

namespace Agrees

theorem refl (s : Source) (k : Nat) : s.Agrees k s :=
  fun _ _ => rfl

theorem of_le (h : s.Agrees k s') (hle : n ≤ k) : s.Agrees n s' := by
  intro i hi
  exact h i (by omega)

/-- A random turn is in the supply if what is left of it is counted after the turn. -/
theorem draw {turns : Bool} (h : s.Agrees (turns.toNat + k) s') (hturns : turns = true) :
    s'.draw = s.draw := by
  subst hturns
  exact h 0 (Nat.lt_add_right k Nat.one_pos)

theorem skip (h : s.Agrees (m + n) s') : (s.skip m).Agrees n (s'.skip m) := by
  intro i hi
  have hsame := h (m + i) (by omega)
  simpa only [Source.skip, Nat.add_assoc] using hsame

end Agrees

end Random.Source

open Funge93.Random (Source)

/-! ## One attempt -/

namespace Machine

variable (m : Machine)

/-- Whether an attempt executes a random turn. -/
def turnsRandomly : Bool :=
  decide (m.status = .running ∧ m.interruptRequested = false ∧ m.stringMode = false ∧
    m.cell = '?')

theorem step_of_turnsRandomly (h : m.turnsRandomly = true) (source : Source) :
    m.step source = completing source.rest (m.turningRandomly source.draw) := by
  obtain ⟨hrunning, hcalm, hmode, hcell⟩ := of_decide_eq_true h
  simp only [step, hrunning, hcalm, hmode, hcell, Bool.false_eq_true, if_false]
  rfl

theorem execute_withSource {i : Instruction} (h : i ≠ .goRandom) (source source' : Source) :
    m.execute source' i = { m.execute source i with source := source' } := by
  cases i with
  | goRandom => exact absurd rfl h
  | _ => rfl

/-- An attempt looks at its source for a random turn only, and then at one answer. -/
theorem step_withSource {source source' : Source}
    (h : m.turnsRandomly = true → source'.draw = source.draw) :
    m.step source' =
      { m.step source with source := source'.skip m.turnsRandomly.toNat } := by
  cases hturns : m.turnsRandomly with
  | true =>
      rw [m.step_of_turnsRandomly hturns, m.step_of_turnsRandomly hturns, h hturns]
      rfl
  | false =>
      simp only [step]
      cases hstatus : m.status with
      | running =>
          cases hrequest : m.interruptRequested with
          | true => rfl
          | false =>
              cases hmode : m.stringMode with
              | true => rfl
              | false =>
                  refine m.execute_withSource ?_ source source'
                  intro hrandom
                  have hcell : m.cell = '?' := Instruction.eq_of_ofChar_eq hrandom rfl
                  rw [turnsRandomly, decide_eq_false_iff_not] at hturns
                  exact hturns ⟨hstatus, hrequest, hmode, hcell⟩
      | awaiting input => cases m.interruptRequested <;> rfl
      | halted => rfl
      | interrupted => rfl

end Machine

/-! ## Histories of calls -/

namespace Engine

variable (e : Engine)

def withSource (e : Engine) (source : Source) : Engine :=
  { e with source := source }

/-- Whether a call executes a random turn. -/
def turnsRandomly (e : Engine) : Call → Bool
  | .step => e.machine.turnsRandomly
  | _ => false

/-- The headings that the random turns of a history set, in order. -/
def randomTurns (e : Engine) : List Call → List Heading
  | [] => []
  | c :: rest =>
    (if e.turnsRandomly c then [(e.call c).2.machine.heading] else []) ++
      (e.call c).2.randomTurns rest

theorem call_withSource (c : Call) {source : Source}
    (h : e.turnsRandomly c = true → source.draw = e.source.draw) :
    (e.withSource source).call c =
      ((e.call c).1,
        (e.call c).2.withSource (source.skip (e.turnsRandomly c).toNat)) := by
  cases c with
  | step =>
      simp only [call, withSource, e.machine.step_withSource h]
      rfl
  | resume line => rfl
  | interrupt => rfl

theorem source_call (c : Call) :
    (e.call c).2.source = e.source.skip (e.turnsRandomly c).toNat := by
  have hself : (e.withSource e.source).call c = _ := e.call_withSource c fun _ => rfl
  exact congrArg (fun r => r.2.source) hself

theorem randomTurns_cons (c : Call) (rest : List Call) :
    (e.randomTurns (c :: rest)).length =
      (e.turnsRandomly c).toNat + ((e.call c).2.randomTurns rest).length := by
  rw [randomTurns, List.length_append]
  cases e.turnsRandomly c <;> rfl

theorem randomTurns_append (calls more : List Call) :
    e.randomTurns (calls ++ more) =
      e.randomTurns calls ++ (e.perform calls).2.randomTurns more := by
  induction calls generalizing e with
  | nil => rfl
  | cons c rest ih =>
      rw [List.cons_append, randomTurns, randomTurns, ih, List.append_assoc]
      rfl

/-- Each random turn sets the heading that the source answers with. -/
theorem randomTurns_eq_headings (calls : List Call) :
    e.randomTurns calls = e.source.headings (e.randomTurns calls).length := by
  induction calls generalizing e with
  | nil => rfl
  | cons c rest ih =>
      rw [randomTurns_cons, Source.headings_add, ← e.source_call c, ← ih, randomTurns]
      congr 1
      cases hturns : e.turnsRandomly c with
      | false => rfl
      | true =>
          cases c with
          | step =>
              have hstep := e.machine.step_of_turnsRandomly hturns e.source
              have hheading :
                  (e.machine.step e.source).machine.heading = e.source.draw.heading := by
                rw [hstep]
                rfl
              exact congrArg (fun h => [h]) hheading
          | resume line => cases hturns
          | interrupt => cases hturns

end Engine

section History

variable {σ : Type} {call : σ → Call → Answer × σ} {engine : σ → Engine}
  {withSource : σ → Source → σ}

/-- Whatever answers calls as a run does, and treats another source as a run does, goes
through a history on another source in the same way while the sources agree. -/
theorem perform_withSource
    (hengine : ∀ s c, engine (call s c).2 = ((engine s).call c).2)
    (hcall : ∀ s c source,
      ((engine s).turnsRandomly c = true → source.draw = (engine s).source.draw) →
      call (withSource s source) c =
        ((call s c).1,
          withSource (call s c).2 (source.skip ((engine s).turnsRandomly c).toNat)))
    (calls : List Call) : ∀ {s source},
      (engine s).source.Agrees ((engine s).randomTurns calls).length source →
      perform call (withSource s source) calls =
        ((perform call s calls).1,
          withSource (perform call s calls).2
            (source.skip ((engine s).randomTurns calls).length)) := by
  induction calls with
  | nil => intro s source h; rfl
  | cons c rest ih =>
      intro s source h
      rw [Engine.randomTurns_cons] at h ⊢
      have hrest := h.skip
      rw [← (engine s).source_call c, ← hengine] at hrest
      simp only [perform, hcall s c source h.draw, ih hrest, ← hengine, Source.skip_skip]

end History

theorem Engine.perform_withSource (e : Engine) (calls : List Call) {source : Source}
    (h : e.source.Agrees (e.randomTurns calls).length source) :
    (e.withSource source).perform calls =
      ((e.perform calls).1,
        (e.perform calls).2.withSource (source.skip (e.randomTurns calls).length)) :=
  Funge93.perform_withSource (fun _ _ => rfl)
    (fun e c _ hdraw => call_withSource e c hdraw) calls h

/-! ## Runs -/

/-- What the owner of a run can do to it if it need not make every attempt by hand. A run
makes attempts until one completes nothing. It need not come to that, so it is watched
for a number of attempts after the first. -/
inductive Command where
  | call (c : Call)
  | run (further : Nat)

namespace Engine

def carryOut (e : Engine) : Command → Answer × Engine
  | .call c => e.call c
  | .run further =>
    let r := (e.machine.step e.source).proceed further
    (.came r.outcome, ⟨r.machine, r.source⟩)

/-- Carries out commands one after the other: the answers, and the run after the last
command. -/
def carryOutAll (e : Engine) : List Command → List Answer × Engine
  | [] => ([], e)
  | command :: rest =>
    let after := (e.carryOut command).2.carryOutAll rest
    ((e.carryOut command).1 :: after.1, after.2)

/-- The attempts that a run makes. -/
def attempts (e : Engine) : Nat → List Call
  | 0 => [.step]
  | n + 1 =>
    if (e.machine.step e.source).outcome.isCompletion then
      .step :: (e.call .step).2.attempts n
    else [.step]

def callsOf (e : Engine) : Command → List Call
  | .call c => [c]
  | .run further => e.attempts further

/-- The calls that commands come down to. -/
def callsOfAll (e : Engine) : List Command → List Call
  | [] => []
  | command :: rest => e.callsOf command ++ (e.carryOut command).2.callsOfAll rest

variable (e : Engine)

theorem carryOut_run_succ (n : Nat) :
    e.carryOut (.run (n + 1)) =
      if (e.machine.step e.source).outcome.isCompletion then
        (e.call .step).2.carryOut (.run n)
      else e.call .step := by
  simp only [carryOut, Step.proceed, call]
  cases houtcome : (e.machine.step e.source).outcome <;> simp only [houtcome] <;> rfl

/-- A run answers what its last attempt comes to. -/
theorem carryOut_run (n : Nat) :
    (e.perform (e.attempts n)).1.getLast? = some (e.carryOut (.run n)).1 ∧
      (e.perform (e.attempts n)).2 = (e.carryOut (.run n)).2 := by
  induction n generalizing e with
  | zero => exact ⟨rfl, rfl⟩
  | succ n ih =>
      rw [carryOut_run_succ, attempts]
      split
      · obtain ⟨hlast, hend⟩ := ih (e.call .step).2
        refine ⟨?_, hend⟩
        show ((e.call .step).1 :: ((e.call .step).2.perform _).1).getLast? = _
        rw [List.getLast?_cons, hlast]
        rfl
      · exact ⟨rfl, rfl⟩

theorem perform_callsOf (command : Command) :
    (e.perform (e.callsOf command)).2 = (e.carryOut command).2 := by
  cases command with
  | call c => rfl
  | run further => exact (e.carryOut_run further).2

theorem perform_callsOfAll (commands : List Command) :
    (e.perform (e.callsOfAll commands)).2 = (e.carryOutAll commands).2 := by
  induction commands generalizing e with
  | nil => rfl
  | cons command rest ih =>
      rw [callsOfAll, perform, perform_append]
      show ((e.perform (e.callsOf command)).2.perform _).2 = _
      rw [perform_callsOf, ih]
      rfl

theorem run_withSource (n : Nat) {source : Source}
    (h : e.source.Agrees (e.randomTurns (e.attempts n)).length source) :
    (e.withSource source).carryOut (.run n) =
      ((e.carryOut (.run n)).1,
        (e.carryOut (.run n)).2.withSource
          (source.skip (e.randomTurns (e.attempts n)).length)) := by
  induction n generalizing e source with
  | zero =>
      rw [attempts, randomTurns_cons] at h ⊢
      exact e.call_withSource .step h.draw
  | succ n ih =>
      by_cases hcompletion : (e.machine.step e.source).outcome.isCompletion = true
      · have hattempts : e.attempts (n + 1) = .step :: (e.call .step).2.attempts n :=
          if_pos hcompletion
        rw [hattempts, randomTurns_cons] at h ⊢
        have hcall := e.call_withSource .step h.draw
        have houtcome := Answer.came.inj (congrArg Prod.fst hcall)
        have hrest := h.skip
        rw [← e.source_call .step] at hrest
        rw [carryOut_run_succ, carryOut_run_succ, if_pos hcompletion,
          if_pos (by rw [houtcome]; exact hcompletion), hcall, ih _ hrest, Source.skip_skip]
      · have hattempts : e.attempts (n + 1) = [.step] := if_neg hcompletion
        rw [hattempts, randomTurns_cons] at h ⊢
        have hcall := e.call_withSource .step h.draw
        have houtcome := Answer.came.inj (congrArg Prod.fst hcall)
        rw [carryOut_run_succ, carryOut_run_succ, if_neg hcompletion,
          if_neg (by rw [houtcome]; exact hcompletion), hcall]
        rfl

theorem carryOut_withSource (command : Command) {source : Source}
    (h : e.source.Agrees (e.randomTurns (e.callsOf command)).length source) :
    (e.withSource source).carryOut command =
      ((e.carryOut command).1,
        (e.carryOut command).2.withSource
          (source.skip (e.randomTurns (e.callsOf command)).length)) := by
  cases command with
  | call c =>
      rw [callsOf, randomTurns_cons] at h ⊢
      exact e.call_withSource c h.draw
  | run further => exact e.run_withSource further h

theorem source_carryOut (command : Command) :
    (e.carryOut command).2.source =
      e.source.skip (e.randomTurns (e.callsOf command)).length := by
  have hself := e.carryOut_withSource command (.refl e.source _)
  exact congrArg (fun r => r.2.source) hself

theorem carryOutAll_withSource (commands : List Command) {source : Source}
    (h : e.source.Agrees (e.randomTurns (e.callsOfAll commands)).length source) :
    (e.withSource source).carryOutAll commands =
      ((e.carryOutAll commands).1,
        (e.carryOutAll commands).2.withSource
          (source.skip (e.randomTurns (e.callsOfAll commands)).length)) := by
  induction commands generalizing e source with
  | nil => rfl
  | cons command rest ih =>
      rw [callsOfAll, randomTurns_append, perform_callsOf, List.length_append] at h ⊢
      have hcommand := e.carryOut_withSource command (h.of_le (Nat.le_add_right _ _))
      have hrest := h.skip
      rw [← e.source_carryOut command] at hrest
      simp only [carryOutAll, hcommand, ih _ hrest, Source.skip_skip]

theorem source_carryOutAll (commands : List Command) :
    (e.carryOutAll commands).2.source =
      e.source.skip (e.randomTurns (e.callsOfAll commands)).length := by
  have hself := e.carryOutAll_withSource commands (.refl e.source _)
  exact congrArg (fun r => r.2.source) hself

end Engine

/-! ## Sessions -/

namespace Session

variable (s : Session)

def withSource (s : Session) (source : Source) : Session :=
  { s with source := source }

theorem noteEnd_withSource (line : String) (source : Source) :
    (s.withSource source).noteEnd line = (s.noteEnd line).withSource source := by
  rw [noteEnd, noteEnd, apply_ite (Session.withSource · source)]
  rfl

theorem note_withSource (outcome : Outcome) (source : Source) :
    (s.withSource source).note outcome = (s.note outcome).withSource source := by
  cases outcome with
  | did event => cases event <;> rfl
  | awaits input => rfl
  | halted => exact ({ s with lastWrite := none } : Session).noteEnd_withSource _ source
  | interrupted => exact ({ s with lastWrite := none } : Session).noteEnd_withSource _ source

theorem advance_withSource {source : Source}
    (h : s.machine.turnsRandomly = true → source.draw = s.source.draw) :
    (s.withSource source).advance =
      (s.advance.1, s.advance.2.withSource (source.skip s.machine.turnsRandomly.toNat)) := by
  simp only [advance, ← note_withSource]
  simp only [withSource, s.machine.step_withSource h]

theorem supply_withSource (line : String) (source : Source) :
    (s.withSource source).supply line =
      ((s.supply line).1, (s.supply line).2.withSource source) := by
  simp only [supply, withSource]
  rcases s.machine.resume line with ⟨error | outcome, machine⟩
  · rfl
  · simp only [noteInput, awaited?]
    split <;> rfl

theorem call_withSource (c : Call) {source : Source}
    (h : s.engine.turnsRandomly c = true → source.draw = s.source.draw) :
    (s.withSource source).call c =
      ((s.call c).1,
        (s.call c).2.withSource (source.skip (s.engine.turnsRandomly c).toNat)) := by
  cases c with
  | step =>
      simp only [call, s.advance_withSource h]
      rfl
  | resume line =>
      simp only [call, s.supply_withSource]
      rfl
  | interrupt => rfl

theorem perform_withSource (calls : List Call) {source : Source}
    (h : s.source.Agrees (s.engine.randomTurns calls).length source) :
    (s.withSource source).perform calls =
      ((s.perform calls).1,
        (s.perform calls).2.withSource
          (source.skip (s.engine.randomTurns calls).length)) :=
  Funge93.perform_withSource (fun s c => (s.engine_call c).2)
    (fun s c _ hdraw => s.call_withSource c hdraw) calls h

end Session

/-! ## Runs without a window -/

namespace Headless

/-- The session that a round makes its attempt on: it was asked to stop if the limit is
reached. -/
def attempted (limit : Option Nat) (s : Session) : Session :=
  if atLimit limit s then s.interrupt else s

theorem attempt_eq_advance (limit : Option Nat) (s : Session) :
    attempt limit s = (attempted limit s).advance :=
  (apply_ite Session.advance _ _ _).symm

theorem attempted_withSource (limit : Option Nat) (s : Session) (source : Source) :
    attempted limit (s.withSource source) = (attempted limit s).withSource source := by
  rw [attempted, attempted, apply_ite (Session.withSource · source)]
  cases limit <;> rfl

theorem source_attempted (limit : Option Nat) (s : Session) :
    (attempted limit s).source = s.source := by
  rw [attempted]
  split <;> rfl

namespace Drive

variable (d : Drive)

def withSource (d : Drive) (source : Source) : Drive :=
  { d with session := d.session.withSource source }

/-- Whether a round executes a random turn. -/
def turnsRandomly : Bool :=
  d.result.isNone && (attempted d.limit d.session).machine.turnsRandomly

/-- The number of random turns that are executed in a number of rounds. -/
def randomTurns : Nat → Drive → Nat
  | 0, _ => 0
  | n + 1, d => d.turnsRandomly.toNat + randomTurns n d.turn

theorem react_withSource (outcome : Outcome) (source : Source) :
    (d.withSource source).react outcome = (d.react outcome).withSource source := by
  simp only [react]
  cases Reaction.ofOutcome outcome with
  | proceed => rfl
  | print text => rfl
  | stop => rfl
  | read =>
      simp only [read, supplyLine, withSource, Session.supply_withSource]
      cases line? d.input with
      | none => rfl
      | some line =>
          rcases hsupply : d.session.supply line with ⟨error | outcome, s⟩ <;>
            simp only [hsupply]

theorem turn_withSource {source : Source}
    (h : d.turnsRandomly = true → source.draw = d.session.source.draw) :
    (d.withSource source).turn =
      d.turn.withSource (source.skip d.turnsRandomly.toNat) := by
  cases hresult : d.result with
  | some verdict =>
      have hnone : d.turnsRandomly = false := by
        rw [turnsRandomly, hresult]
        rfl
      rw [turn_of_result hresult, turn_of_result (d := d.withSource source) hresult, hnone]
      rfl
  | none =>
      have hturns : d.turnsRandomly =
          (attempted d.limit d.session).machine.turnsRandomly := by
        rw [turnsRandomly, hresult]
        rfl
      rw [hturns, ← source_attempted d.limit] at h
      have hadvance := (attempted d.limit d.session).advance_withSource h
      rw [hturns]
      have hturn : ∀ d : Drive, d.result = none → d.turn =
          { d with session := (attempted d.limit d.session).advance.2 }.react
            (attempted d.limit d.session).advance.1 := by
        intro d hlive
        simp only [turn, hlive, attempt_eq_advance]
      rw [hturn d hresult, hturn (d.withSource source) hresult, ← react_withSource]
      simp only [withSource, attempted_withSource, hadvance]

theorem source_turn :
    d.turn.session.source = d.session.source.skip d.turnsRandomly.toNat := by
  have hself : (d.withSource d.session.source).turn = _ := d.turn_withSource fun _ => rfl
  exact congrArg (fun d : Drive => d.session.source) hself

theorem turns_withSource (n : Nat) {source : Source}
    (h : d.session.source.Agrees (d.randomTurns n) source) :
    turns n (d.withSource source) =
      (turns n d).withSource (source.skip (d.randomTurns n)) := by
  induction n generalizing d source with
  | zero => rfl
  | succ n ih =>
      rw [randomTurns] at h ⊢
      have hrest := h.skip
      rw [← d.source_turn] at hrest
      rw [turns_eq_iterate, turns_eq_iterate, Function.iterate_succ_apply,
        Function.iterate_succ_apply, d.turn_withSource h.draw, ← turns_eq_iterate,
        ← turns_eq_iterate, ih _ hrest, Source.skip_skip]

end Drive

end Headless

/-! ## What a run has to do with its source -/

open Headless (Drive)

/-- However a run is commanded, it has taken as many answers of its source as it has
executed random turns, and these have set the headings that the source answered with,
in order. So as long as it has executed no more random turns than two sources agree on
answers, it answers the same on both, and is the same run but for the source itself. That
goes for the machine, for a session with all its notes, and for a run without a window
with its streams and its result. A run that has executed none is the same on all
sources. -/
theorem source_asked_once_per_random_turn (grid : Grid) (source : Source) :
    let e := Engine.start grid source
    let s := Session.start grid source
    (∀ commands,
      let turns := e.randomTurns (e.callsOfAll commands)
      (e.perform (e.callsOfAll commands)).2 = (e.carryOutAll commands).2 ∧
        (e.carryOutAll commands).2.source = source.skip turns.length ∧
        turns = source.headings turns.length) ∧
    ∀ k source', source.Agrees k source' →
      (∀ commands,
        let turns := e.randomTurns (e.callsOfAll commands)
        turns.length ≤ k →
          (Engine.start grid source').carryOutAll commands =
            ((e.carryOutAll commands).1,
              (e.carryOutAll commands).2.withSource (source'.skip turns.length))) ∧
      (∀ calls,
        let turns := s.engine.randomTurns calls
        turns.length ≤ k →
          (Session.start grid source').perform calls =
            ((s.perform calls).1,
              (s.perform calls).2.withSource (source'.skip turns.length))) ∧
      ∀ input capacity limit n,
        let d := Drive.start s input capacity limit
        d.randomTurns n ≤ k →
          Drive.turns n (Drive.start (Session.start grid source') input capacity limit) =
            (Drive.turns n d).withSource (source'.skip (d.randomTurns n)) := by
  intro e s
  refine ⟨?_, ?_⟩
  · intro commands turns
    exact ⟨e.perform_callsOfAll commands, e.source_carryOutAll commands,
      e.randomTurns_eq_headings _⟩
  intro k source' hagrees
  refine ⟨?_, ?_, ?_⟩
  · intro commands turns hle
    exact e.carryOutAll_withSource commands (hagrees.of_le hle)
  · intro calls turns hle
    exact s.perform_withSource calls (hagrees.of_le hle)
  · intro input capacity limit n d hle
    exact d.turns_withSource n (hagrees.of_le hle)

/-- Of the three `?` in this program one is read as part of a string and one is jumped
over, so a run to its end depends on one answer of its source. -/
theorem source_asked_once_per_random_turn_of_three :
    let grid := Grid.ofLines [['"', '?', '"', '#', '?', '?', '@']]
    let east := Source.ofHeadings fun _ => .east
    let turning := Source.ofHeadings fun n => if n = 0 then .east else .south
    let e := Engine.start grid east
    let drive := fun source => Drive.start (Session.start grid source) [] none none
    east.Agrees 1 turning ∧ (e.randomTurns (e.callsOfAll [.run 9])).length = 1 ∧
      (e.carryOutAll [.run 9]).1 = [.came .halted] ∧
      (e.carryOutAll [.run 9]).2.source = east.skip 1 ∧
      ((Engine.start grid turning).carryOutAll [.run 9]).1 = [.came .halted] ∧
      Drive.turns 6 (drive turning) =
        (Drive.turns 6 (drive east)).withSource (turning.skip 1) := by
  intro grid east turning e drive
  have hagrees : east.Agrees 1 turning := by
    intro i hi
    obtain rfl : i = 0 := by omega
    rfl
  have hone : (e.randomTurns (e.callsOfAll [.run 9])).length = 1 := by decide +kernel
  have hhalts : (e.carryOutAll [.run 9]).1 = [.came .halted] := by decide +kernel
  have hrounds : (drive east).randomTurns 6 = 1 := by decide +kernel
  obtain ⟨hcount, hsame⟩ := source_asked_once_per_random_turn grid east
  obtain ⟨-, htaken, -⟩ := hcount [.run 9]
  obtain ⟨hengine, -, hdrive⟩ := hsame 1 turning hagrees
  have hrun := hengine [.run 9] hone.le
  have hends := hdrive [] none none 6 hrounds.le
  rw [hone] at htaken
  rw [hrounds] at hends
  refine ⟨hagrees, hone, hhalts, htaken, ?_, hends⟩
  rw [hrun]
  exact hhalts

end Funge93
