import Funge93.Proofs.Calls
import Mathlib.Logic.Function.Iterate

/-!
# The events tell everything but the stack

Somebody who hears the events of a run, and knows the program space it began on,
knows all of the machine except its stack: where the pointer is and which way it
faces, whether a string is being read, what has been printed, what the program
space has become, and how many instructions were completed.

`Onlooker` is what such a person keeps track of and `hear` is how. One call of any
kind changes the machine, seen through the onlooker's eyes, exactly as its event
says, and not at all if it has none (`onlooker_call`). From there on it is a
matter of folds: what a whole list of events amounts to is said for each thing on
its own, by the last event that speaks of it or by all of them in a row.
-/

namespace Funge93

namespace Event

def heading? : Event → Option Heading
  | turned heading => some heading
  | _ => none

def mode? : Event → Option Bool
  | stringMode on => some on
  | _ => none

def printed? : Event → Option Char
  | printedCharacter c => some c
  | _ => none

def write (g : Grid) : Event → Grid
  | stored place c => g.set place c
  | _ => g

/-- By how many cells the pointer moves on. -/
def moves : Event → Nat
  | bridged => 2
  | _ => 1

/-- Where the pointer stands and which way it faces after an event. The move is
along the heading that is in force once the event has happened. -/
def walk (spot : Place × Heading) (e : Event) : Place × Heading :=
  let heading := e.heading?.getD spot.2
  ((fun p : Place => p.next heading)^[e.moves] spot.1, heading)

end Event

/-- What somebody knows of a machine who hears its events. -/
structure Onlooker where
  grid : Grid
  place : Place
  heading : Heading
  stringMode : Bool
  output : String
  steps : Nat

namespace Onlooker

def hear (o : Onlooker) (e : Event) : Onlooker where
  grid := e.write o.grid
  place := (e.walk (o.place, o.heading)).1
  heading := e.heading?.getD o.heading
  stringMode := e.mode?.getD o.stringMode
  output := e.printed?.elim o.output o.output.push
  steps := o.steps + 1

end Onlooker

def Machine.onlooker (m : Machine) : Onlooker where
  grid := m.grid
  place := m.place
  heading := m.heading
  stringMode := m.stringMode
  output := m.output
  steps := m.steps

/-! ## One call -/

namespace Machine

/-- Each instruction is told by its event: the pointer has moved on by as many
cells, and along the heading, that the event says. -/
theorem onlooker_execute (m : Machine) (source : Random.Source)
    (i : Instruction) :
    (m.execute source i).machine.onlooker =
      (m.execute source i).outcome.event?.elim m.onlooker m.onlooker.hear := by
  cases i <;> rfl

theorem onlooker_quoting (m : Machine) (c : Char) :
    (m.quoting c).2.finish.onlooker = m.onlooker.hear (m.quoting c).1 := by
  rw [quoting]
  split <;> rfl

theorem onlooker_step (m : Machine) (source : Random.Source) :
    (m.step source).machine.onlooker =
      (m.step source).outcome.event?.elim m.onlooker m.onlooker.hear := by
  rw [step]
  split
  · rfl
  · rfl
  · split
    · rfl
    · split
      · exact m.onlooker_quoting m.cell
      · exact m.onlooker_execute source _
  · split <;> rfl

end Machine

theorem Engine.onlooker_call (e : Engine) (c : Call) :
    (e.call c).2.machine.onlooker =
      (e.call c).1.event?.elim e.machine.onlooker e.machine.onlooker.hear := by
  cases c with
  | step => exact e.machine.onlooker_step e.source
  | resume line =>
      simp only [call, Machine.resume]
      cases e.machine.status <;> rfl
  | interrupt => rfl

/-! ## Many events -/

namespace Onlooker

/-- A value that some events set is, after many, the one that was set last. -/
theorem foldl_set {α : Type} (set? : Event → Option α) (events : List Event) :
    ∀ a, events.foldl (fun a e => (set? e).getD a) a =
      (events.filterMap set?).getLast?.getD a := by
  induction events with
  | nil => intro a; rfl
  | cons e rest ih =>
      intro a
      rw [List.foldl_cons, ih, List.filterMap_cons]
      cases hset : set? e with
      | none => rfl
      | some b =>
          rw [Option.getD_some, List.getLast?_cons]
          rfl

variable (o : Onlooker) (events : List Event)

theorem steps_foldl :
    (events.foldl hear o).steps = o.steps + events.length := by
  induction events generalizing o with
  | nil => rfl
  | cons e rest ih =>
      rw [List.foldl_cons, ih, List.length_cons]
      simp only [hear]
      omega

theorem output_foldl :
    (events.foldl hear o).output =
      o.output ++ String.ofList (events.filterMap Event.printed?) := by
  induction events generalizing o with
  | nil => simp
  | cons e rest ih =>
      rw [List.foldl_cons, ih, List.filterMap_cons]
      cases hprinted : e.printed? with
      | none => simp only [hear, hprinted, Option.elim_none]
      | some c =>
          simp only [hear, hprinted, Option.elim_some]
          refine String.toList_inj.mp ?_
          simp

theorem heading_foldl :
    (events.foldl hear o).heading =
      (events.filterMap Event.heading?).getLast?.getD o.heading := by
  rw [← foldl_set]
  exact (List.foldl_hom Onlooker.heading fun _ _ => rfl).symm

theorem stringMode_foldl :
    (events.foldl hear o).stringMode =
      (events.filterMap Event.mode?).getLast?.getD o.stringMode := by
  rw [← foldl_set]
  exact (List.foldl_hom Onlooker.stringMode fun _ _ => rfl).symm

theorem grid_foldl :
    (events.foldl hear o).grid = events.foldl Event.write o.grid :=
  (List.foldl_hom Onlooker.grid fun _ _ => rfl).symm

theorem place_foldl :
    (events.foldl hear o).place =
      (events.foldl Event.walk (o.place, o.heading)).1 := by
  have hwalk : events.foldl Event.walk (o.place, o.heading) =
      ((events.foldl hear o).place, (events.foldl hear o).heading) :=
    List.foldl_hom (fun o : Onlooker => (o.place, o.heading)) fun _ _ => rfl
  rw [hwalk]

end Onlooker

/-- After a history the onlooker knows what it knew before and what the events of
the history have told since. -/
theorem Engine.onlooker_perform (e : Engine) (calls : List Call) :
    (e.perform calls).2.machine.onlooker =
      (eventsOf (e.perform calls).1).foldl Onlooker.hear e.machine.onlooker :=
  view_perform (fun e : Engine => e.machine.onlooker) Onlooker.hear
    onlooker_call calls e

/-- The events of a run tell all of the machine but its stack. -/
theorem events_tell_all_but_stack (grid : Grid) (source : Random.Source)
    (calls : List Call) :
    let r := (Engine.start grid source).perform calls
    let events := eventsOf r.1
    r.2.machine.steps = events.length ∧
      r.2.machine.output = String.ofList (events.filterMap Event.printed?) ∧
      r.2.machine.heading =
        (events.filterMap Event.heading?).getLast?.getD .east ∧
      r.2.machine.stringMode =
        (events.filterMap Event.mode?).getLast?.getD false ∧
      r.2.machine.grid = events.foldl Event.write grid ∧
      r.2.machine.place =
        (events.foldl Event.walk (Place.origin, .east)).1 := by
  intro r events
  have hview : r.2.machine.onlooker =
      events.foldl Onlooker.hear (Machine.start grid).onlooker :=
    (Engine.start grid source).onlooker_perform calls
  refine ⟨?_, ?_, ?_, ?_, ?_, ?_⟩
  · have hsteps := congrArg Onlooker.steps hview
    rw [Onlooker.steps_foldl] at hsteps
    exact hsteps.trans (Nat.zero_add _)
  · have houtput := congrArg Onlooker.output hview
    rw [Onlooker.output_foldl] at houtput
    exact houtput.trans String.empty_append
  · have hheading := congrArg Onlooker.heading hview
    rw [Onlooker.heading_foldl] at hheading
    exact hheading
  · have hmode := congrArg Onlooker.stringMode hview
    rw [Onlooker.stringMode_foldl] at hmode
    exact hmode
  · have hgrid := congrArg Onlooker.grid hview
    rw [Onlooker.grid_foldl] at hgrid
    exact hgrid
  · have hplace := congrArg Onlooker.place hview
    rw [Onlooker.place_foldl] at hplace
    exact hplace

end Funge93
