import Funge93.Proofs.Following
import Funge93.Proofs.Handling

/-!
# Pacing

Whoever watches a run may hurry it, hold it, or take it step by step, and types the
lines that it asks for. None of that changes the program. As long as the run is not
stopped or begun anew, its session follows the run that is given the lines handed over.
How many instructions were completed and which lines these are is all that a history
has to do with where the run is.

The attempts are not the same ones, though. A scene makes one too many when the run is
over, and such an attempt does nothing. While the program waits it makes none, since an
update, a key that steps and a key that resumes the run all look first. Of the attempts
that one occurrence makes, only the last can come to wait, because all before it have
completed an instruction (`Follows.advances`).

The log is where two such histories may differ. The attempt that ends the run notes
the end, which takes the place of the oldest line if the log is full, so a history
that stops just before that attempt still shows a line that the other has lost. A
program that counts down from 2000 shows that this happens.
-/

namespace Funge93

namespace Headless.Follows

variable {start s s' : Session} {lines : List String} {n : Nat}

/-- One attempt on a session that does not wait. -/
theorem advance (h : Follows start lines n s) (hbusy : s.awaited? = none) :
    ∃ n', Follows start lines n' s.advance.2 := by
  cases houtcome : s.advance.1 with
  | did event => exact ⟨n + 1, h.advance_of_did houtcome⟩
  | _ => exact ⟨n, h.advance_of_suspended hbusy (by rw [houtcome]; rfl)⟩

theorem advances (h : Follows start lines n s) (hbusy : s.awaited? = none)
    (hadvances : s.Advances s') : ∃ n', Follows start lines n' s' := by
  induction hadvances generalizing n with
  | once s => exact h.advance hbusy
  | @more s s' hcompletion rest ih =>
      obtain ⟨n', hfollows⟩ := h.advance hbusy
      refine ih hfollows ?_
      rw [Session.awaited?, s.status_advance]
      cases houtcome : s.advance.1 with
      | did event => rfl
      | _ => rw [houtcome] at hcompletion; cases hcompletion

end Headless.Follows

/-! ## What happens to a window -/

namespace Viewer

open Headless

namespace Window

/-- Whether nothing in a history stops the run or begins it anew. -/
def undisturbed (w : Window) (occurrences : List Occurrence) : Bool :=
  (w.met occurrences).all fun x => !x.1.disturbs x.2

/-- The lines that a history hands over, in order. -/
def submitted (w : Window) (occurrences : List Occurrence) : List String :=
  (w.met occurrences).flatMap fun x => (x.1.submitted? x.2).toList

end Window

/-- A scene whose run has taken some lines follows the run that is given them, and
nothing has been typed that is not text. -/
structure Scene.Tracks (grid : Grid) (source : Random.Source) (lines : List String)
    (s : Scene) : Prop where
  session : ∃ n, Follows (Session.start grid source) lines n s.session
  typed : ∀ c ∈ s.typed, Text.isControl c = false
  plain : ∀ line ∈ lines, Plain line

namespace Scene.Tracks

variable {grid : Grid} {source : Random.Source} {lines : List String} {s s' : Scene}
  {o : Occurrence}

theorem start (setup : Setup) (entropy : Random.Entropy) :
    Tracks setup.program (.drawn setup.seed entropy) [] (Scene.start setup entropy) :=
  ⟨⟨0, .refl _⟩, nofun, nofun⟩

/-- What is handed over is what has been typed, and that is text. -/
theorem submit (h : Tracks grid source lines s) {input : Input}
    (hawaiting : s.session.machine.status = .awaiting input) {outcome : Outcome}
    {session : Session}
    (hsupply : s.session.supply (String.ofList s.typed) = (.ok outcome, session)) :
    Tracks grid source (lines ++ [String.ofList s.typed])
      { s with session := session, typed := [] } := by
  obtain ⟨n, hfollows⟩ := h.session
  refine ⟨⟨n + 1, hfollows.supply hawaiting hsupply⟩, nofun, ?_⟩
  rw [List.forall_mem_append, List.forall_mem_singleton, Plain, String.toList_ofList]
  exact ⟨h.plain, h.typed⟩

/-- Nothing that leaves the run alone takes it anywhere else than the lines do. -/
theorem handled (h : Tracks grid source lines s) (hstops : s.stops o = false)
    (hhandled : s.Handled o s') :
    Tracks grid source (lines ++ (s.submitted? o).toList) s' := by
  cases hhandled with
  | stopped hstopped =>
      rw [hstops] at hstopped
      cases hstopped
  | submitted awaiting hline hsupply hanswered =>
      rw [hline]
      exact h.submit awaiting hsupply
  | edited elapsed awaiting hnot hline =>
      rw [hline, Option.toList_none, List.append_nil]
      exact ⟨h.session, o.isControl_edit h.typed, h.plain⟩
  | advanced elapsed busy hattempts hadvances =>
      rw [submitted?_of_busy busy, Option.toList_none, List.append_nil]
      obtain ⟨n, hfollows⟩ := h.session
      exact ⟨hfollows.advances (awaited?_eq_none busy) hadvances, h.typed, h.plain⟩
  | held elapsed paused busy hnot hattempts =>
      rw [submitted?_of_busy busy, Option.toList_none, List.append_nil]
      exact ⟨h.session, h.typed, h.plain⟩

end Scene.Tracks

namespace Window

/-- A run that is left alone is where the lines have taken it that were handed over. -/
theorem tracks_handleAll {setup : Setup} {entropy : Random.Entropy}
    {occurrences : List Occurrence} {w : Window}
    (hall : (opened setup entropy).handleAll occurrences = .ok w)
    (hquiet : (opened setup entropy).undisturbed occurrences = true) :
    w.scene.Tracks setup.program (.drawn setup.seed entropy)
      ((opened setup entropy).submitted occurrences) := by
  simp only [undisturbed, List.all_eq_true, Bool.not_eq_true'] at hquiet
  refine handleAll_keeps (P := fun met w => (∀ x ∈ met, x.1.disturbs x.2 = false) →
    w.scene.Tracks setup.program (.drawn setup.seed entropy)
      (met.flatMap fun x => (x.1.submitted? x.2).toList)) ?_ [] ?_ hall hquiet
  · intro met w o w' htracks hhandle hquiet
    rw [List.forall_mem_append, List.forall_mem_singleton] at hquiet
    obtain ⟨hbefore, hnow⟩ := hquiet
    obtain ⟨hstops, hrestarts⟩ := Bool.or_eq_false_iff.mp hnow
    rcases handled hhandle with ⟨hanew, -⟩ | ⟨-, hhandled, -⟩
    · rw [hrestarts] at hanew
      cases hanew
    · rw [List.flatMap_append, List.flatMap_singleton]
      exact (htracks hbefore).handled hstops hhandled
  · intro _
    exact .start setup entropy

end Window

/-! ## Stepping through a run -/

/-- A number of attempts of a session, none of which finds the program waiting. -/
inductive Stepped : Nat → Session → Session → Prop where
  | refl (s : Session) : Stepped 0 s s
  | step {n : Nat} {s s' : Session} (hbusy : s.awaited? = none)
      (rest : Stepped n s.advance.2 s') : Stepped (n + 1) s s'

theorem Stepped.trans {m n : Nat} {s₁ s₂ s₃ : Session} (h : Stepped m s₁ s₂)
    (h' : Stepped n s₂ s₃) : Stepped (m + n) s₁ s₃ := by
  induction h with
  | refl s => rwa [Nat.zero_add]
  | step hbusy rest ih =>
      rw [Nat.succ_add_eq_add_succ]
      exact .step hbusy (ih h')

/-- The key that steps a run that is held. -/
def stepKey : Occurrence := .keyDown .n false

/-- A history that holds the run and steps it a number of times. -/
def stepping (n : Nat) : List Occurrence :=
  .keyDown .space false :: List.replicate n stepKey

namespace Window

theorem handle_stepKey (w : Window) :
    w.handle stepKey =
      .ok { w with
        scene := if w.scene.paused && !w.scene.awaiting then w.scene.stepOnce else w.scene } := by
  have hkey : (Key.n == Key.r) = false := rfl
  rw [stepKey, handle, Window.keyDown, hkey, Bool.and_false]
  show Except.ok (Window.mk _ (w.quitRequested || false) w.entropy) = _
  rw [Bool.or_false]

theorem handleAll_stepKeys {n : Nat} {s s' : Session} (h : Stepped n s s') {w : Window}
    (hpaused : w.scene.paused = true) (hsession : w.scene.session = s) :
    w.handleAll (List.replicate n stepKey) =
      .ok { w with scene := { w.scene with session := s' } } := by
  induction h generalizing w with
  | refl s => rw [← hsession]; rfl
  | step hbusy rest ih =>
      have hawaiting : w.scene.awaiting = false := by
        rw [Scene.awaiting, hsession, hbusy]
        rfl
      rw [List.replicate_succ, handleAll, handle_stepKey, hpaused, hawaiting]
      exact ih (w := { w with scene := w.scene.stepOnce }) hpaused
        (congrArg (fun s => s.advance.2) hsession)

variable (setup : Setup) (entropy : Random.Entropy)

/-- Holding and stepping does not stop a run, and hands over nothing. -/
theorem quiet_of_mem_stepping {w : Window} {n : Nat} {x : Scene × Occurrence}
    (h : x ∈ w.met (stepping n)) : x.1.disturbs x.2 = false ∧ x.1.submitted? x.2 = none := by
  rcases List.mem_cons.mp (mem_of_mem_met h) with hspace | hstep
  · rw [hspace]
    exact ⟨rfl, rfl⟩
  · rw [List.eq_of_mem_replicate hstep]
    exact ⟨rfl, rfl⟩

theorem undisturbed_stepping (w : Window) (n : Nat) : w.undisturbed (stepping n) = true := by
  rw [undisturbed, List.all_eq_true]
  intro x hx
  rw [(quiet_of_mem_stepping hx).1]
  rfl

theorem submitted_stepping (w : Window) (n : Nat) : w.submitted (stepping n) = [] := by
  rw [submitted, List.flatMap_eq_nil_iff]
  intro x hx
  rw [(quiet_of_mem_stepping hx).2]
  rfl

theorem handleAll_stepping {n : Nat} {s : Session}
    (h : Stepped n (Session.start setup.program (.drawn setup.seed entropy)) s) :
    ∃ w, (opened setup entropy).handleAll (stepping n) = .ok w ∧ w.scene.session = s := by
  let held : Window :=
    { opened setup entropy with scene := { Scene.start setup entropy with paused := true } }
  have hheld : (opened setup entropy).handle (.keyDown .space false) = .ok held := rfl
  refine ⟨{ held with scene := { held.scene with session := s } }, ?_, rfl⟩
  rw [stepping, handleAll, hheld]
  exact handleAll_stepKeys h rfl rfl

end Window

/-! ## A log that is full -/

/-- A program that prints the numbers from 2000 down to 1 and ends. -/
def countdown : Grid :=
  Grid.ofLines
    [['5', '5', '*', '4', '*', '5', '4', '*', '*', '>', ':', '.', '1', 'v'],
      List.replicate 9 ' ' ++ ['|', ' ', ':', '-', '<'],
      List.replicate 9 ' ' ++ ['@']]

namespace Countdown

/-- The countdown on its way. -/
def session (place : Place) (heading : Heading) (values : List Word) (steps : Nat)
    (log : Log) : Session where
  machine :=
    { Machine.start countdown with
      place := place, heading := heading, stack := ⟨values⟩, steps := steps }
  source := .seeded 1
  log := log
  lastWrite := none
  finished := false

variable {p : Place} {heading : Heading} {values : List Word} {n : Nat} {log : Log}

/-- One instruction of the countdown. -/
theorem stepped_one {i : Instruction} {done : Event × Machine} {s : Session}
    (hcell : Instruction.ofChar (countdown.get p) = i)
    (hexecute : (session p heading values n log).machine.execute (.seeded 1) i =
      Machine.completing (.seeded 1) done)
    (hnote : { session p heading values n log with machine := done.2.finish }.note
      (.did done.1) = s) :
    Stepped 1 (session p heading values n log) s := by
  have hstep : (session p heading values n log).machine.step (.seeded 1) =
      Machine.completing (.seeded 1) done := by
    rw [← hexecute, ← hcell]
    rfl
  refine .step rfl ?_
  rw [Session.advance, show (session p heading values n log).source = .seeded 1 from rfl,
    hstep, ← hnote]
  exact .refl _

instance {m n : Nat} : Trans (Stepped m) (Stepped n) (Stepped (m + n)) :=
  ⟨Stepped.trans⟩

theorem stepped_begin :
    Stepped 9 (Session.start countdown (.seeded 1))
      (session ⟨9, 0⟩ .east [2000] 9 (Log.ofCapacity Session.logCapacity)) := by
  let log := Log.ofCapacity Session.logCapacity
  have hstart : Session.start countdown (.seeded 1) = session ⟨0, 0⟩ .east [] 0 log := rfl
  rw [hstart]
  calc Stepped 1 (session ⟨0, 0⟩ .east [] 0 log) (session ⟨1, 0⟩ .east [5] 1 log) :=
        stepped_one (i := .digit 5) (by decide +kernel) rfl rfl
    Stepped 1 _ (session ⟨2, 0⟩ .east [5, 5] 2 log) :=
        stepped_one (i := .digit 5) (by decide +kernel) rfl rfl
    Stepped 1 _ (session ⟨3, 0⟩ .east [25] 3 log) :=
        stepped_one (i := .binary .mul) (by decide +kernel) rfl rfl
    Stepped 1 _ (session ⟨4, 0⟩ .east [4, 25] 4 log) :=
        stepped_one (i := .digit 4) (by decide +kernel) rfl rfl
    Stepped 1 _ (session ⟨5, 0⟩ .east [100] 5 log) :=
        stepped_one (i := .binary .mul) (by decide +kernel) rfl rfl
    Stepped 1 _ (session ⟨6, 0⟩ .east [5, 100] 6 log) :=
        stepped_one (i := .digit 5) (by decide +kernel) rfl rfl
    Stepped 1 _ (session ⟨7, 0⟩ .east [4, 5, 100] 7 log) :=
        stepped_one (i := .digit 4) (by decide +kernel) rfl rfl
    Stepped 1 _ (session ⟨8, 0⟩ .east [20, 100] 8 log) :=
        stepped_one (i := .binary .mul) (by decide +kernel) rfl rfl
    Stepped 1 _ (session ⟨9, 0⟩ .east [2000] 9 log) :=
        stepped_one (i := .binary .mul) (by decide +kernel) rfl rfl

/-- Once through the loop: the number is printed and counted down, and the pointer goes
back to the head of the loop unless it has come to zero. -/
theorem stepped_pass (a : Word) (heading : Heading) (n : Nat) (log : Log) :
    Stepped 10 (session ⟨9, 0⟩ heading [a] n log)
      (let h : Heading := if a - 1 = 0 then .south else .north
       session (Place.next ⟨9, 1⟩ h) h [a - 1] (n + 10)
        (log.push (Event.printedInteger a).text)) := by
  let log' := log.push (Event.printedInteger a).text
  calc Stepped 1 (session ⟨9, 0⟩ heading [a] n log)
          (session ⟨10, 0⟩ .east [a] (n + 1) log) :=
        stepped_one (i := .go .east) (by decide +kernel) rfl rfl
    Stepped 1 _ (session ⟨11, 0⟩ .east [a, a] (n + 2) log) :=
        stepped_one (i := .duplicate) (by decide +kernel) rfl rfl
    Stepped 1 _ (session ⟨12, 0⟩ .east [a] (n + 3) log') :=
        stepped_one (i := .printInteger) (by decide +kernel) rfl rfl
    Stepped 1 _ (session ⟨13, 0⟩ .east [1, a] (n + 4) log') :=
        stepped_one (i := .digit 1) (by decide +kernel) rfl rfl
    Stepped 1 _ (session ⟨13, 1⟩ .south [1, a] (n + 5) log') :=
        stepped_one (i := .go .south) (by decide +kernel) rfl rfl
    Stepped 1 _ (session ⟨12, 1⟩ .west [1, a] (n + 6) log') :=
        stepped_one (i := .go .west) (by decide +kernel) rfl rfl
    Stepped 1 _ (session ⟨11, 1⟩ .west [a - 1] (n + 7) log') :=
        stepped_one (i := .binary .sub) (by decide +kernel) rfl rfl
    Stepped 1 _ (session ⟨10, 1⟩ .west [a - 1, a - 1] (n + 8) log') :=
        stepped_one (i := .duplicate) (by decide +kernel) rfl rfl
    Stepped 1 _ (session ⟨9, 1⟩ .west [a - 1, a - 1] (n + 9) log') :=
        stepped_one (i := .nop) (by decide +kernel) rfl rfl
    Stepped 1 _ _ := stepped_one (i := .branchVertical) (by decide +kernel) rfl rfl

/-- A log with a number of lines, all of them exchanges. -/
structure Holds (k : Nat) (log : Log) : Prop where
  capacity : log.capacity = Session.logCapacity
  size : log.toList.length = k
  exchanges : ∀ line ∈ log.toList, isExchange line = true

theorem Holds.push {k : Nat} {log : Log} (h : Holds k log) (hk : k < Session.logCapacity)
    (a : Word) : Holds (k + 1) (log.push (Event.printedInteger a).text) := by
  have hlist : (log.push (Event.printedInteger a).text).toList =
      log.toList ++ [(Event.printedInteger a).text] := by
    rw [Log.toList_push, h.capacity, lastOf_of_length_le]
    rw [List.length_append, h.size]
    exact hk
  refine ⟨h.capacity, ?_, ?_⟩
  · rw [hlist, List.length_append, h.size]
    rfl
  · rw [hlist]
    intro line hmem
    rcases List.mem_append.mp hmem with hold | hnew
    · exact h.exchanges line hold
    · rw [List.mem_singleton.mp hnew]
      exact isExchange_printedInteger a

theorem ofNat_succ_sub_one (m : Nat) : Int64.ofNat (m + 1) - 1 = Int64.ofNat m := by
  rw [Int64.ofNat_add]
  exact Int64.add_sub_cancel _ _

theorem ofNat_ne_zero {m : Nat} (hpos : 0 < m) (hle : m ≤ 2000) : Int64.ofNat m ≠ 0 := by
  intro hzero
  have htoInt := congrArg Int64.toInt hzero
  rw [Int64.toInt_ofNat_of_lt (by omega), Int64.toInt_zero] at htoInt
  omega

/-- The loop has been gone through a number of times, and not yet for the last time. -/
theorem stepped_passes {k : Nat} (hk : k < 2000) :
    ∃ heading log, Holds k log ∧
      Stepped (9 + 10 * k) (Session.start countdown (.seeded 1))
        (session ⟨9, 0⟩ heading [Int64.ofNat (2000 - k)] (9 + 10 * k) log) := by
  induction k with
  | zero =>
      exact ⟨.east, Log.ofCapacity Session.logCapacity, ⟨rfl, rfl, nofun⟩, stepped_begin⟩
  | succ k ih =>
      obtain ⟨heading, log, hholds, hstepped⟩ := ih (by omega)
      have hpass := stepped_pass (Int64.ofNat (2000 - k)) heading (9 + 10 * k) log
      have hvalue : Int64.ofNat (2000 - k) - 1 = Int64.ofNat (2000 - (k + 1)) := by
        rw [show 2000 - k = 2000 - (k + 1) + 1 by omega]
        exact ofNat_succ_sub_one _
      -- The number has not come to zero, so the branch leads back to the loop.
      rw [hvalue, if_neg (ofNat_ne_zero (by omega) (by omega))] at hpass
      exact ⟨.north, _, hholds.push (by show k < 2000; omega) _, hstepped.trans hpass⟩

/-- The program has printed its last number and stands before its end. -/
theorem stepped_all :
    ∃ log, Holds 2000 log ∧
      Stepped 20009 (Session.start countdown (.seeded 1))
        (session ⟨9, 2⟩ .south [0] 20009 log) := by
  -- The last pass prints 1 and comes to zero.
  obtain ⟨heading, log, hholds, hstepped⟩ := stepped_passes (k := 1999) (by decide)
  exact ⟨_, hholds.push (by decide) _, hstepped.trans (stepped_pass _ heading _ log)⟩

/-- The attempt that finds the end takes the place of a line. -/
theorem advance_end (n : Nat) {log : Log} (h : Holds 2000 log) :
    let s := session ⟨9, 2⟩ .south [0] n log
    s.exchanges.length = 2000 ∧ s.advance.2.exchanges.length < 2000 ∧
      s.advance.2.machine.steps = s.machine.steps := by
  intro s
  have hcell : Instruction.ofChar (countdown.get ⟨9, 2⟩) = .halt := by decide +kernel
  have hhalted : s.advance.1 = .halted := by
    show (s.machine.step (.seeded 1)).outcome =
      (s.machine.execute (.seeded 1) .halt).outcome
    rw [← hcell]
    rfl
  have hsuspended : s.advance.1.isCompletion = false := by rw [hhalted]; rfl
  have hbefore : s.log = log := rfl
  have hlog := s.log_advance_of_suspended rfl hsuspended
  have hfinished : s.advance.2.finished = true := by
    rw [s.finished_advance, hhalted]
    rfl
  rw [hfinished, if_pos rfl] at hlog
  obtain ⟨line, hline, hlog⟩ := hlog
  refine ⟨?_, ?_, congrArg Progress.steps (Session.progress_advance_of_suspended hsuspended)⟩
  · rw [Session.exchanges, hbefore, List.filter_eq_self.mpr h.exchanges]
    exact h.size
  · have hroom : lastOf 2000 (log.toList ++ [line]) = lastOf 1999 log.toList ++ [line] :=
      lastOf_concat 1999 _ _
    rw [Session.exchanges, hlog, hbefore, Log.toList_push, h.capacity, Session.logCapacity,
      hroom, List.filter_append, List.filter_singleton, hline, cond_false, List.append_nil]
    refine Nat.lt_of_le_of_lt (List.length_filter_le _ _) ?_
    rw [lastOf, List.length_drop, h.size]
    decide

end Countdown

/-! ## Histories -/

/-- A history that does not stop the run or begin it anew takes it to where a fresh
session is that was given the lines handed over and attempted one instruction after
the other until it had completed as many. The log shows the last exchanges of that
session, but for the place that the note of the end takes. A run without a window that
is fed these lines has come to the same session, and if the run is over, comes to the
end with it. So histories with the same lines and the same number of instructions agree
on all this, and on what the log shows if both runs are over, or neither, or if the log
has not lost a line. -/
theorem pacing_keeps_run (setup : Setup) (entropy : Random.Entropy)
    (occurrences : List Occurrence)
    (h : (Window.opened setup entropy).undisturbed occurrences = true) :
    ∃ w, (Window.opened setup entropy).handleAll occurrences = .ok w ∧
      let s := w.scene.session
      let lines := (Window.opened setup entropy).submitted occurrences
      let n := s.machine.steps
      let source := Random.Source.drawn setup.seed entropy
      let r := Reference.given lines (Session.start setup.program source) n
      let d := Drive.fresh setup.program source (feed lines) none
      (r.verdict? = none ∧ r.rounds.filterMap Round.line? = lines ∧
        s.progress = r.session.progress ∧
        r.session.exchanges = lastOf Session.logCapacity r.exchanges ∧
        s.exchanges =
          lastOf (Session.logCapacity - if s.finished then 1 else 0) r.exchanges) ∧
      ((d n).result = none ∧ (d n).session = r.session ∧
        (s.finished = true → ∃ outcome, outcome.isFinal = true ∧
          (d (n + 1)).result = some (.ok outcome) ∧ (d (n + 1)).session = s)) ∧
      ∀ delay occurrences' w',
        let opened' := Window.opened { setup with delay := delay } entropy
        let s' := w'.scene.session
        opened'.undisturbed occurrences' = true →
        opened'.handleAll occurrences' = .ok w' →
        s'.machine.steps = n → opened'.submitted occurrences' = lines →
        s'.progress = s.progress ∧
          (s'.finished = s.finished ∨ r.exchanges.length < Session.logCapacity →
            s'.exchanges = s.exchanges) := by
  obtain ⟨w, hall⟩ := (Window.opened setup entropy).exists_handleAll occurrences
  have htracks := Window.tracks_handleAll hall h
  obtain ⟨n, hfollows⟩ := htracks.session
  refine ⟨w, hall, ?_⟩
  intro s lines n' source r d
  obtain rfl : n' = n := hfollows.steps
  have hlogged : Reference.Logged r := Reference.Logged.after _ _ n'
  have hmirrors : Mirrors (feed lines) none (d n') r := hfollows.mirrors htracks.plain
  refine ⟨⟨hfollows.live, hfollows.lines_eq, hfollows.progress,
    hlogged.exchanges hfollows.live, hfollows.exchanges⟩,
    ⟨hmirrors.result.trans hfollows.live, hmirrors.session,
      hfollows.drive_ended htracks.plain⟩, ?_⟩
  intro delay occurrences' w' opened' s' hquiet' hall' hsteps hlines
  obtain ⟨m, hfollows'⟩ := (Window.tracks_handleAll hall' hquiet').session
  obtain rfl : m = n' := hfollows'.steps.symm.trans hsteps
  rw [hlines] at hfollows'
  exact ⟨hfollows'.progress.trans hfollows.progress.symm, hfollows.exchanges_eq hfollows'⟩

/-- A program that echoes the code of a character, once run as fast as it goes and once
held and stepped. The first of the two has found the end of the program. -/
theorem pacing_keeps_run_echo :
    let setup : Setup := ⟨Grid.ofLines [['~', '.', '@']], none, 0⟩
    let entropy : Random.Entropy := fun n => Random.ChaCha.key (UInt64.ofNat n)
    let fast := Window.opened setup entropy
    let slow := Window.opened { setup with delay := 5 } entropy
    let hasty := [.update 0, .typed 'a', .keyDown .enter false, .update 0]
    let patient := [.draw, .keyDown .space false, .keyDown .n true, .typed 'a', .typed '\n',
      .keyDown .space true, .keyDown .numpadEnter false, .keyDown .n false, .update 7]
    fast.undisturbed hasty = true ∧ slow.undisturbed patient = true ∧
      ∃ w w', fast.handleAll hasty = .ok w ∧ slow.handleAll patient = .ok w' ∧
        w'.scene.session.progress = w.scene.session.progress ∧
        w'.scene.session.exchanges = w.scene.session.exchanges := by
  intro setup entropy fast slow hasty patient
  have hquiet : fast.undisturbed hasty = true := by decide +kernel
  have hquiet' : slow.undisturbed patient = true := by decide +kernel
  have hlines : slow.submitted patient = fast.submitted hasty := by decide +kernel
  have hcount : (fast.handleAll hasty).toOption.map (·.scene.session.machine.steps) =
      some 2 := by decide +kernel
  have hcount' : (slow.handleAll patient).toOption.map (·.scene.session.machine.steps) =
      some 2 := by decide +kernel
  have hroom : (Reference.given (fast.submitted hasty)
      (Session.start setup.program (.drawn setup.seed entropy)) 2).exchanges.length <
        Session.logCapacity := by decide +kernel
  clear_value hasty patient
  obtain ⟨w, hall, -, -, hagree⟩ := pacing_keeps_run setup entropy hasty hquiet
  obtain ⟨w', hall', -⟩ := pacing_keeps_run { setup with delay := 5 } entropy patient hquiet'
  rw [hall] at hcount
  rw [hall'] at hcount'
  have hsteps := Option.some.inj hcount
  have hsteps' := Option.some.inj hcount'
  obtain ⟨hprogress, hexchanges⟩ := hagree 5 patient w' hquiet' hall'
    (hsteps'.trans hsteps.symm) hlines
  refine ⟨hquiet, hquiet', w, w', hall, hall', hprogress, hexchanges (.inr ?_)⟩
  simp only [hsteps]
  exact hroom

/-- Two histories that step through the countdown, one up to its end and one to find
it. They have completed the same instructions and handed over no lines, but the log
does not show the same numbers. -/
theorem pacing_shows_in_full_log :
    let setup : Setup := ⟨countdown, some 1, 0⟩
    let opened := Window.opened setup fun _ => Random.ChaCha.key 0
    opened.undisturbed (stepping 20009) = true ∧
      opened.undisturbed (stepping 20010) = true ∧
      opened.submitted (stepping 20009) = opened.submitted (stepping 20010) ∧
      ∃ w w', opened.handleAll (stepping 20009) = .ok w ∧
        opened.handleAll (stepping 20010) = .ok w' ∧
        w'.scene.session.machine.steps = w.scene.session.machine.steps ∧
        w'.scene.session.exchanges ≠ w.scene.session.exchanges := by
  intro setup opened
  obtain ⟨log, hholds, hstepped⟩ := Countdown.stepped_all
  obtain ⟨hfull, hlost, hsteps⟩ := Countdown.advance_end 20009 hholds
  obtain ⟨w, hall, hsession⟩ := Window.handleAll_stepping setup (fun _ => _) hstepped
  obtain ⟨w', hall', hsession'⟩ := Window.handleAll_stepping setup (fun _ => _)
    (hstepped.trans (.step rfl (.refl _)))
  refine ⟨opened.undisturbed_stepping _, opened.undisturbed_stepping _, ?_,
    w, w', hall, hall', ?_, ?_⟩
  · rw [Window.submitted_stepping, Window.submitted_stepping]
  · rw [hsession, hsession']
    exact hsteps
  · rw [hsession, hsession']
    intro hsame
    rw [hsame] at hlost
    exact absurd hfull hlost.ne

end Viewer

end Funge93
