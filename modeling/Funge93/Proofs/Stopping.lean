import Funge93.Proofs.Following
import Funge93.Proofs.Handling

/-!
# Stopping a scene

A request to stop is a flag, and a run that waits takes a line whatever was asked. So it
is the scene that must not let anything happen after the request. It has two ways. If the
program waits, or is held, the scene makes the attempt itself that ends the run. If not,
the run is left running with the flag set. Then the next attempt ends it, whoever makes
it, and until then the run cannot come to wait, since only an attempt could find it
waiting. Either way nobody gets to hand over a line.

`AskedToStop` says this of a scene at any time after the request: the run is where it was,
with the flag set or already ended, and it does not wait. Which of the two it is depends on
whether an attempt was made.
-/

namespace Funge93

namespace Session

variable {s : Session}

/-- The session once its run has been ended from outside. -/
def stopped (s : Session) : Session :=
  { s with
    machine := { s.machine with status := .interrupted, interruptRequested := true }
    log := s.log.push "Interrupted (Ctrl+C)."
    lastWrite := none
    finished := true }

theorem advance_of_asked (hopen : s.finished = false) (hgoing : s.machine.status.isOver = false) :
    s.interrupt.advance = (.interrupted, s.stopped) := by
  have hnot : s.interrupt.machine.status ≠ .halted := by
    intro hhalted
    rw [show s.machine.status = .halted from hhalted] at hgoing
    cases hgoing
  obtain ⟨hending, hended⟩ := Machine.ended_of_not_halted hnot
  rw [advance, Machine.step_of_requested rfl, hending, hended]
  simp only [note, noteEnd, show s.interrupt.finished = false from hopen, Bool.false_eq_true,
    if_false]
  rfl

theorem advance_stopped (s : Session) : s.stopped.advance = (.interrupted, s.stopped) :=
  advance_of_over rfl rfl rfl rfl

end Session

namespace Viewer

namespace Scene

variable {s : Session} {t t' : Scene} {o : Occurrence}

theorem attempts_of_stops (h : t.stops o = true) : t.attempts o = (t.paused || t.awaiting) := by
  have hrule : t.attempts o = (t.stops o && (t.paused || t.awaiting)) := by
    cases o with
    | keyDown key control =>
        cases key with
        | n => cases h
        | _ => rfl
    | update time => cases h
    | _ => rfl
  rw [hrule, h, Bool.true_and]

/-- A scene whose run was asked to stop, and what the run was then. -/
structure AskedToStop (s : Session) (ended : Bool) (t : Scene) : Prop where
  session : t.session = if ended then s.stopped else s.interrupt
  busy : t.awaiting = false

/-- The request itself. -/
theorem askedToStop_interrupt (hopen : t.session.finished = false)
    (hgoing : t.session.machine.status.isOver = false) :
    AskedToStop t.session (t.paused || t.awaiting) t.interrupt := by
  refine ⟨?_, awaiting_interrupt⟩
  rw [interrupt]
  split
  · exact congrArg Prod.snd (Session.advance_of_asked hopen hgoing)
  · rfl

namespace AskedToStop

variable {ended : Bool}

theorem advance (h : AskedToStop s ended t) (hopen : s.finished = false)
    (hgoing : s.machine.status.isOver = false) : t.session.advance = (.interrupted, s.stopped) := by
  rw [h.session]
  cases ended with
  | true => exact s.advance_stopped
  | false => exact Session.advance_of_asked hopen hgoing

/-- Whatever happens then, the run is ended by the first attempt and is not touched by
anything else. -/
theorem handled (h : AskedToStop s ended t) (hopen : s.finished = false)
    (hgoing : s.machine.status.isOver = false) (hhandled : t.Handled o t') :
    AskedToStop s (ended || t.attempts o) t' := by
  cases hhandled with
  | stopped hstops =>
      obtain rfl : ended = false := by
        cases ended with
        | false => rfl
        | true =>
            rw [stops, isFinished, h.session, Bool.and_eq_true] at hstops
            cases hstops.2
      -- It was asked before, and asking again is asking for the same.
      have hagain : AskedToStop t.session (t.paused || t.awaiting) t.interrupt := by
        refine askedToStop_interrupt ?_ ?_ <;> rw [h.session]
        · exact hopen
        · exact hgoing
      have hsession : t.session = s.interrupt := h.session
      rw [hsession] at hagain
      rw [Bool.false_or, attempts_of_stops hstops]
      exact ⟨hagain.session, hagain.busy⟩
  | submitted awaiting hline hsupply hanswered =>
      rw [submitted?_of_busy h.busy] at hline
      cases hline
  | edited elapsed awaiting hstops hline =>
      rw [h.busy] at awaiting
      cases awaiting
  | @advanced session elapsed busy hattempts hadvances =>
      have hadvance := h.advance hopen hgoing
      -- An update that could pay for more attempts makes only the one that ends the run.
      have hsession : session = s.stopped := by
        rw [hadvances.eq_of_suspended (by rw [hadvance]; rfl), hadvance]
      rw [hattempts, Bool.or_true]
      exact ⟨hsession, by rw [awaiting, hsession]; rfl⟩
  | held elapsed paused busy hstops hattempts =>
      rw [hattempts, Bool.or_false]
      exact ⟨h.session, busy⟩

theorem progress (h : AskedToStop s ended t) : t.session.progress = s.progress := by
  rw [h.session]
  cases ended <;> rfl

theorem isFinished (h : AskedToStop s ended t) (hopen : s.finished = false) :
    t.isFinished = ended := by
  rw [Scene.isFinished, h.session]
  cases ended with
  | true => rfl
  | false => exact hopen

theorem status (h : AskedToStop s true t) : t.session.machine.status = .interrupted := by
  rw [h.session]
  rfl

end AskedToStop

theorem quitsOn_of_restarts (h : t.restarts o = true) : t.quitsOn o = false := by
  cases o with
  | keyDown key control =>
      cases key with
      | r => rfl
      | _ => cases h
  | _ => cases h

theorem quitsOn_iff : t.quitsOn o = true ↔ ∃ control, o = .keyDown .escape control ∧
    t.isFinished = true := by
  constructor
  · intro h
    cases o with
    | keyDown key control =>
        rw [quitsOn, quits, Bool.and_eq_true, beq_iff_eq] at h
        exact ⟨control, by rw [h.1], h.2⟩
    | _ => cases h
  · rintro ⟨control, rfl, hfinished⟩
    exact hfinished

end Scene

namespace Window

variable {w w' : Window}

/-- A scene that was asked to stop, through a history in which the run is not begun anew. -/
theorem askedToStop_handleAll {s : Session} {ended : Bool} {later : List Occurrence}
    (h : w.scene.AskedToStop s ended) (hopen : s.finished = false)
    (hgoing : s.machine.status.isOver = false)
    (hkept : ∀ x ∈ w.met later, x.1.restarts x.2 = false)
    (hall : w.handleAll later = .ok w') :
    w'.scene.AskedToStop s (ended || (w.met later).any fun x => x.1.attempts x.2) ∧
      ∀ x ∈ w.met later, x.1.submitted? x.2 = none := by
  refine handleAll_keeps (P := fun met w => (∀ x ∈ met, x.1.restarts x.2 = false) →
    w.scene.AskedToStop s (ended || met.any fun x => x.1.attempts x.2) ∧
      ∀ x ∈ met, x.1.submitted? x.2 = none) ?_ [] ?_ hall hkept
  · intro met w o w' hmet hhandle hkept
    simp only [List.forall_mem_append, List.forall_mem_singleton] at hkept ⊢
    obtain ⟨hasked, hlines⟩ := hmet hkept.1
    rcases handled hhandle with ⟨hrestarts, -⟩ | ⟨-, hhandled, -⟩
    · rw [hkept.2] at hrestarts
      cases hrestarts
    · rw [List.any_append, List.any_cons, List.any_nil, Bool.or_false, ← Bool.or_assoc]
      exact ⟨hasked.handled hopen hgoing hhandled, hlines,
        Scene.submitted?_of_busy hasked.busy o⟩
  · intro _
    rw [List.any_nil, Bool.or_false]
    exact ⟨h, fun x hx => absurd hx List.not_mem_nil⟩

theorem quitRequested_handleAll {occurrences : List Occurrence}
    (hall : w.handleAll occurrences = .ok w') :
    w'.quitRequested =
      (w.quitRequested || (w.met occurrences).any fun x => x.1.quitsOn x.2) := by
  refine handleAll_keeps (P := fun met v => v.quitRequested =
    (w.quitRequested || met.any fun x => x.1.quitsOn x.2)) ?_ [] (Bool.or_false _).symm hall
  intro met v o v' hmet hhandle
  rw [List.any_append, List.any_cons, List.any_nil, Bool.or_false, ← Bool.or_assoc, ← hmet]
  rcases handled hhandle with ⟨hrestarts, rfl⟩ | ⟨-, -, hquit, -⟩
  · rw [Scene.quitsOn_of_restarts hrestarts, Bool.or_false]
    rfl
  · exact hquit

theorem handle_of_stops {o : Occurrence} (h : w.scene.stops o = true) :
    w.handle o = .ok { w with scene := w.scene.interrupt } := by
  obtain ⟨hasked, hopen⟩ := Bool.and_eq_true_iff.mp h
  have hfinished : w.scene.isFinished = false := (Bool.not_eq_true' _).mp hopen
  obtain ⟨key, control, rfl, hkey⟩ : ∃ key control, o = .keyDown key control ∧
      w.scene.keyDown key control = .ok w.scene.interrupt := by
    cases o with
    | keyDown key control =>
        refine ⟨key, control, rfl, ?_⟩
        cases key with
        | escape => rw [Scene.keyDown, hfinished, if_neg Bool.false_ne_true]
        | c =>
            have hcontrol : control = true := hasked
            rw [Scene.keyDown, hcontrol, hfinished]
            rfl
        | _ => cases hasked
    | _ => cases hasked
  rw [handle, keyDown, hkey, Scene.quits, hfinished, Bool.false_and, if_neg Bool.false_ne_true,
    Bool.and_false, Bool.or_false]

end Window

/-- A history asks for the window to be closed by the escape key only, and only where the
run is over. Where it is not, the run can be asked to stop. Then, through whatever comes but
a fresh run, it stays as it was and no line is handed over. It is over at once if it was held
or waited, and else from the next attempt on. -/
theorem stop_is_final (setup : Setup) (entropy : Random.Entropy) (before : List Occurrence) :
    let opened := Window.opened setup entropy
    ∃ w, opened.handleAll before = .ok w ∧
      (w.quitRequested = true ↔ ∃ x ∈ opened.met before,
        (∃ control, x.2 = .keyDown .escape control) ∧ x.1.isFinished = true) ∧
      (w.scene.isFinished = false → ∀ stop : Occurrence, stop.asksToStop = true →
        ∃ asked, w.handle stop = .ok asked ∧
          let s := w.scene.session
          let atOnce := w.scene.paused || w.scene.awaiting
          asked.scene.typed = [] ∧ asked.scene.isFinished = atOnce ∧
          ∀ later, (∀ x ∈ asked.met later, x.1.restarts x.2 = false) →
            ∃ w', asked.handleAll later = .ok w' ∧
              let s' := w'.scene.session
              s'.progress = s.progress ∧ s'.awaited? = none ∧
              (∀ x ∈ asked.met later, x.1.submitted? x.2 = none) ∧
              (s'.finished = true ↔
                atOnce = true ∨ ∃ x ∈ asked.met later, x.1.attempts x.2 = true) ∧
              (s'.finished = true → s'.machine.status = .interrupted)) := by
  intro opened
  obtain ⟨w, hall⟩ := opened.exists_handleAll before
  refine ⟨w, hall, ?_, ?_⟩
  · have hclosed : opened.quitRequested = false := rfl
    rw [Window.quitRequested_handleAll hall]
    simp only [hclosed, Bool.false_or, List.any_eq_true, Scene.quitsOn_iff]
    constructor
    · rintro ⟨x, hx, control, hkey, hfinished⟩
      exact ⟨x, hx, ⟨control, hkey⟩, hfinished⟩
    · rintro ⟨x, hx, ⟨control, hkey⟩, hfinished⟩
      exact ⟨x, hx, control, hkey, hfinished⟩
  intro hopen stop hstop
  have hgoing : w.scene.session.machine.status.isOver = false :=
    (Window.reached hall).finished.symm.trans hopen
  have hstops : w.scene.stops stop = true := by
    rw [Scene.stops, hstop, hopen]
    rfl
  have hasked := Scene.askedToStop_interrupt hopen hgoing
  refine ⟨_, Window.handle_of_stops hstops, Scene.typed_interrupt, ?_, ?_⟩
  · exact hasked.isFinished hopen
  intro later hkept
  obtain ⟨w', hlater⟩ := Window.exists_handleAll _ later
  obtain ⟨hasked', hlines⟩ := Window.askedToStop_handleAll hasked hopen hgoing hkept hlater
  refine ⟨w', hlater, hasked'.progress, ?_, hlines, ?_, ?_⟩
  · exact Scene.awaited?_eq_none hasked'.busy
  · rw [← Scene.isFinished, hasked'.isFinished hopen, Bool.or_eq_true, List.any_eq_true]
  · intro hfinished
    rw [← Scene.isFinished, hasked'.isFinished hopen] at hfinished
    rw [hfinished] at hasked'
    exact hasked'.status

/-- A program that waits for a character, stopped with a letter already typed. The letter,
the return key and the time that come after it leave the run as it was. -/
theorem stop_is_final_waiting :
    let setup : Setup := ⟨Grid.ofLines [['~', '.', '@']], none, 5⟩
    let entropy : Random.Entropy := fun n => Random.ChaCha.key (UInt64.ofNat n)
    let opened := Window.opened setup entropy
    let before := [.update 5, .typed 'a']
    let later := [.typed 'b', .keyDown .enter false, .update 7, .keyDown .escape false]
    ∃ w asked w', opened.handleAll before = .ok w ∧ w.handle (.keyDown .c true) = .ok asked ∧
      asked.handleAll later = .ok w' ∧
      w.scene.isFinished = false ∧ w.scene.typed = ['a'] ∧
      (∀ x ∈ asked.met later, x.1.restarts x.2 = false) ∧
      asked.scene.typed = [] ∧ asked.scene.isFinished = true ∧
      w'.scene.session.progress = w.scene.session.progress ∧
      w'.scene.session.machine.status = .interrupted := by
  intro setup entropy opened before later
  have hbefore : (opened.handleAll before).toOption.map
      (fun w => (w.scene.isFinished, w.scene.awaiting, w.scene.typed)) =
        some (false, true, ['a']) := by decide +kernel
  have hkept : ((opened.handleAll before).bind (·.handle (.keyDown .c true))).toOption.map
      (fun asked => (asked.met later).all fun x => !x.1.restarts x.2) = some true := by
    decide +kernel
  clear_value before later
  obtain ⟨w, hall, -, hstop⟩ := stop_is_final setup entropy before
  rw [hall] at hbefore hkept
  obtain ⟨hopen, hawaiting, htyped⟩ : w.scene.isFinished = false ∧ w.scene.awaiting = true ∧
      w.scene.typed = ['a'] := by
    simpa only [Except.toOption, Option.map_some, Option.some.injEq, Prod.mk.injEq] using hbefore
  obtain ⟨asked, hhandle, hcleared, hended, hfinal⟩ := hstop hopen (.keyDown .c true) rfl
  rw [Except.bind, hhandle] at hkept
  have hnone : ∀ x ∈ asked.met later, x.1.restarts x.2 = false := by
    simpa only [List.all_eq_true, Bool.not_eq_true'] using Option.some.inj hkept
  obtain ⟨w', hlater, hprogress, -, -, hover, hstatus⟩ := hfinal later hnone
  have hatOnce : (w.scene.paused || w.scene.awaiting) = true := by rw [hawaiting, Bool.or_true]
  exact ⟨w, asked, w', hall, hhandle, hlater, hopen, htyped, hnone, hcleared,
    hended.trans hatOnce, hprogress, hstatus (hover.mpr (.inl hatOnce))⟩

end Viewer

end Funge93
