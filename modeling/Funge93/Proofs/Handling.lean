import Funge93.Proofs.Flags
import Funge93.Proofs.Interruption
import Funge93.Viewer.Window
import Mathlib.Data.List.Infix

/-!
# What happens to a window

`handled` says once what an occurrence can come to. A scene that waits lets its line be
edited, hands it over, or is stopped. One that does not wait is held or let go, makes
attempts, or is stopped. And a window whose run is over may begin it anew. None of this
fails: the only thing that could is a line that nobody waits for, and a line is handed
over by a scene that waits and by no other.

A history is told as a list of its occurrences, each with the scene that it met, since
what an occurrence means depends on the scene. Whatever every occurrence keeps that is
added to that list, a history keeps (`handleAll_keeps`). The first use of this is that the
run of a scene is a session that was called: what holds of sessions after any calls holds
of the run in a window.
-/

namespace Funge93

namespace Session

/-- A number of attempts, at least one, of which all but the last have completed an
instruction. -/
inductive Advances : Session → Session → Prop where
  | once (s : Session) : Advances s s.advance.2
  | more {s s' : Session} (h : s.advance.1.isCompletion = true)
      (rest : Advances s.advance.2 s') : Advances s s'

/-- An attempt that completes nothing is the only one. -/
theorem Advances.eq_of_suspended {s s' : Session} (h : Advances s s')
    (hsuspended : s.advance.1.isCompletion = false) : s' = s.advance.2 := by
  cases h with
  | once => rfl
  | more hcompletion rest =>
      rw [hsuspended] at hcompletion
      cases hcompletion

/-- Whether a session has come out of a fresh one by calls. -/
def Reached (grid : Grid) (source : Random.Source) (s : Session) : Prop :=
  ∃ calls, s = ((Session.start grid source).perform calls).2

namespace Reached

variable {grid : Grid} {source : Random.Source} {s s' : Session}

theorem start (grid : Grid) (source : Random.Source) :
    Reached grid source (Session.start grid source) :=
  ⟨[], rfl⟩

theorem call (h : Reached grid source s) (c : Call) : Reached grid source (s.call c).2 := by
  obtain ⟨calls, rfl⟩ := h
  exact ⟨calls ++ [c], (perform_append calls [c] _).symm⟩

theorem advances (h : Reached grid source s) (hadvances : Advances s s') :
    Reached grid source s' := by
  induction hadvances with
  | once s => exact h.call .step
  | more hcompletion rest ih => exact ih (h.call .step)

theorem supply (h : Reached grid source s) {line : String} {outcome : Outcome}
    (hsupply : s.supply line = (.ok outcome, s')) : Reached grid source s' := by
  have hcall := h.call (.resume line)
  simp only [Session.call, hsupply] at hcall
  exact hcall

theorem finished (h : Reached grid source s) : s.finished = s.machine.status.isOver := by
  obtain ⟨calls, rfl⟩ := h
  exact (Remembers.perform grid source calls).finished

end Reached

end Session

namespace Viewer

/-! ## What an occurrence means -/

namespace Occurrence

/-- What an occurrence makes of a line that is being typed. -/
def edit (line : List Char) : Occurrence → List Char
  | .typed c => if Text.isControl c then line else line ++ [c]
  | .keyDown .backspace _ => line.dropLast
  | _ => line

/-- What is typed is text, and stays so. -/
theorem isControl_edit (o : Occurrence) {line : List Char}
    (h : ∀ c ∈ line, Text.isControl c = false) :
    ∀ c ∈ o.edit line, Text.isControl c = false := by
  cases o with
  | typed c =>
      rw [Occurrence.edit]
      split
      · exact h
      · next htext =>
          rw [List.forall_mem_append, List.forall_mem_singleton]
          exact ⟨h, Bool.eq_false_iff.mpr htext⟩
  | keyDown key control =>
      cases key with
      | backspace => exact fun c hc => h c (List.mem_of_mem_dropLast hc)
      | _ => exact h
  | _ => exact h

/-- Whether an occurrence asks that a run be stopped. -/
def asksToStop : Occurrence → Bool
  | .keyDown .escape _ => true
  | .keyDown .c control => control
  | _ => false

end Occurrence

namespace Scene

variable {s s' : Scene} {o : Occurrence}

def stops (s : Scene) (o : Occurrence) : Bool :=
  o.asksToStop && !s.isFinished

def restarts (s : Scene) : Occurrence → Bool
  | .keyDown .r _ => s.isFinished
  | _ => false

theorem restarts_keyDown (s : Scene) (key : Key) (control : Bool) :
    s.restarts (.keyDown key control) = (s.isFinished && key == .r) := by
  cases key with
  | r => exact (Bool.and_true _).symm
  | _ => exact (Bool.and_false _).symm

/-- Whether an occurrence stops the run or begins it anew. -/
def disturbs (s : Scene) (o : Occurrence) : Bool :=
  s.stops o || s.restarts o

/-- The line that an occurrence hands over, if it hands one over. -/
def submitted? (s : Scene) : Occurrence → Option String
  | .keyDown .enter _ => if s.awaiting then some (String.ofList s.typed) else none
  | .keyDown .numpadEnter _ => if s.awaiting then some (String.ofList s.typed) else none
  | _ => none

/-- Whether an occurrence asks that the window be closed. -/
def quitsOn (s : Scene) : Occurrence → Bool
  | .keyDown key _ => s.quits key
  | _ => false

/-- Whether an occurrence attempts an instruction. -/
def attempts (s : Scene) : Occurrence → Bool
  | .update time =>
    !(s.paused || s.awaiting || s.isFinished) && decide (s.setup.delay ≤ s.elapsed + time)
  | .keyDown .n _ => s.paused && !s.awaiting
  | o => s.stops o && (s.paused || s.awaiting)

/-- What comes of a scene that meets an occurrence, if the run is not begun anew. -/
inductive Handled (s : Scene) (o : Occurrence) : Scene → Prop where
  | stopped (h : s.stops o = true) : Handled s o s.interrupt
  | submitted {input : Input} {outcome : Outcome} {session : Session}
      (awaiting : s.session.machine.status = .awaiting input)
      (hline : s.submitted? o = some (String.ofList s.typed))
      (hsupply : s.session.supply (String.ofList s.typed) = (.ok outcome, session))
      (hanswered : session.awaited? = none) :
      Handled s o { s with session := session, typed := [] }
  | edited (elapsed : Nat) (awaiting : s.awaiting = true) (hstops : s.stops o = false)
      (hline : s.submitted? o = none) :
      Handled s o { s with elapsed := elapsed, typed := o.edit s.typed }
  | advanced {session : Session} (elapsed : Nat) (busy : s.awaiting = false)
      (hattempts : s.attempts o = true) (hadvances : s.session.Advances session) :
      Handled s o { s with session := session, elapsed := elapsed }
  | held (elapsed : Nat) (paused : Bool) (busy : s.awaiting = false)
      (hstops : s.stops o = false) (hattempts : s.attempts o = false) :
      Handled s o { s with elapsed := elapsed, paused := paused }

/-- An occurrence that changes nothing. -/
theorem Handled.idle (hstops : s.stops o = false) (hattempts : s.attempts o = false)
    (hline : s.submitted? o = none) (hedit : o.edit s.typed = s.typed) : Handled s o s := by
  cases hawaiting : s.awaiting with
  | true =>
      have h := Handled.edited (o := o) s.elapsed hawaiting hstops hline
      rw [hedit] at h
      exact h
  | false => exact .held s.elapsed s.paused hawaiting hstops hattempts

/-- An occurrence that could only have stopped the run, and does not. -/
theorem Handled.of_not_stops (hattempts : s.attempts o = (s.stops o && (s.paused || s.awaiting)))
    (hstops : s.stops o = false) (hline : s.submitted? o = none)
    (hedit : o.edit s.typed = s.typed) : Handled s o s := by
  rw [hstops, Bool.false_and] at hattempts
  exact .idle hstops hattempts hline hedit

/-! ## What becomes of a scene -/

theorem awaited?_eq_none (h : s.awaiting = false) : s.session.awaited? = none :=
  Option.not_isSome_iff_eq_none.mp (Bool.eq_false_iff.mp h)

theorem submitted?_of_busy (h : s.awaiting = false) (o : Occurrence) : s.submitted? o = none := by
  have hline : (if s.awaiting then some (String.ofList s.typed) else none) = none := by
    rw [h]
    rfl
  cases o with
  | keyDown key control =>
      cases key with
      | enter => exact hline
      | numpadEnter => exact hline
      | _ => rfl
  | _ => rfl

theorem typed_interrupt : s.interrupt.typed = [] := by
  rw [interrupt]
  split <;> rfl

/-- A scene that was stopped does not wait: either it did not before, or the attempt that
it made has ended its run. -/
theorem awaiting_interrupt : s.interrupt.awaiting = false := by
  rw [interrupt]
  split
  · have hadvance : s.session.interrupt.advance.2.awaited? = none := by
      rw [Session.awaited?, Session.machine_advance, Machine.step_of_requested rfl]
      exact Status.awaited?_eq_none_iff.mpr Machine.not_awaiting_ended
    exact congrArg Option.isSome hadvance
  · next hgoes => exact (Bool.or_eq_false_iff.mp (Bool.eq_false_iff.mpr hgoes)).2

/-- A scene that waits hands over what was typed, and does not wait any more. -/
theorem submit_of_awaiting (h : s.awaiting = true) :
    ∃ input outcome session, s.session.machine.status = .awaiting input ∧
      s.session.supply (String.ofList s.typed) = (.ok outcome, session) ∧
      outcome = .did (.pushed (input.read (String.ofList s.typed))) ∧
      session.awaited? = none ∧
      s.submit = .ok { s with session := session, typed := [] } := by
  obtain ⟨input, hstatus⟩ : ∃ input, s.session.machine.status = .awaiting input := by
    refine s.session.machine.status.awaiting_or_busy.resolve_right fun hbusy => ?_
    rw [awaiting, Session.awaited?, hbusy] at h
    cases h
  have hsupply := s.session.supply_of_awaiting hstatus (String.ofList s.typed)
  refine ⟨input, _, _, hstatus, hsupply, rfl, rfl, ?_⟩
  rw [submit, hsupply]

/-- Time is spent on attempts if enough of it has been saved up, and on nothing else. -/
theorem spend_cases (budget : Nat) (s : Scene) :
    ∃ session elapsed, s.spend budget = { s with session := session, elapsed := elapsed } ∧
      (session = s.session ∧ (budget = 0 ∨ s.elapsed < s.setup.delay) ∨
        0 < budget ∧ s.setup.delay ≤ s.elapsed ∧ s.session.Advances session) := by
  induction budget generalizing s with
  | zero => exact ⟨s.session, 0, rfl, .inl ⟨rfl, .inl rfl⟩⟩
  | succ budget ih =>
      rw [spend]
      split
      · next hpaid =>
          have honce := Session.Advances.once s.session
          have hmore := @Session.Advances.more s.session
          rcases hadvance : s.session.advance with ⟨outcome, session⟩
          rw [hadvance] at honce hmore
          cases outcome with
          | did event =>
              obtain ⟨session', elapsed, hspend, hrest⟩ := ih
                { s with session := session, elapsed := s.elapsed - s.setup.delay }
              refine ⟨session', elapsed, hspend, .inr ⟨Nat.succ_pos _, hpaid, ?_⟩⟩
              rcases hrest with ⟨rfl, -⟩ | ⟨-, -, hadvances⟩
              · exact honce
              · exact hmore rfl hadvances
          | _ => exact ⟨session, 0, rfl, .inr ⟨Nat.succ_pos _, hpaid, honce⟩⟩
      · next hunpaid => exact ⟨s.session, s.elapsed, rfl, .inl ⟨rfl, .inr (by omega)⟩⟩

theorem handled_update (s : Scene) (time : Nat) :
    s.Handled (.update time) (s.update time) := by
  rw [update]
  split
  · next hheld =>
      have hattempts : s.attempts (.update time) = false := by
        rw [attempts, hheld]
        rfl
      cases hawaiting : s.awaiting with
      | true => exact .edited 0 hawaiting rfl rfl
      | false => exact .held 0 s.paused hawaiting rfl hattempts
  · next hgoing =>
      have hbusy : s.awaiting = false := by
        simp only [Bool.or_eq_true, not_or, Bool.not_eq_true] at hgoing
        exact hgoing.1.2
      have hattempts : s.attempts (.update time) =
          decide (s.setup.delay ≤ s.elapsed + time) := by
        rw [attempts, Bool.eq_false_iff.mpr hgoing]
        rfl
      obtain ⟨session, elapsed, hspend, hcase⟩ :=
        spend_cases maxStepsPerUpdate { s with elapsed := s.elapsed + time }
      rw [hspend]
      rcases hcase with ⟨rfl, hzero | hunpaid⟩ | ⟨-, hpaid, hadvances⟩
      · cases hzero
      · refine .held elapsed s.paused hbusy rfl ?_
        rw [hattempts]
        exact decide_eq_false (Nat.not_le.mpr hunpaid)
      · refine .advanced elapsed hbusy ?_ hadvances
        rw [hattempts]
        exact decide_eq_true hpaid

theorem handled_charTyped (s : Scene) (c : Char) : s.Handled (.typed c) (s.charTyped c) := by
  rw [charTyped]
  cases hawaiting : s.awaiting with
  | false => exact .held s.elapsed s.paused hawaiting rfl rfl
  | true =>
      have h := Handled.edited (o := .typed c) s.elapsed hawaiting rfl rfl
      rw [Occurrence.edit] at h
      cases hcontrol : Text.isControl c with
      | true =>
          rw [hcontrol] at h
          exact h
      | false =>
          rw [hcontrol] at h
          exact h

theorem handled_enter (hline : s.submitted? o =
      if s.awaiting then some (String.ofList s.typed) else none)
    (hstops : s.stops o = false) (hattempts : s.attempts o = false)
    (h : (if s.awaiting then s.submit else .ok s) = .ok s') : s.Handled o s' := by
  cases hawaiting : s.awaiting with
  | true =>
      obtain ⟨input, outcome, session, hstatus, hsupply, -, hanswered, hsubmit⟩ :=
        submit_of_awaiting hawaiting
      rw [hawaiting, if_pos rfl] at h hline
      rw [hsubmit] at h
      cases h
      exact .submitted hstatus hline hsupply hanswered
  | false =>
      rw [hawaiting, if_neg Bool.false_ne_true] at h
      cases h
      exact .held s.elapsed s.paused hawaiting hstops hattempts

theorem handled_keyDown {key : Key} {control : Bool} (h : s.keyDown key control = .ok s') :
    s.Handled (.keyDown key control) s' := by
  cases key with
  | enter => exact handled_enter rfl rfl rfl h
  | numpadEnter => exact handled_enter rfl rfl rfl h
  | escape =>
      obtain rfl := Except.ok.inj h
      cases hfinished : s.isFinished with
      | true =>
          have hstops : s.stops (.keyDown .escape control) = false := by
            rw [stops, hfinished]
            rfl
          exact .of_not_stops rfl hstops rfl rfl
      | false =>
          refine .stopped ?_
          rw [stops, hfinished]
          rfl
  | c =>
      obtain rfl := Except.ok.inj h
      split
      · next hasked => exact .stopped hasked
      · next hquiet =>
          exact .of_not_stops rfl (Bool.eq_false_iff.mpr hquiet) rfl rfl
  | backspace =>
      obtain rfl := Except.ok.inj h
      split
      · next hawaiting => exact .edited s.elapsed hawaiting rfl rfl
      · next hbusy => exact .held s.elapsed s.paused (Bool.eq_false_iff.mpr hbusy) rfl rfl
  | space =>
      obtain rfl := Except.ok.inj h
      split
      · exact .idle rfl rfl rfl rfl
      · next hbusy => exact .held s.elapsed _ (Bool.eq_false_iff.mpr hbusy) rfl rfl
  | n =>
      obtain rfl := Except.ok.inj h
      split
      · next hsteps =>
          have hbusy : s.awaiting = false := by
            simp only [Bool.and_eq_true, Bool.not_eq_true'] at hsteps
            exact hsteps.2
          exact .advanced s.elapsed hbusy hsteps (.once s.session)
      · next hheld => exact .idle rfl (Bool.eq_false_iff.mpr hheld) rfl rfl
  | r =>
      obtain rfl := Except.ok.inj h
      exact .idle rfl rfl rfl rfl
  | other =>
      obtain rfl := Except.ok.inj h
      exact .idle rfl rfl rfl rfl

theorem exists_keyDown (s : Scene) (key : Key) (control : Bool) :
    ∃ s', s.keyDown key control = .ok s' := by
  have hsubmit : ∃ s', (if s.awaiting then s.submit else .ok s) = .ok s' := by
    split
    · next hawaiting =>
        obtain ⟨input, outcome, session, -, -, -, -, hsubmit⟩ := submit_of_awaiting hawaiting
        exact ⟨_, hsubmit⟩
    · exact ⟨s, rfl⟩
  cases key with
  | enter => exact hsubmit
  | numpadEnter => exact hsubmit
  | _ => exact ⟨_, rfl⟩

end Scene

/-! ## What becomes of a window -/

namespace Window

variable {w w' : Window} {o : Occurrence}

theorem exists_handle (w : Window) (o : Occurrence) : ∃ w', w.handle o = .ok w' := by
  cases o with
  | keyDown key control =>
      obtain ⟨s, hkey⟩ := w.scene.exists_keyDown key control
      rw [handle, keyDown, hkey]
      split
      · exact ⟨_, rfl⟩
      · exact ⟨_, rfl⟩
  | _ => exact ⟨_, rfl⟩

theorem handled (h : w.handle o = .ok w') :
    w.scene.restarts o = true ∧ w' = w.restart ∨
      w.scene.restarts o = false ∧ w.scene.Handled o w'.scene ∧
        w'.quitRequested = (w.quitRequested || w.scene.quitsOn o) ∧
        w'.entropy = w.entropy := by
  cases o with
  | update time =>
      obtain rfl := Except.ok.inj h
      exact .inr ⟨rfl, w.scene.handled_update time, (Bool.or_false _).symm, rfl⟩
  | keyUp key =>
      obtain rfl := Except.ok.inj h
      exact .inr ⟨rfl, .idle rfl rfl rfl rfl, (Bool.or_false _).symm, rfl⟩
  | typed c =>
      obtain rfl := Except.ok.inj h
      exact .inr ⟨rfl, w.scene.handled_charTyped c, (Bool.or_false _).symm, rfl⟩
  | draw =>
      obtain rfl := Except.ok.inj h
      exact .inr ⟨rfl, .idle rfl rfl rfl rfl, (Bool.or_false _).symm, rfl⟩
  | keyDown key control =>
      rw [handle, keyDown, ← Scene.restarts_keyDown w.scene key control] at h
      cases hanew : w.scene.restarts (.keyDown key control) with
      | true =>
          rw [hanew] at h
          exact .inl ⟨rfl, (Except.ok.inj h).symm⟩
      | false =>
          rw [hanew, if_neg Bool.false_ne_true] at h
          cases hkey : w.scene.keyDown key control with
          | error e =>
              rw [hkey] at h
              cases h
          | ok s =>
              rw [hkey] at h
              obtain rfl := Except.ok.inj h
              exact .inr ⟨rfl, Scene.handled_keyDown hkey, rfl, rfl⟩

/-! ## Histories -/

/-- The occurrences of a history, each with the scene that it met. -/
def met : Window → List Occurrence → List (Scene × Occurrence)
  | _, [] => []
  | w, o :: rest =>
    (w.scene, o) ::
      match w.handle o with
      | .ok w => w.met rest
      | .error _ => []

theorem exists_handleAll (w : Window) (occurrences : List Occurrence) :
    ∃ w', w.handleAll occurrences = .ok w' := by
  induction occurrences generalizing w with
  | nil => exact ⟨w, rfl⟩
  | cons o rest ih =>
      obtain ⟨w₁, hhandle⟩ := w.exists_handle o
      obtain ⟨w', hall⟩ := ih w₁
      refine ⟨w', ?_⟩
      rw [handleAll, hhandle]
      exact hall

theorem mem_of_mem_met {w : Window} {occurrences : List Occurrence} {x : Scene × Occurrence}
    (h : x ∈ w.met occurrences) : x.2 ∈ occurrences := by
  induction occurrences generalizing w with
  | nil => cases h
  | cons o rest ih =>
      obtain ⟨w₁, hhandle⟩ := w.exists_handle o
      rw [met, hhandle] at h
      rcases List.mem_cons.mp h with rfl | hrest
      · exact List.mem_cons_self
      · exact List.mem_cons_of_mem o (ih hrest)

/-- What every occurrence keeps that is added to what was met, a history keeps. -/
theorem handleAll_keeps {P : List (Scene × Occurrence) → Window → Prop}
    (hhandle : ∀ met w o w', P met w → w.handle o = .ok w' → P (met ++ [(w.scene, o)]) w')
    {occurrences : List Occurrence} : ∀ met {w w'}, P met w →
      w.handleAll occurrences = .ok w' → P (met ++ w.met occurrences) w' := by
  induction occurrences with
  | nil =>
      intro met w w' h hall
      obtain rfl := Except.ok.inj hall
      rw [Window.met, List.append_nil]
      exact h
  | cons o rest ih =>
      intro met w w' h hall
      obtain ⟨w₁, hfirst⟩ := w.exists_handle o
      rw [handleAll, hfirst] at hall
      have hrest := ih _ (hhandle met w o w₁ h hfirst) hall
      rw [Window.met, hfirst]
      rw [List.append_assoc] at hrest
      exact hrest

end Window

/-! ## The run of a scene -/

/-- Whether the run of a scene has come out of a fresh one by calls. -/
def Scene.Reached (s : Scene) : Prop :=
  ∃ entropy, s.session.Reached s.setup.program (.drawn s.setup.seed entropy)

namespace Scene.Reached

variable {s s' : Scene} {o : Occurrence}

theorem start (setup : Setup) (entropy : Random.Entropy) :
    (Scene.start setup entropy).Reached :=
  ⟨entropy, Session.Reached.start _ _⟩

theorem interrupt (h : s.Reached) : s.interrupt.Reached := by
  obtain ⟨entropy, hreached⟩ := h
  have hasked := hreached.call .interrupt
  rw [Scene.interrupt]
  split
  · exact ⟨entropy, hasked.call .step⟩
  · exact ⟨entropy, hasked⟩

theorem handled (h : s.Reached) (hhandled : s.Handled o s') : s'.Reached := by
  obtain ⟨entropy, hreached⟩ := h
  cases hhandled with
  | stopped hstops => exact interrupt ⟨entropy, hreached⟩
  | submitted awaiting hline hsupply hanswered => exact ⟨entropy, hreached.supply hsupply⟩
  | edited elapsed awaiting hstops hline => exact ⟨entropy, hreached⟩
  | advanced elapsed busy hattempts hadvances => exact ⟨entropy, hreached.advances hadvances⟩
  | held elapsed paused busy hstops hattempts => exact ⟨entropy, hreached⟩

theorem finished (h : s.Reached) : s.isFinished = s.session.machine.status.isOver := by
  obtain ⟨entropy, hreached⟩ := h
  exact hreached.finished

end Scene.Reached

/-- Whatever happens to a window, its run is one that was called. -/
theorem Window.reached {setup : Setup} {entropy : Random.Entropy}
    {occurrences : List Occurrence} {w : Window}
    (h : (opened setup entropy).handleAll occurrences = .ok w) : w.scene.Reached := by
  refine handleAll_keeps (P := fun _ w => w.scene.Reached) ?_ [] (.start setup entropy) h
  intro met w o w' hreached hhandle
  rcases handled hhandle with ⟨-, rfl⟩ | ⟨-, hhandled, -⟩
  · exact .start w.scene.setup w.entropy
  · exact hreached.handled hhandled

end Viewer

end Funge93
