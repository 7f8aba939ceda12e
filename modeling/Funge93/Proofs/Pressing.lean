import Funge93.Proofs.Typing

/-!
# Pressing a key

To press a key is two occurrences: the key goes down, and then comes the character that it
types. A key that is a command should type nothing. What keeps the two apart is that a
scene takes characters only while it waits, and commands only while it does not. But it
looks twice, once for the key and once for the character, and the command may have been
carried out in between.

So what matters is whether a command makes a scene wait. Only an attempt can do that, if it
finds an instruction that asks (`step_awaits_iff`), and of all keys only the one that steps
a run that is held makes an attempt that is not the end of the run. That key then types its
letter into the line that it has just opened.
-/

namespace Funge93

theorem Instruction.ofChar_asks_iff {c : Char} :
    (∃ input, ofChar c = .ask input) ↔ c = '&' ∨ c = '~' := by
  constructor
  · rintro ⟨input, h⟩
    cases input with
    | integer => exact .inl (eq_of_ofChar_eq h rfl)
    | character => exact .inr (eq_of_ofChar_eq h rfl)
  · rintro (rfl | rfl)
    · exact ⟨.integer, rfl⟩
    · exact ⟨.character, rfl⟩

namespace Machine

variable {m : Machine}

/-- Whether the next attempt of a machine finds an instruction that asks for input. -/
def Asks (m : Machine) : Prop :=
  m.status = .running ∧ m.interruptRequested = false ∧ m.stringMode = false ∧
    (m.cell = '&' ∨ m.cell = '~')

instance : Decidable m.Asks :=
  inferInstanceAs (Decidable (_ ∧ _ ∧ _ ∧ _))

theorem execute_awaits_iff (hrunning : m.status = .running) (source : Random.Source)
    (i : Instruction) :
    (m.execute source i).machine.status.awaited?.isSome = true ↔ ∃ input, i = .ask input := by
  cases i with
  | ask input => exact ⟨fun _ => ⟨input, rfl⟩, fun _ => rfl⟩
  | halt => exact ⟨nofun, nofun⟩
  | _ =>
      -- What is completed leaves the machine running.
      refine ⟨fun h => ?_, nofun⟩
      have hkept : m.status.awaited?.isSome = true := h
      rw [hrunning] at hkept
      cases hkept

/-- A machine that does not wait comes to wait by an instruction that asks and in no other
way. -/
theorem step_awaits_iff (hbusy : m.status.awaited? = none) (source : Random.Source) :
    (m.step source).machine.status.awaited?.isSome = true ↔ m.Asks := by
  rw [Asks, step]
  split
  · next hstatus => simp [hstatus, Status.awaited?]
  · next hstatus => simp [hstatus, Status.awaited?]
  · next hrunning =>
      split
      · next hasked => simp [hasked, Status.awaited?]
      · next hcalm =>
          rw [Bool.not_eq_true] at hcalm
          split
          · next hmode =>
              have hkept : (completing source (m.quoting m.cell)).machine.status = m.status := by
                rw [quoting]
                split <;> rfl
              rw [hkept, hrunning]
              simp [hmode, Status.awaited?]
          · next hmode =>
              rw [Bool.not_eq_true] at hmode
              rw [execute_awaits_iff hrunning, Instruction.ofChar_asks_iff]
              simp [hrunning, hcalm, hmode]
  · next input hstatus =>
      rw [hstatus] at hbusy
      cases hbusy

end Machine

namespace Viewer

/-- A key that goes down, and the character that it types. -/
def press (key : Key) (control : Bool) (c : Char) : List Occurrence :=
  [.keyDown key control, .typed c]

namespace Scene

variable {s : Scene}

/-- Whether a key steps a run onto an instruction that asks for input. -/
def StepsToRequest (s : Scene) (key : Key) : Prop :=
  key = .n ∧ s.paused = true ∧ s.session.machine.Asks

instance {key : Key} : Decidable (s.StepsToRequest key) :=
  inferInstanceAs (Decidable (_ ∧ _ ∧ _))

theorem awaiting_stepOnce (hbusy : s.awaiting = false) :
    s.stepOnce.awaiting = true ↔ s.session.machine.Asks := by
  rw [← Machine.step_awaits_iff (awaited?_eq_none hbusy) s.session.source,
    ← Session.machine_advance]
  rfl

/-- A character that comes to an empty line. -/
theorem typed_charTyped (htyped : s.typed = []) (c : Char) :
    (s.charTyped c).typed =
      if s.awaiting = true ∧ Text.isControl c = false then [c] else [] := by
  rw [charTyped]
  cases s.awaiting with
  | false => exact htyped
  | true => cases Text.isControl c <;> simp [htyped]

/-- A key leaves the line of a scene empty that does not wait. It makes the scene wait if it
steps the run onto a request, and else not. -/
theorem keyDown_of_busy (hbusy : s.awaiting = false) (htyped : s.typed = []) (key : Key)
    (control : Bool) :
    ∃ s', s.keyDown key control = .ok s' ∧ s'.typed = [] ∧
      (s'.awaiting = true ↔ s.StepsToRequest key) := by
  have hquiet : ∀ s' : Scene, s'.awaiting = false → key ≠ .n →
      (s'.awaiting = true ↔ s.StepsToRequest key) := by
    intro s' hbusy' hkey
    rw [hbusy']
    exact ⟨nofun, fun h => absurd h.1 hkey⟩
  cases key with
  | enter => exact ⟨s, if_neg (Bool.eq_false_iff.mp hbusy), htyped, hquiet s hbusy nofun⟩
  | numpadEnter => exact ⟨s, if_neg (Bool.eq_false_iff.mp hbusy), htyped, hquiet s hbusy nofun⟩
  | escape =>
      refine ⟨_, rfl, ?_⟩
      split
      · exact ⟨htyped, hquiet s hbusy nofun⟩
      · exact ⟨typed_interrupt, hquiet _ awaiting_interrupt nofun⟩
  | c =>
      refine ⟨_, rfl, ?_⟩
      split
      · exact ⟨typed_interrupt, hquiet _ awaiting_interrupt nofun⟩
      · exact ⟨htyped, hquiet s hbusy nofun⟩
  | backspace =>
      refine ⟨s, ?_, htyped, hquiet s hbusy nofun⟩
      rw [keyDown, hbusy]
      rfl
  | space =>
      refine ⟨{ s with paused := !s.paused }, ?_, htyped, hquiet _ hbusy nofun⟩
      rw [keyDown, hbusy]
      rfl
  | n =>
      refine ⟨_, rfl, ?_⟩
      rw [hbusy, Bool.not_false, Bool.and_true]
      split
      · next hpaused =>
          refine ⟨htyped, (awaiting_stepOnce hbusy).trans ?_⟩
          exact ⟨fun h => ⟨rfl, hpaused, h⟩, fun h => h.2.2⟩
      · next hfree =>
          refine ⟨htyped, ?_⟩
          rw [hbusy]
          exact ⟨nofun, fun h => absurd h.2.1 hfree⟩
  | r => exact ⟨s, rfl, htyped, hquiet s hbusy nofun⟩
  | other => exact ⟨s, rfl, htyped, hquiet s hbusy nofun⟩

end Scene

namespace Window

variable {w : Window}

theorem keyDown_of_busy (hbusy : w.scene.awaiting = false) (htyped : w.scene.typed = [])
    (key : Key) (control : Bool) :
    ∃ w', w.handle (.keyDown key control) = .ok w' ∧ w'.scene.typed = [] ∧
      (w'.scene.awaiting = true ↔ w.scene.StepsToRequest key) := by
  obtain ⟨s, hkey, htyped', hwaits⟩ := Scene.keyDown_of_busy hbusy htyped key control
  rw [handle, keyDown, hkey]
  split
  · next hanew =>
      -- A run that is begun anew does not wait, and the key was not the one that steps.
      refine ⟨w.restart, rfl, rfl, iff_of_false Bool.false_ne_true ?_⟩
      rintro ⟨rfl, -⟩
      rw [Bool.and_eq_true] at hanew
      cases hanew.2
  · exact ⟨_, rfl, htyped', hwaits⟩

end Window

/-- Whatever has happened to a window, if its scene does not wait, a press of a key types
nothing, unless the key steps the run onto a request and its character is text. Then that
character is what the line begins with. -/
theorem only_step_to_request_is_typed (setup : Setup) (entropy : Random.Entropy)
    (before : List Occurrence) :
    ∃ w, (Window.opened setup entropy).handleAll before = .ok w ∧
      (w.scene.awaiting = false → ∀ key control c, ∃ w',
        w.handleAll (press key control c) = .ok w' ∧
        w'.scene.typed =
          if w.scene.StepsToRequest key ∧ Text.isControl c = false then [c] else []) := by
  obtain ⟨w, hall⟩ := (Window.opened setup entropy).exists_handleAll before
  refine ⟨w, hall, fun hbusy key control c => ?_⟩
  have hempty : w.scene.typed = [] := (Window.typed_handleAll hall).idle hbusy
  obtain ⟨w₁, hkey, htyped, hwaits⟩ := Window.keyDown_of_busy hbusy hempty key control
  refine ⟨{ w₁ with scene := w₁.scene.charTyped c }, ?_, ?_⟩
  · rw [press, Window.handleAll, hkey]
    rfl
  · exact (Scene.typed_charTyped htyped c).trans (if_congr (and_congr_left' hwaits) rfl rfl)

/-- A run that is held, stepped onto a digit and then onto a request. The first press types
nothing and the second one its letter. -/
theorem only_step_to_request_is_typed_second :
    let setup : Setup := ⟨Grid.ofLines [['1', '&', '@']], none, 30000⟩
    let entropy : Random.Entropy := fun n => Random.ChaCha.key (UInt64.ofNat n)
    let opened := Window.opened setup entropy
    let before := press .space false ' '
    let between := before ++ press .n false 'n'
    ∃ w₁ w₁' w₂ w₂', opened.handleAll before = .ok w₁ ∧
      w₁.scene.awaiting = false ∧ ¬w₁.scene.StepsToRequest .n ∧
      w₁.handleAll (press .n false 'n') = .ok w₁' ∧ w₁'.scene.typed = [] ∧
      opened.handleAll between = .ok w₂ ∧
      w₂.scene.awaiting = false ∧ w₂.scene.StepsToRequest .n ∧
      w₂.handleAll (press .n false 'N') = .ok w₂' ∧ w₂'.scene.typed = ['N'] := by
  intro setup entropy opened before between
  have hbefore : (opened.handleAll before).toOption.map
      (fun w => (w.scene.awaiting, decide (w.scene.StepsToRequest .n))) =
        some (false, false) := by decide +kernel
  have hbetween : (opened.handleAll between).toOption.map
      (fun w => (w.scene.awaiting, decide (w.scene.StepsToRequest .n))) =
        some (false, true) := by decide +kernel
  clear_value before between
  obtain ⟨w₁, hall₁, hpress₁⟩ := only_step_to_request_is_typed setup entropy before
  obtain ⟨w₂, hall₂, hpress₂⟩ := only_step_to_request_is_typed setup entropy between
  rw [hall₁] at hbefore
  rw [hall₂] at hbetween
  obtain ⟨hbusy₁, hsteps₁⟩ := Prod.mk.inj (Option.some.inj hbefore)
  obtain ⟨hbusy₂, hsteps₂⟩ := Prod.mk.inj (Option.some.inj hbetween)
  have hsteps₁ := of_decide_eq_false hsteps₁
  have hsteps₂ := of_decide_eq_true hsteps₂
  obtain ⟨w₁', hhandle₁, htyped₁⟩ := hpress₁ hbusy₁ .n false 'n'
  obtain ⟨w₂', hhandle₂, htyped₂⟩ := hpress₂ hbusy₂ .n false 'N'
  rw [if_neg fun h => hsteps₁ h.1] at htyped₁
  rw [if_pos ⟨hsteps₂, by decide⟩] at htyped₂
  exact ⟨w₁, w₁', w₂, w₂', hall₁, hbusy₁, hsteps₁, hhandle₁, htyped₁, hall₂, hbusy₂, hsteps₂,
    hhandle₂, htyped₂⟩

/-- The key that steps a run is taken as a command and also as text. -/
theorem step_key_types_its_letter :
    let setup : Setup := ⟨Grid.ofLines [['&', '.', '@']], some 1, 30000⟩
    let opened := Window.opened setup fun _ => Random.ChaCha.key 0
    ∃ w w', opened.handleAll (press .space false ' ') = .ok w ∧ w.scene.awaiting = false ∧
      w.handleAll (press .n false 'n') = .ok w' ∧ w'.scene.typed = ['n'] := by
  intro setup opened
  refine ⟨{ opened with scene := { opened.scene with paused := true } }, _, rfl, rfl, rfl, ?_⟩
  decide +kernel

end Viewer

end Funge93
