import Funge93.Proofs.Handling

/-!
# Beginning anew

A run that is begun anew is made from the setup of its scene, so it is as good as the first
one if that is still the setup that the window was opened with. It is: a program that
writes to its own space writes to the grid of its machine, and neither the random turns it
takes nor the lines it is given change what the scene was set up with.

The rest is that a window goes on from its scene alone. What else it has is whether it was
asked to close, at which nobody looks, and the keys that the system will make up for further
runs, which matter only if there is no seed. So two windows with the same scene, and the same
keys if there is no seed, are `Alike`: they meet what comes with the same scenes, from then on
and through every further restart, and draw the same frames.
-/

namespace Funge93

namespace Random

variable {seed : Option UInt64} {entropy other : Entropy}

/-- A seed makes the keys of the system irrelevant. -/
theorem Source.drawn_congr (h : seed = none → entropy = other) :
    drawn seed entropy = drawn seed other := by
  cases seed with
  | none => rw [h rfl]
  | some seed => rfl

theorem Source.taken_drawn (seed : Option UInt64) (entropy : Entropy) :
    (drawn seed entropy).taken = 0 := by
  cases seed <;> rfl

theorem Entropy.left_of_ne_none (h : seed ≠ none) : entropy.left seed = entropy := by
  cases seed with
  | none => exact absurd rfl h
  | some seed => rfl

end Random

namespace Viewer

namespace Scene

variable {s s' : Scene} {o : Occurrence}

@[simp] theorem setup_interrupt : s.interrupt.setup = s.setup := by
  rw [interrupt]
  split <;> rfl

theorem setup_handled (h : s.Handled o s') : s'.setup = s.setup := by
  cases h with
  | stopped hstops => exact setup_interrupt
  | _ => rfl

theorem start_congr {setup : Setup} {entropy other : Random.Entropy}
    (h : setup.seed = none → entropy = other) : start setup entropy = start setup other := by
  rw [start, start, Random.Source.drawn_congr h]

/-- A scene in which nothing has happened yet. -/
structure Untouched (setup : Setup) (source : Random.Source) (s : Scene) : Prop where
  keeps : s.setup = setup
  grid : s.session.machine.grid = setup.program
  place : s.session.machine.place = Place.origin
  stack : s.session.machine.stack = Stack.empty
  output : s.session.machine.output = ""
  steps : s.session.machine.steps = 0
  running : s.session.machine.status = .running
  calm : s.session.machine.interruptRequested = false
  source : s.session.source = source
  draws : s.session.source.taken = 0
  log : s.session.log.toList = []
  lastWrite : s.session.lastWrite = none
  unfinished : s.isFinished = false
  elapsed : s.elapsed = 0
  free : s.paused = false
  typed : s.typed = []

theorem untouched_start (setup : Setup) (entropy : Random.Entropy) :
    Untouched setup (.drawn setup.seed entropy) (start setup entropy) where
  keeps := rfl
  grid := rfl
  place := rfl
  stack := rfl
  output := rfl
  steps := rfl
  running := rfl
  calm := rfl
  source := rfl
  draws := Random.Source.taken_drawn setup.seed entropy
  log := List.drop_nil
  lastWrite := rfl
  unfinished := rfl
  elapsed := rfl
  free := rfl
  typed := rfl

end Scene

namespace Window

variable {w w' v v' : Window} {o : Occurrence}

theorem setup_handle (h : w.handle o = .ok w') : w'.scene.setup = w.scene.setup := by
  rcases handled h with ⟨-, rfl⟩ | ⟨-, hhandled, -⟩
  · rfl
  · exact Scene.setup_handled hhandled

theorem setup_handleAll {setup : Setup} {entropy : Random.Entropy}
    {occurrences : List Occurrence} (hall : (opened setup entropy).handleAll occurrences = .ok w) :
    w.scene.setup = setup := by
  refine handleAll_keeps (P := fun _ w => w.scene.setup = setup) ?_ [] rfl hall
  intro met w o w' hsetup hhandle
  exact (setup_handle hhandle).trans hsetup

/-- A window with a seed takes no key from the system. -/
theorem entropy_handleAll {setup : Setup} {entropy : Random.Entropy}
    {occurrences : List Occurrence} (hall : (opened setup entropy).handleAll occurrences = .ok w)
    (hseed : setup.seed ≠ none) : w.entropy = entropy := by
  have hleft : ∀ entropy : Random.Entropy, entropy.left setup.seed = entropy :=
    fun _ => Random.Entropy.left_of_ne_none hseed
  refine (handleAll_keeps (P := fun _ w => w.scene.setup = setup ∧ w.entropy = entropy) ?_ []
    ⟨rfl, hleft entropy⟩ hall).2
  rintro met w o w' ⟨hsetup, hentropy⟩ hhandle
  refine ⟨(setup_handle hhandle).trans hsetup, ?_⟩
  rcases handled hhandle with ⟨-, rfl⟩ | ⟨-, -, -, hkept⟩
  · rw [restart, hsetup]
    exact (hleft _).trans hentropy
  · exact hkept.trans hentropy

theorem restart_eq_opened {setup : Setup} (h : w.scene.setup = setup) :
    w.restart = { opened setup w.entropy with quitRequested := w.quitRequested } := by
  rw [restart, h]
  rfl

theorem handle_restartKey (control : Bool) :
    w.handle (.keyDown .r control) = .ok (if w.scene.isFinished then w.restart else w) := by
  rw [handle, keyDown, beq_self_eq_true, Bool.and_true]
  split
  · rfl
  · have hquits : w.scene.quits .r = false := rfl
    rw [Scene.keyDown, hquits, Bool.or_false]

/-! ## Windows that cannot be told apart -/

/-- Windows with the same scene, and with the same keys to come if those are ever used. -/
structure Alike (w v : Window) : Prop where
  scene : w.scene = v.scene
  entropy : w.scene.setup.seed = none → w.entropy = v.entropy

theorem scene_handle (hsame : w.scene = v.scene) (hgoes : v.scene.restarts o = false)
    (hw : w.handle o = .ok w') (hv : v.handle o = .ok v') : w'.scene = v'.scene := by
  cases o with
  | keyDown key control =>
      rw [Scene.restarts_keyDown] at hgoes
      rw [handle, keyDown, hsame, hgoes, if_neg Bool.false_ne_true] at hw
      rw [handle, keyDown, hgoes, if_neg Bool.false_ne_true] at hv
      cases hkey : v.scene.keyDown key control with
      | error e =>
          rw [hkey] at hv
          cases hv
      | ok s =>
          rw [hkey] at hw hv
          obtain rfl := Except.ok.inj hw
          obtain rfl := Except.ok.inj hv
          rfl
  | update time =>
      obtain rfl := Except.ok.inj hw
      obtain rfl := Except.ok.inj hv
      exact congrArg (Scene.update · time) hsame
  | typed c =>
      obtain rfl := Except.ok.inj hw
      obtain rfl := Except.ok.inj hv
      exact congrArg (Scene.charTyped · c) hsame
  | _ =>
      obtain rfl := Except.ok.inj hw
      obtain rfl := Except.ok.inj hv
      exact hsame

namespace Alike

theorem opened {setup : Setup} {entropy other : Random.Entropy} (quitRequested : Bool)
    (h : setup.seed = none → entropy = other) :
    Alike { Window.opened setup entropy with quitRequested := quitRequested }
      (Window.opened setup other) where
  scene := Scene.start_congr h
  entropy hnone := by
    show entropy.left setup.seed = other.left setup.seed
    rw [h hnone]

theorem restart (h : Alike w v) : Alike w.restart v.restart := by
  have hsetup : v.scene.setup = w.scene.setup := congrArg Scene.setup h.scene.symm
  refine ⟨?_, fun hnone => ?_⟩
  · show Scene.start _ _ = Scene.start _ _
    rw [hsetup]
    exact Scene.start_congr h.entropy
  · show w.entropy.left _ = v.entropy.left _
    rw [hsetup, h.entropy hnone]

theorem handle (h : Alike w v) (hw : w.handle o = .ok w') (hv : v.handle o = .ok v') :
    Alike w' v' := by
  rcases handled hw with ⟨hrestarts, rfl⟩ | ⟨hgoes, -, -, hkept⟩
  · rw [h.scene] at hrestarts
    rcases handled hv with ⟨-, rfl⟩ | ⟨hgoes, -⟩
    · exact h.restart
    · rw [hrestarts] at hgoes
      cases hgoes
  · rw [h.scene] at hgoes
    rcases handled hv with ⟨hrestarts, -⟩ | ⟨-, -, -, hkept'⟩
    · rw [hgoes] at hrestarts
      cases hrestarts
    · refine ⟨scene_handle h.scene hgoes hw hv, ?_⟩
      rw [setup_handle hw, hkept, hkept']
      exact h.entropy

end Alike

/-- The frames that a history draws. -/
def frames (w : Window) (occurrences : List Occurrence) : List Frame :=
  (w.met occurrences).filterMap fun x => if x.2 = .draw then some x.1.frame else none

/-- Such windows go through the same scenes, whatever comes. -/
theorem Alike.handleAll (h : Alike w v) (occurrences : List Occurrence) :
    ∃ w' v', w.handleAll occurrences = .ok w' ∧ v.handleAll occurrences = .ok v' ∧
      w'.scene = v'.scene ∧ w.met occurrences = v.met occurrences := by
  induction occurrences generalizing w v with
  | nil => exact ⟨w, v, rfl, rfl, h.scene, rfl⟩
  | cons o rest ih =>
      obtain ⟨w₁, hw⟩ := w.exists_handle o
      obtain ⟨v₁, hv⟩ := v.exists_handle o
      obtain ⟨w', v', hw', hv', hsame, hmet⟩ := ih (h.handle hw hv)
      refine ⟨w', v', ?_, ?_, hsame, ?_⟩
      · rw [Window.handleAll, hw]
        exact hw'
      · rw [Window.handleAll, hv]
        exact hv'
      · rw [met, met, hw, hv, h.scene]
        exact congrArg _ hmet

end Window

/-- Whatever has happened to a window, the key for a restart does nothing while the run is
not over. Once it is, the key makes the window one that has just been opened with its setup
and the keys that are left, of which a window with a seed has used none. In its scene nothing
has happened yet. From then on it goes through the scenes of any newly opened window, and
draws the same frames. Only without a seed must that window have been given the same keys. -/
theorem restart_is_fresh (setup : Setup) (entropy : Random.Entropy) (before : List Occurrence)
    (control : Bool) :
    ∃ w, (Window.opened setup entropy).handleAll before = .ok w ∧
      (w.scene.isFinished = false → w.handle (.keyDown .r control) = .ok w) ∧
      (w.scene.isFinished = true → ∃ anew, w.handle (.keyDown .r control) = .ok anew ∧
        anew = { Window.opened setup w.entropy with quitRequested := w.quitRequested } ∧
        (setup.seed ≠ none → w.entropy = entropy) ∧
        anew.scene.Untouched setup (.drawn setup.seed w.entropy) ∧
        ∀ other, (setup.seed = none → w.entropy = other) →
          let fresh := Window.opened setup other
          anew.scene = fresh.scene ∧
          ∀ later, ∃ w' fresh', anew.handleAll later = .ok w' ∧
            fresh.handleAll later = .ok fresh' ∧ w'.scene = fresh'.scene ∧
            anew.met later = fresh.met later ∧ anew.frames later = fresh.frames later) := by
  obtain ⟨w, hall⟩ := (Window.opened setup entropy).exists_handleAll before
  refine ⟨w, hall, fun hopen => ?_, fun hfinished => ?_⟩
  · rw [Window.handle_restartKey, hopen]
    rfl
  · have hanew := Window.restart_eq_opened (Window.setup_handleAll hall)
    refine ⟨w.restart, ?_, hanew, Window.entropy_handleAll hall, ?_, fun other hkeys => ?_⟩
    · rw [Window.handle_restartKey, hfinished]
      rfl
    · rw [hanew]
      exact Scene.untouched_start setup w.entropy
    · have halike : w.restart.Alike (Window.opened setup other) := by
        rw [hanew]
        exact .opened w.quitRequested hkeys
      refine ⟨halike.scene, fun later => ?_⟩
      obtain ⟨w', fresh', hw', hfresh, hsame, hmet⟩ := halike.handleAll later
      refine ⟨w', fresh', hw', hfresh, hsame, hmet, ?_⟩
      rw [Window.frames, Window.frames, hmet]

/-- A program that asks for a character, writes it over its first cell, prints and ends. It
is held after that. The restart brings the first cell back and lets the run go. -/
theorem restart_is_fresh_rewritten :
    let setup : Setup := ⟨Grid.ofLines [['~', '0', '0', 'p', ',', '@']], some 0, 0⟩
    let opened := Window.opened setup fun _ => Random.ChaCha.key 0
    let fresh := Window.opened setup fun _ => Random.ChaCha.key 1
    let before := [.update 0, .typed 'x', .keyDown .enter false, .update 0,
      .keyDown .space false]
    let later := [.draw, .update 0, .typed 'y', .draw, .keyDown .escape false, .draw,
      .keyDown .r false, .draw]
    ∃ w anew, opened.handleAll before = .ok w ∧ w.scene.isFinished = true ∧
      w.scene.paused = true ∧ w.scene.session.machine.grid.get Place.origin = 'x' ∧
      w.handle (.keyDown .r false) = .ok anew ∧ anew.scene.paused = false ∧
      anew.scene.session.machine.grid = setup.program ∧
      anew.frames later = fresh.frames later := by
  intro setup opened fresh before later
  have hbefore : (opened.handleAll before).toOption.map (fun w => (w.scene.isFinished,
      w.scene.paused, w.scene.session.machine.grid.get Place.origin)) =
        some (true, true, 'x') := by decide +kernel
  clear_value before later
  obtain ⟨w, hall, -, hrestart⟩ :=
    restart_is_fresh setup (fun _ => Random.ChaCha.key 0) before false
  rw [hall] at hbefore
  obtain ⟨hfinished, hpaused, hcell⟩ : w.scene.isFinished = true ∧ w.scene.paused = true ∧
      w.scene.session.machine.grid.get Place.origin = 'x' := by
    simpa only [Except.toOption, Option.map_some, Option.some.injEq, Prod.mk.injEq] using hbefore
  obtain ⟨anew, hhandle, -, -, huntouched, hfresh⟩ := hrestart hfinished
  obtain ⟨-, hlater⟩ := hfresh (fun _ => Random.ChaCha.key 1) nofun
  obtain ⟨-, -, -, -, -, -, hframes⟩ := hlater later
  exact ⟨w, anew, hall, hfinished, hpaused, hcell, hhandle, huntouched.free, huntouched.grid,
    hframes⟩

end Viewer

end Funge93
