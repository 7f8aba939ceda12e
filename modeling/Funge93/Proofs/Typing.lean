import Mathlib.Data.List.DropRight
import Funge93.Proofs.Handling

/-!
# The line that is typed

The line belongs to the scene and the request to the session, and neither knows of the
other. What ties them is that a request does not begin and end unseen: an occurrence that
a waiting scene meets leaves it waiting for the same, or the line is emptied with it. So a
scene that does not wait has an empty line, and each request begins with one. The line is
then made by the occurrences that the scene has met since it began to wait, and by nothing
before them.
-/

namespace Funge93.Viewer

/-- The line that occurrences make of an empty one. -/
def edited (occurrences : List Occurrence) : List Char :=
  occurrences.foldl Occurrence.edit []

theorem edited_concat (occurrences : List Occurrence) (o : Occurrence) :
    edited (occurrences ++ [o]) = o.edit (edited occurrences) :=
  List.foldl_concat ..

theorem isControl_edited (occurrences : List Occurrence) :
    ∀ c ∈ edited occurrences, Text.isControl c = false := by
  induction occurrences using List.reverseRecOn with
  | nil => exact nofun
  | append_singleton rest o ih =>
      rw [edited_concat]
      exact o.isControl_edit ih

/-- The occurrences at the end of a history that met a waiting scene. -/
def sinceAsked (met : List (Scene × Occurrence)) : List (Scene × Occurrence) :=
  met.rtakeWhile fun x => x.1.awaiting

section SinceAsked

variable {met : List (Scene × Occurrence)} {s : Scene} {o : Occurrence}

theorem sinceAsked_of_awaiting (h : s.awaiting = true) :
    sinceAsked (met ++ [(s, o)]) = sinceAsked met ++ [(s, o)] :=
  List.rtakeWhile_concat_pos _ _ _ h

theorem sinceAsked_of_busy (h : s.awaiting = false) : sinceAsked (met ++ [(s, o)]) = [] :=
  List.rtakeWhile_concat_neg _ _ _ (Bool.eq_false_iff.mp h)

end SinceAsked

namespace Scene

variable {met : List (Scene × Occurrence)} {s s' : Scene} {o : Occurrence}

/-- What ties the typed line of a scene to what was met. -/
structure Typed (met : List (Scene × Occurrence)) (s : Scene) : Prop where
  idle : s.awaiting = false → s.typed = []
  same : s.awaiting = true → ∀ x ∈ sinceAsked met, x.1.session = s.session
  line : s.awaiting = true → s.typed = edited ((sinceAsked met).map (·.2))

namespace Typed

theorem of_cleared (hawaiting : s.awaiting = false) (htyped : s.typed = []) : Typed met s where
  idle _ := htyped
  same h := by
    rw [hawaiting] at h
    cases h
  line h := by
    rw [hawaiting] at h
    cases h

/-- A request may begin after an occurrence that met a busy scene, and finds no line. -/
theorem of_busy (h : Typed met s) (hbusy : s.awaiting = false) (htyped : s'.typed = s.typed) :
    Typed (met ++ [(s, o)]) s' := by
  have hempty : s'.typed = [] := htyped.trans (h.idle hbusy)
  refine ⟨fun _ => hempty, fun _ => ?_, fun _ => ?_⟩ <;> rw [sinceAsked_of_busy hbusy]
  · exact fun x hx => absurd hx List.not_mem_nil
  · exact hempty

theorem of_edit (h : Typed met s) (hawaiting : s.awaiting = true)
    (hsession : s'.session = s.session) (htyped : s'.typed = o.edit s.typed) :
    Typed (met ++ [(s, o)]) s' := by
  have hwaits : s'.awaiting = true := by
    rw [awaiting, hsession]
    exact hawaiting
  refine ⟨fun hbusy => ?_, fun _ => ?_, fun _ => ?_⟩
  · rw [hwaits] at hbusy
    cases hbusy
  · rw [sinceAsked_of_awaiting hawaiting, hsession, List.forall_mem_append,
      List.forall_mem_singleton]
    exact ⟨h.same hawaiting, rfl⟩
  · rw [sinceAsked_of_awaiting hawaiting, htyped, h.line hawaiting, List.map_append,
      ← edited_concat]
    rfl

theorem handled (h : Typed met s) (hhandled : s.Handled o s') : Typed (met ++ [(s, o)]) s' := by
  cases hhandled with
  | stopped hstops => exact of_cleared awaiting_interrupt typed_interrupt
  | submitted asked hline hsupply hanswered =>
      exact of_cleared (congrArg Option.isSome hanswered) rfl
  | edited elapsed awaiting hstops hline => exact h.of_edit awaiting rfl rfl
  | advanced elapsed busy hattempts hadvances => exact h.of_busy busy rfl
  | held elapsed paused busy hstops hattempts => exact h.of_busy busy rfl

theorem isControl (h : Typed met s) : ∀ c ∈ s.typed, Text.isControl c = false := by
  cases hawaiting : s.awaiting with
  | true =>
      rw [h.line hawaiting]
      exact isControl_edited _
  | false =>
      rw [h.idle hawaiting]
      exact nofun

end Typed

end Scene

theorem Window.typed_handleAll {setup : Setup} {entropy : Random.Entropy}
    {occurrences : List Occurrence} {w : Window}
    (hall : (opened setup entropy).handleAll occurrences = .ok w) :
    w.scene.Typed ((opened setup entropy).met occurrences) := by
  refine handleAll_keeps (P := fun met w => w.scene.Typed met) ?_ [] (.of_cleared rfl rfl) hall
  intro met w o w' htyped hhandle
  rcases handled hhandle with ⟨-, rfl⟩ | ⟨-, hhandled, -⟩
  · exact .of_cleared rfl rfl
  · exact htyped.handled hhandled

/-- The return key, in a window whose scene waits. -/
theorem Window.handle_return {w : Window} {key : Key} (hkey : key = .enter ∨ key = .numpadEnter)
    (control : Bool) (hawaiting : w.scene.awaiting = true) :
    ∃ input session, w.scene.session.awaited? = some input ∧
      w.scene.session.supply (String.ofList w.scene.typed) =
        (.ok (.did (.pushed (input.read (String.ofList w.scene.typed)))), session) ∧
      session.awaited? = none ∧
      w.handle (.keyDown key control) =
        .ok { w with scene := { w.scene with session := session, typed := [] } } := by
  obtain ⟨input, outcome, session, hstatus, hsupply, rfl, hanswered, hsubmit⟩ :=
    Scene.submit_of_awaiting hawaiting
  have hinput : w.scene.session.awaited? = some input := by
    rw [Session.awaited?, hstatus]
    rfl
  refine ⟨input, session, hinput, hsupply, hanswered, ?_⟩
  obtain ⟨hanew, hline, hquits⟩ : (key == .r) = false ∧
      w.scene.keyDown key control = w.scene.submit ∧ w.scene.quits key = false := by
    rcases hkey with rfl | rfl
    · exact ⟨rfl, if_pos hawaiting, rfl⟩
    · exact ⟨rfl, if_pos hawaiting, rfl⟩
  rw [handle, keyDown, hanew, Bool.and_false, if_neg Bool.false_ne_true, hline, hsubmit, hquits,
    Bool.or_false]

/-- Every history of a window can be handled. The line is empty while nobody asks for one,
and while somebody does it is what the occurrences have made of an empty line that the
scene has met since the same request. It is handed over by the return key, to that request
and to no other, since the program does not wait after it. -/
theorem typed_line_is_what_was_edited (setup : Setup) (entropy : Random.Entropy)
    (occurrences : List Occurrence) :
    let opened := Window.opened setup entropy
    ∃ w, opened.handleAll occurrences = .ok w ∧
      let s := w.scene
      let asked := sinceAsked (opened.met occurrences)
      let line := String.ofList s.typed
      (∀ o, ∃ w', w.handle o = .ok w') ∧
      (s.awaiting = false → s.typed = []) ∧
      (s.awaiting = true →
        (∀ x ∈ asked, x.1.session = s.session) ∧
        s.typed = edited (asked.map (·.2)) ∧
        (∀ c ∈ s.typed, Text.isControl c = false) ∧
        ∀ key control, key = .enter ∨ key = .numpadEnter →
          ∃ input session, s.session.awaited? = some input ∧
            s.session.supply line = (.ok (.did (.pushed (input.read line))), session) ∧
            session.awaited? = none ∧
            w.handle (.keyDown key control) =
              .ok { w with scene := { s with session := session, typed := [] } }) := by
  intro opened
  obtain ⟨w, hall⟩ := opened.exists_handleAll occurrences
  have htyped := Window.typed_handleAll hall
  refine ⟨w, hall, w.exists_handle, htyped.idle, ?_⟩
  intro hawaiting
  refine ⟨htyped.same hawaiting, htyped.line hawaiting, htyped.isControl, ?_⟩
  intro key control hkey
  exact Window.handle_return hkey control hawaiting

/-- Two requests for a character, the second one met with another line being edited. Of
what was typed while the program was at work nothing is left. -/
theorem typed_line_is_what_was_edited_second :
    let setup : Setup := ⟨Grid.ofLines [['~', '~', '@']], none, 5⟩
    let entropy : Random.Entropy := fun n => Random.ChaCha.key (UInt64.ofNat n)
    let opened := Window.opened setup entropy
    let occurrences := [.typed 'x', .update 5, .typed 'a', .keyDown .enter false, .typed 'y',
      .update 5, .keyDown .backspace false, .typed 'b', .typed '\n', .typed 'c', .draw,
      .keyDown .backspace true]
    ∃ w session, opened.handleAll occurrences = .ok w ∧
      w.scene.awaiting = true ∧ w.scene.typed = ['b'] ∧
      w.handle (.keyDown .numpadEnter false) =
        .ok { w with scene := { w.scene with session := session, typed := [] } } := by
  intro setup entropy opened occurrences
  have hawaiting : (opened.handleAll occurrences).toOption.map (·.scene.awaiting) =
      some true := by decide +kernel
  have hedited : edited ((sinceAsked (opened.met occurrences)).map (·.2)) = ['b'] := by
    decide +kernel
  clear_value occurrences
  obtain ⟨w, hall, -, -, hline⟩ := typed_line_is_what_was_edited setup entropy occurrences
  rw [hall] at hawaiting
  have hwaits : w.scene.awaiting = true := Option.some.inj hawaiting
  obtain ⟨-, htyped, -, hreturn⟩ := hline hwaits
  obtain ⟨input, session, -, -, -, hhandle⟩ := hreturn .numpadEnter false (.inr rfl)
  exact ⟨w, session, hall, hwaits, htyped.trans hedited, hhandle⟩

end Funge93.Viewer
