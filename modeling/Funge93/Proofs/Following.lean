import Funge93.Proofs.Exchanges
import Funge93.Proofs.Feeding

/-!
# Following a run

A session in somebody's hands goes through the sessions of the run that is given the
same lines, in the same order. It may be ahead of them by one attempt, but only by one
that has completed nothing: the one that found the program waiting, or at its end. A
further attempt does nothing at the end, and the line that answers a waiting program
is the line that is due in the run that is given one more. So the session is where the
run is after as many rounds as it has completed instructions.
-/

namespace Funge93

/-! ## How far a run has come -/

/-- What a run has done so far, without the log and the state of waiting. -/
structure Progress where
  grid : Grid
  place : Place
  heading : Heading
  stack : Stack
  stringMode : Bool
  output : String
  steps : Nat
  /-- The number of random turns that the source was asked for. -/
  draws : Nat
deriving DecidableEq

namespace Session

def progress (s : Session) : Progress where
  grid := s.machine.grid
  place := s.machine.place
  heading := s.machine.heading
  stack := s.machine.stack
  stringMode := s.machine.stringMode
  output := s.machine.output
  steps := s.machine.steps
  draws := s.source.taken

variable {s : Session}

theorem progress_advance_of_suspended (h : s.advance.1.isCompletion = false) :
    s.advance.2.progress = s.progress := by
  have hstep : s.machine.step s.source =
      ⟨s.advance.1, { s.machine with status := s.advance.1.status }, s.source⟩ :=
    s.machine.step_of_suspended s.source rfl h
  simp only [progress, machine_advance, source_advance, hstep]

theorem running_of_completion (h : s.advance.1.isCompletion = true) :
    s.machine.status = .running := by
  cases houtcome : s.advance.1 with
  | did event => exact (s.machine.running_of_did s.source houtcome).1
  | _ => rw [houtcome] at h; cases h

theorem lastWrite_note_of_final (s : Session) {outcome : Outcome}
    (h : outcome.isFinal = true) : (s.note outcome).lastWrite = none := by
  rw [lastWrite_note]
  cases outcome with
  | did event => cases h
  | _ => rfl

/-- Attempts on a run that is over do nothing. -/
theorem advance_of_over (hfinished : s.finished = true) (hwrite : s.lastWrite = none)
    {outcome : Outcome} (hfinal : outcome.isFinal = true)
    (hstatus : s.machine.status = outcome.status) : s.advance = (outcome, s) := by
  have hstep : s.machine.step s.source = ⟨outcome, s.machine, s.source⟩ := by
    cases outcome with
    | did event => cases hfinal
    | awaits input => cases hfinal
    | halted => rw [Machine.step, hstatus]; rfl
    | interrupted => rw [Machine.step, hstatus]; rfl
  have hnote : s.note outcome = s := by
    obtain ⟨machine, source, log, lastWrite, finished⟩ := s
    simp only [] at hfinished hwrite
    subst hfinished hwrite
    cases outcome with
    | did event => cases hfinal
    | awaits input => cases hfinal
    | halted => rfl
    | interrupted => rfl
  rw [advance, hstep]
  exact Prod.ext rfl hnote

theorem advance_advance_of_final (h : s.advance.1.isFinal = true) :
    s.advance.2.advance = s.advance := by
  have hfinished := s.finished_advance
  rw [h, Bool.or_true] at hfinished
  exact advance_of_over hfinished (lastWrite_note_of_final _ h) h s.status_advance

end Session

/-! ## Sessions that follow a run -/

namespace Headless

/-- Where a session is that has taken some lines: as far as the run on the start that
is given these lines is after a number of rounds, or one attempt further that has
completed nothing. -/
structure Follows (start : Session) (lines : List String) (n : Nat) (s : Session) :
    Prop where
  live : (Reference.given lines start n).verdict? = none
  asked : (Reference.given lines start n).requests = lines.length
  place : s = (Reference.given lines start n).session ∨
    (Reference.given lines start n).session.advance.1.isCompletion = false ∧
      s = (Reference.given lines start n).session.advance.2

namespace Follows

variable {grid : Grid} {source : Random.Source} {start s s' : Session}
  {lines : List String} {n : Nat}

theorem refl (start : Session) : Follows start [] 0 start :=
  ⟨rfl, rfl, .inl rfl⟩

theorem progress (h : Follows start lines n s) :
    s.progress = (Reference.given lines start n).session.progress := by
  rcases h.place with heq | ⟨hsuspended, heq⟩
  · rw [heq]
  · rw [heq, Session.progress_advance_of_suspended hsuspended]

/-- A session from which an instruction is completed has not stopped. -/
theorem eq_of_completion (h : Follows start lines n s)
    (hcompletion : s.advance.1.isCompletion = true) :
    s = (Reference.given lines start n).session := by
  rcases h.place with heq | ⟨hsuspended, heq⟩
  · exact heq
  · -- The attempt ahead has left a status behind that no instruction starts from.
    have hrunning := Session.running_of_completion hcompletion
    have hstatus := (Reference.given lines start n).session.status_advance
    rw [← heq, hrunning] at hstatus
    generalize (Reference.given lines start n).session.advance.1 = outcome
      at hsuspended hstatus
    cases outcome with
    | did event => cases hsuspended
    | awaits input => cases hstatus
    | halted => cases hstatus
    | interrupted => cases hstatus

theorem advance_of_did (h : Follows start lines n s) {event : Event}
    (hdid : s.advance.1 = .did event) : Follows start lines (n + 1) s.advance.2 := by
  have heq := h.eq_of_completion (by rw [hdid]; rfl)
  have hplay : play none (lines[(Reference.given lines start n).requests]?)
      (Reference.given lines start n).session = (.completed event, s.advance.2) := by
    have hadvance : s.advance = (.did event, s.advance.2) := Prod.ext hdid rfl
    rw [play_none, ← heq, hadvance]
    rfl
  have hturn : Reference.given lines start (n + 1) =
      ⟨s.advance.2, (Reference.given lines start n).rounds ++ [.completed event]⟩ := by
    rw [Reference.given, Reference.after_succ, ← Reference.given,
      Reference.turn_of_live h.live, hplay]
  constructor
  · rw [hturn, Reference.verdict?_append]
    rfl
  · rw [hturn, Reference.requests_append]
    exact h.asked
  · rw [hturn]
    exact .inl rfl

theorem advance_of_suspended (h : Follows start lines n s) (hbusy : s.awaited? = none)
    (hsuspended : s.advance.1.isCompletion = false) : Follows start lines n s.advance.2 := by
  refine ⟨h.live, h.asked, ?_⟩
  rcases h.place with heq | ⟨hstopped, heq⟩
  · rw [heq] at hsuspended ⊢
    exact .inr ⟨hsuspended, rfl⟩
  · -- The session does not wait, so the attempt before has ended the run.
    have hfinal : (Reference.given lines start n).session.advance.1.isFinal = true := by
      have hstatus := (Reference.given lines start n).session.status_advance
      rw [← heq] at hstatus
      rw [Session.awaited?, hstatus] at hbusy
      generalize (Reference.given lines start n).session.advance.1 = outcome
        at hstopped hbusy
      cases outcome with
      | did event => cases hstopped
      | awaits input => cases hbusy
      | halted => rfl
      | interrupted => rfl
    rw [heq, Session.advance_advance_of_final hfinal]
    exact .inr ⟨hstopped, rfl⟩

/-- A line that is supplied is the line that is due in the run that is given one more. -/
theorem supply (h : Follows (Session.start grid source) lines n s) {input : Input}
    (hawaiting : s.machine.status = .awaiting input) {line : String} {outcome : Outcome}
    (hsupply : s.supply line = (.ok outcome, s')) :
    Follows (Session.start grid source) (lines ++ [line]) (n + 1) s' := by
  have hsame : Reference.given (lines ++ [line]) (Session.start grid source) n =
      Reference.given lines (Session.start grid source) n := by
    refine Reference.after_congr fun i hi => ?_
    have hlt : i < lines.length := by
      rw [← h.asked]
      exact hi
    exact (List.getElem?_append_left hlt).symm
  have hpaced := Reference.paced_given lines grid source n
  obtain ⟨hlive, hasked, hplace⟩ := h
  rw [← hsame] at hlive hasked hplace hpaced
  generalize hr : Reference.given (lines ++ [line]) (Session.start grid source) n = r
    at hlive hasked hplace hpaced
  obtain ⟨-, heq⟩ : r.session.advance.1.isCompletion = false ∧ s = r.session.advance.2 := by
    refine hplace.resolve_left fun heq => ?_
    rw [heq, hpaced.running hlive] at hawaiting
    cases hawaiting
  have houtcome : r.session.advance.1 = .awaits input := by
    have hstatus := r.session.status_advance
    rw [← heq, hawaiting] at hstatus
    generalize r.session.advance.1 = outcome at hstatus ⊢
    cases outcome <;> cases hstatus
    rfl
  have hdue : (lines ++ [line])[r.requests]? = some line := by
    rw [hasked, List.getElem?_append_right (Nat.le_refl _), Nat.sub_self]
    rfl
  have hplay : play none ((lines ++ [line])[r.requests]?) r.session =
      (.answered input line, s') := by
    have hadvance : r.session.advance = (.awaits input, s) := Prod.ext houtcome heq.symm
    rw [play_none, hdue, hadvance, settle]
    simp only [hsupply]
  have hturn : Reference.given (lines ++ [line]) (Session.start grid source) (n + 1) =
      ⟨s', r.rounds ++ [.answered input line]⟩ := by
    rw [Reference.given, Reference.after_succ, ← Reference.given, hr,
      Reference.turn_of_live hlive, hplay]
  constructor
  · rw [hturn, Reference.verdict?_append]
    rfl
  · rw [hturn, Reference.requests_append, List.length_append, ← hasked]
    rfl
  · rw [hturn]
    exact .inl rfl

theorem steps (h : Follows (Session.start grid source) lines n s) :
    s.machine.steps = n :=
  (congrArg Progress.steps h.progress).trans
    ((Reference.paced_given lines grid source n).steps h.live)

theorem exchanges (h : Follows (Session.start grid source) lines n s) :
    s.exchanges =
      lastOf (Session.logCapacity - if s.finished then 1 else 0)
        (Reference.given lines (Session.start grid source) n).exchanges := by
  have hlogged : Reference.Logged (Reference.given lines (Session.start grid source) n) :=
    Reference.Logged.after grid source n
  have hopen := (Reference.paced_given lines grid source n).unfinished h.live
  rcases h.place with heq | ⟨hsuspended, heq⟩
  · rw [heq, hopen]
    exact hlogged.exchanges h.live
  · rw [heq]
    exact hlogged.exchanges_advance h.live hopen hsuspended

theorem lines_eq (h : Follows (Session.start grid source) lines n s) :
    (Reference.given lines (Session.start grid source) n).rounds.filterMap Round.line? =
      lines := by
  have hordered : Reference.Ordered (fun i => lines[i]?)
      (Reference.given lines (Session.start grid source) n) :=
    Reference.Ordered.after none _ n
  have hlength := (hordered.counted h.live).trans h.asked
  refine List.ext_getElem? fun i => ?_
  rcases Nat.lt_or_ge i lines.length with hlt | hge
  · rw [← hlength] at hlt
    have hsome := List.getElem?_eq_getElem hlt
    rw [hordered.answered i _ hsome, hsome]
  · rw [List.getElem?_eq_none hge, List.getElem?_eq_none (hlength.trans_le hge)]

/-- A session whose run is over is where the run with the same lines ends. -/
theorem ended (h : Follows (Session.start grid source) lines n s)
    (hfinished : s.finished = true) :
    ∃ outcome, outcome.isFinal = true ∧
      Reference.given lines (Session.start grid source) (n + 1) =
        ⟨s, (Reference.given lines (Session.start grid source) n).rounds ++
          [.ended outcome]⟩ := by
  have hopen := (Reference.paced_given lines grid source n).unfinished h.live
  rcases h.place with heq | ⟨-, heq⟩
  · rw [heq, hopen] at hfinished
    cases hfinished
  · rw [heq, Session.finished_advance, hopen, Bool.false_or] at hfinished
    refine ⟨_, hfinished, ?_⟩
    rw [Reference.given, Reference.after_succ, ← Reference.given,
      Reference.turn_of_live h.live, play_none, heq]
    generalize (Reference.given lines (Session.start grid source) n).session.advance = a
      at hfinished ⊢
    obtain ⟨outcome, s'⟩ := a
    cases outcome with
    | did event => cases hfinished
    | awaits input => cases hfinished
    | halted => rfl
    | interrupted => rfl

/-- Two sessions that follow the same run as far show the same exchanges if the end has
been noted in both, or in neither, or if the log has lost none. -/
theorem exchanges_eq (h : Follows (Session.start grid source) lines n s)
    (h' : Follows (Session.start grid source) lines n s')
    (hlog : s'.finished = s.finished ∨
      (Reference.given lines (Session.start grid source) n).exchanges.length <
        Session.logCapacity) : s'.exchanges = s.exchanges := by
  rw [h.exchanges, h'.exchanges]
  rcases hlog with hsame | hroom
  · rw [hsame]
  · generalize (Reference.given lines (Session.start grid source) n).exchanges = shown
      at hroom ⊢
    have hwhole : ∀ noted : Bool,
        lastOf (Session.logCapacity - if noted then 1 else 0) shown = shown := by
      intro noted
      refine lastOf_of_length_le ?_
      split <;> omega
    rw [hwhole, hwhole]

/-- The run without a window that is fed the lines. -/
theorem mirrors (h : Follows (Session.start grid source) lines n s)
    (hplain : ∀ line ∈ lines, Plain line) :
    Mirrors (feed lines) none (Drive.fresh grid source (feed lines) none n)
      (Reference.given lines (Session.start grid source) n) :=
  .feed hplain grid source h.asked.le

theorem drive_ended (h : Follows (Session.start grid source) lines n s)
    (hplain : ∀ line ∈ lines, Plain line) (hfinished : s.finished = true) :
    ∃ outcome, outcome.isFinal = true ∧
      (Drive.fresh grid source (feed lines) none (n + 1)).result = some (.ok outcome) ∧
      (Drive.fresh grid source (feed lines) none (n + 1)).session = s := by
  obtain ⟨outcome, hfinal, hended⟩ := h.ended hfinished
  have hrequests : (Reference.given lines (Session.start grid source) (n + 1)).requests =
      lines.length := by
    rw [hended, Reference.requests_append]
    exact h.asked
  have hmirrors := Mirrors.feed hplain grid source hrequests.le
  rw [hended] at hmirrors
  refine ⟨outcome, hfinal, ?_, hmirrors.session⟩
  rw [hmirrors.result, Reference.verdict?_append]
  rfl

end Follows

end Headless

end Funge93
