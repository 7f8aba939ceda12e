import Funge93.Proofs.Exchanges
import Funge93.Proofs.Flags

/-!
# The log against the history

The history of a run is a list of lines that anybody can write who hears the calls on
its session and the answers: a line for each number that was printed, a line for each
value that a line was read as, with what was asked for, and one line for the end of the
run, when it is told for the first time. What was asked for is heard too, but earlier:
it is what the latest attempt ended in (`requestOf`).

The session writes its log from what it sees of the machine, in two places, and loses
the oldest lines. `log_called` says that each call adds to the log just the line that
it adds to the history, so the log is always the end of the history. The line about the
end needs most care. It must not be written twice, however often an attempt is made on
a run that is over. The listener looks for an earlier answer that told the same, the
session at a flag, and both know it from the status.
-/

namespace Funge93

/-! ## The history -/

/-- The outcome of a call that was an attempt. -/
def attempt? : Call × Answer → Option Outcome
  | (.step, .came outcome) => some outcome
  | _ => none

def Outcome.request? : Outcome → Option Input
  | .awaits input => some input
  | _ => none

/-- What the latest attempt has asked for, if it has ended in a request. -/
def requestOf (told : List (Call × Answer)) : Option Input :=
  (told.filterMap attempt?).getLast?.bind Outcome.request?

/-- The line that tells that an attempt has found the run over. -/
def Outcome.ending? : Outcome → Option String
  | .halted => some "Halted."
  | .interrupted => some "Interrupted (Ctrl+C)."
  | _ => none

/-- The line that a call and its answer add to the history, after what has been told
before. -/
def lineOf (told : List (Call × Answer)) : Call × Answer → Option String
  | (.step, .came (.did (.printedInteger n))) =>
    some ("Output(int): " ++ Text.decimal n.toInt)
  | (.step, .came (.did _)) => none
  | (.resume _, .came (.did (.pushed value))) =>
    (requestOf told).map fun input =>
      "Input(" ++ input.label ++ ") = " ++ Text.decimal value.toInt
  | (.step, .came outcome) =>
    if (.step, .came outcome) ∈ told then none else outcome.ending?
  | _ => none

/-- The lines that the rest of a transcript adds to the history. -/
def linesFrom (told : List (Call × Answer)) : List (Call × Answer) → List String
  | [] => []
  | t :: rest => (lineOf told t).toList ++ linesFrom (told ++ [t]) rest

def historyOf (told : List (Call × Answer)) : List String :=
  linesFrom [] told

/-- Whether a line tells the end of a run. -/
def isEnding (line : String) : Bool :=
  line == "Halted." || line == "Interrupted (Ctrl+C)."

theorem isExchange_of_isEnding {line : String} (h : isEnding line = true) :
    isExchange line = false := by
  rcases Bool.or_eq_true_iff.mp h with hhalted | hinterrupted
  · rw [eq_of_beq hhalted]
    decide +kernel
  · rw [eq_of_beq hinterrupted]
    decide +kernel

theorem isEnding_of_ending? {outcome : Outcome} {line : String}
    (h : outcome.ending? = some line) : isEnding line = true := by
  cases outcome with
  | did event => cases h
  | awaits input => cases h
  | halted =>
      cases h
      decide +kernel
  | interrupted =>
      cases h
      decide +kernel

theorem Outcome.isSome_ending? (outcome : Outcome) :
    outcome.ending?.isSome = outcome.isFinal := by
  cases outcome <;> rfl

/-- The status tells how a run has ended. -/
theorem Outcome.eq_of_status_eq {outcome outcome' : Outcome} (hfinal : outcome.isFinal = true)
    (h : outcome'.status = outcome.status) : outcome' = outcome := by
  cases outcome with
  | did event => cases hfinal
  | awaits input => cases hfinal
  | halted =>
      cases outcome' with
      | halted => rfl
      | _ => cases h
  | interrupted =>
      cases outcome' with
      | interrupted => rfl
      | _ => cases h

section Transcript

variable (told : List (Call × Answer))

theorem linesFrom_concat (rest : List (Call × Answer)) (t : Call × Answer) :
    linesFrom told (rest ++ [t]) =
      linesFrom told rest ++ (lineOf (told ++ rest) t).toList := by
  induction rest generalizing told with
  | nil =>
      rw [List.nil_append, linesFrom, linesFrom, linesFrom, List.append_nil, List.append_nil,
        List.nil_append]
  | cons first rest ih =>
      rw [List.cons_append, linesFrom, linesFrom, ih, List.append_assoc, List.append_assoc]
      rfl

theorem historyOf_concat (t : Call × Answer) :
    historyOf (told ++ [t]) = historyOf told ++ (lineOf told t).toList := by
  rw [historyOf, linesFrom_concat]
  rfl

theorem requestOf_step (outcome : Outcome) :
    requestOf (told ++ [(.step, .came outcome)]) = outcome.request? := by
  have hattempts : (told ++ [(Call.step, Answer.came outcome)]).filterMap attempt? =
      told.filterMap attempt? ++ [outcome] := List.filterMap_append
  rw [requestOf, hattempts, List.getLast?_concat]
  rfl

theorem requestOf_of_attempt? {t : Call × Answer} (h : attempt? t = none) :
    requestOf (told ++ [t]) = requestOf told := by
  rw [requestOf, List.filterMap_append, List.filterMap_cons_none h, List.filterMap_nil,
    List.append_nil]
  rfl

end Transcript

namespace Session

/-- An attempt that completes nothing is logged if it ends the run, but only once. -/
theorem log_note_of_suspended (s : Session) {outcome : Outcome}
    (h : outcome.isCompletion = false) :
    (s.note outcome).log =
      (if s.finished then none else outcome.ending?).elim s.log s.log.push := by
  cases outcome with
  | did event => cases h
  | awaits input =>
      simp only [note, Outcome.ending?, ite_self]
      rfl
  | halted =>
      simp only [note, noteEnd, Outcome.ending?]
      split <;> rfl
  | interrupted =>
      simp only [note, noteEnd, Outcome.ending?]
      split <;> rfl

/-- What a session and what somebody who has heard all calls and answers know alike. -/
structure Chronicled (told : List (Call × Answer)) (s : Session) : Prop where
  remembers : Remembers told s
  capacity : s.log.capacity = logCapacity
  shown : s.log.toList = lastOf logCapacity (historyOf told)
  request : ∀ input, s.machine.status = .awaiting input → requestOf told = some input
  told_iff : ∀ outcome : Outcome, outcome.isFinal = true →
    ((.step, .came outcome) ∈ told ↔ s.machine.status = outcome.status)
  going : s.finished = false → ∀ line ∈ historyOf told, isExchange line = true
  ended : s.finished = true → ∃ earlier line, historyOf told = earlier ++ [line] ∧
    isEnding line = true ∧ ∀ line ∈ earlier, isExchange line = true

namespace Chronicled

variable {told : List (Call × Answer)} {s s' : Session} {c : Call} {answer : Answer}

theorem start (grid : Grid) (source : Random.Source) :
    Chronicled [] (Session.start grid source) where
  remembers := .start grid source
  capacity := rfl
  shown := rfl
  request input h := by cases h
  told_iff outcome hfinal := by
    constructor
    · intro h
      cases h
    · intro h
      cases outcome with
      | did event => cases hfinal
      | _ => cases h
  going _ line h := by cases h
  ended h := by cases h

/-- The end that an attempt has come to was told before exactly if the session has
noted it. -/
theorem mem_iff_finished (h : Chronicled told s) {outcome : Outcome}
    (hfinal : outcome.isFinal = true)
    (lasting : s.machine.status.isOver = true → outcome.status = s.machine.status) :
    (.step, .came outcome) ∈ told ↔ s.finished = true := by
  rw [h.told_iff outcome hfinal, h.remembers.finished]
  constructor
  · intro hstatus
    rw [hstatus, Outcome.isOver_status, hfinal]
  · intro hover
    exact (lasting hover).symm

theorem lineOf_suspended (h : Chronicled told s) {outcome : Outcome}
    (hsuspended : outcome.isCompletion = false)
    (lasting : s.machine.status.isOver = true → outcome.status = s.machine.status) :
    lineOf told (.step, .came outcome) = if s.finished then none else outcome.ending? := by
  have hline : lineOf told (.step, .came outcome) =
      if (.step, .came outcome) ∈ told then none else outcome.ending? := by
    cases outcome with
    | did event => cases hsuspended
    | _ => rfl
  rw [hline]
  cases hfinal : outcome.isFinal with
  | true => simp only [h.mem_iff_finished hfinal lasting]
  | false =>
      have hnone : outcome.ending? = none := by
        rw [← Option.not_isSome_iff_eq_none, outcome.isSome_ending?, hfinal]
        exact Bool.false_ne_true
      rw [hnone, ite_self, ite_self]

theorem request_called (h : Chronicled told s) (hcalled : s.Called c answer s')
    {input : Input} (hstatus : s'.machine.status = .awaiting input) :
    requestOf (told ++ [(c, answer)]) = some input := by
  cases hcalled with
  | @completed event m source running runs written =>
      rw [machine_note] at hstatus
      cases runs.symm.trans hstatus
  | @suspended outcome hsuspended lasting =>
      -- This attempt has set the status, so it is the one that asked.
      rw [machine_note] at hstatus
      rw [requestOf_step]
      cases outcome with
      | did event => cases hsuspended
      | awaits input' =>
          cases hstatus
          rfl
      | halted => cases hstatus
      | interrupted => cases hstatus
  | taken awaiting => cases hstatus
  | refused busy =>
      rw [requestOf_of_attempt? told rfl]
      exact h.request input hstatus
  | interrupted =>
      rw [requestOf_of_attempt? told rfl]
      exact h.request input hstatus

theorem told_iff_called (h : Chronicled told s) (hcalled : s.Called c answer s')
    {outcome : Outcome} (hfinal : outcome.isFinal = true) :
    (.step, .came outcome) ∈ told ++ [(c, answer)] ↔
      s'.machine.status = outcome.status := by
  rw [List.mem_append, List.mem_singleton, h.told_iff outcome hfinal]
  have hnot : ∀ {status : Status}, status.isOver = false → status ≠ outcome.status := by
    rintro _ hgoing rfl
    rw [Outcome.isOver_status, hfinal] at hgoing
    cases hgoing
  cases hcalled with
  | @completed event m source running runs written =>
      rw [machine_note, running, runs]
      constructor
      · rintro (hstatus | hsame)
        · exact absurd hstatus (hnot rfl)
        · cases hsame
          cases hfinal
      · intro hstatus
        exact absurd hstatus (hnot rfl)
  | @suspended outcome' hsuspended lasting =>
      rw [machine_note]
      constructor
      · rintro (hstatus | hsame)
        · -- A run that was over when it was attempted has the status that it had.
          have hover : s.machine.status.isOver = true := by
            rw [hstatus, Outcome.isOver_status, hfinal]
          exact (lasting hover).trans hstatus
        · cases hsame
          rfl
      · intro hstatus
        rw [Outcome.eq_of_status_eq hfinal hstatus]
        exact .inr rfl
  | @taken input line awaiting =>
      constructor
      · rintro (hstatus | hsame)
        · exact absurd hstatus (hnot (by rw [awaiting]; rfl))
        · cases hsame
      · intro hstatus
        exact absurd hstatus (hnot rfl)
  | refused busy => exact or_iff_left (by rintro ⟨⟩)
  | interrupted => exact or_iff_left (by rintro ⟨⟩)

/-- Each call adds to the log what it adds to the history. -/
theorem log_called (h : Chronicled told s) (hcalled : s.Called c answer s') :
    s'.log = (lineOf told (c, answer)).elim s.log s.log.push := by
  cases hcalled with
  | @completed event m source running runs written => cases event <;> rfl
  | @suspended outcome hsuspended lasting =>
      rw [h.lineOf_suspended hsuspended lasting, log_note_of_suspended _ hsuspended]
  | @taken input line awaiting =>
      simp only [lineOf, h.request input awaiting]
      rfl
  | refused busy => rfl
  | interrupted => rfl

/-- A call adds no line and ends nothing, or it adds a line where the end has not been
noted yet: one that notes it, or an exchange. -/
theorem line_called (h : Chronicled told s) (hcalled : s.Called c answer s') :
    (lineOf told (c, answer) = none ∧ s'.finished = s.finished) ∨
      ∃ line, lineOf told (c, answer) = some line ∧ s.finished = false ∧
        if s'.finished then isEnding line = true else isExchange line = true := by
  have hfinished := h.remembers.finished
  cases hcalled with
  | @completed event m source running runs written =>
      rw [running] at hfinished
      have hstill : (Session.note { s with machine := m, source := source }
          (.did event)).finished = s.finished := by
        rw [finished_note]
        exact Bool.or_false _
      rw [hstill]
      cases event with
      | printedInteger n =>
          refine .inr ⟨_, rfl, hfinished, ?_⟩
          rw [hfinished, if_neg (by exact Bool.false_ne_true)]
          exact isExchange_printedInteger n
      | _ => exact .inl ⟨rfl, rfl⟩
  | @suspended outcome hsuspended lasting =>
      rw [h.lineOf_suspended hsuspended lasting, finished_note]
      show _ ∧ (s.finished || outcome.isFinal) = _ ∨ _
      cases hended : s.finished with
      | true => exact .inl ⟨rfl, rfl⟩
      | false =>
          rw [← outcome.isSome_ending?]
          cases hline : outcome.ending? with
          | none => exact .inl ⟨rfl, rfl⟩
          | some line => exact .inr ⟨line, rfl, rfl, isEnding_of_ending? hline⟩
  | @taken input text awaiting =>
      -- A run that waits is not over, so no end has been noted.
      rw [awaiting] at hfinished
      refine .inr ⟨inputLine input text, ?_, hfinished, ?_⟩
      · simp only [lineOf, h.request input awaiting]
        rfl
      · show if s.finished then _ else _
        rw [hfinished]
        exact isExchange_inputLine input text
  | refused busy => exact .inl ⟨rfl, rfl⟩
  | interrupted => exact .inl ⟨rfl, rfl⟩

theorem called (h : Chronicled told s) (hcalled : s.Called c answer s') :
    Chronicled (told ++ [(c, answer)]) s' := by
  have hlog := h.log_called hcalled
  have hline := h.line_called hcalled
  refine ⟨h.remembers.called hcalled, ?_, ?_, ?_, ?_, ?_, ?_⟩
  · rw [hlog]
    cases lineOf told (c, answer) <;> exact h.capacity
  · rw [hlog, historyOf_concat]
    cases lineOf told (c, answer) with
    | none =>
        rw [Option.toList_none, List.append_nil]
        exact h.shown
    | some line =>
        rw [Option.elim_some, Log.toList_push, h.capacity, h.shown, lastOf_append]
        rfl
  · intro input hstatus
    exact h.request_called hcalled hstatus
  · intro outcome hfinal
    exact h.told_iff_called hcalled hfinal
  · intro hgoing line hmem
    rw [historyOf_concat] at hmem
    rcases hline with ⟨hnone, hfinished⟩ | ⟨added, hadded, hfinished, hkind⟩
    · rw [hnone, Option.toList_none, List.append_nil] at hmem
      exact h.going (hfinished.symm.trans hgoing) line hmem
    · rw [hadded, Option.toList_some] at hmem
      rw [hgoing, if_neg Bool.false_ne_true] at hkind
      rcases List.mem_append.mp hmem with hearlier | hlast
      · exact h.going hfinished line hearlier
      · rw [List.mem_singleton.mp hlast]
        exact hkind
  · intro hended
    rw [historyOf_concat]
    rcases hline with ⟨hnone, hfinished⟩ | ⟨added, hadded, hfinished, hkind⟩
    · rw [hnone, Option.toList_none, List.append_nil]
      exact h.ended (hfinished.symm.trans hended)
    · rw [hadded, Option.toList_some]
      rw [hended, if_pos rfl] at hkind
      exact ⟨historyOf told, added, rfl, hkind, h.going hfinished⟩

theorem perform (grid : Grid) (source : Random.Source) (calls : List Call) :
    Chronicled ((Session.start grid source).transcript calls)
      ((Session.start grid source).perform calls).2 :=
  perform_keeps (fun _ s c h => h.called (s.called c)) calls (start grid source)

/-- Nothing is added once the end has been noted. -/
theorem log_perform_of_finished (h : Chronicled told s) (hfinished : s.finished = true)
    (more : List Call) : (s.perform more).2.log = s.log := by
  have hcall : ∀ told s' c, Chronicled told s' ∧ s'.finished = true ∧ s'.log = s.log →
      Chronicled (told ++ [(c, (s'.call c).1)]) (s'.call c).2 ∧
        (s'.call c).2.finished = true ∧ (s'.call c).2.log = s.log := by
    rintro told s' c ⟨h, hfinished, hlog⟩
    have hcalled := s'.called c
    refine ⟨h.called hcalled, ?_⟩
    rcases h.line_called hcalled with ⟨hnone, hsame⟩ | ⟨line, -, hopen, -⟩
    · refine ⟨hsame.trans hfinished, ?_⟩
      rw [h.log_called hcalled, hnone]
      exact hlog
    · cases hopen.symm.trans hfinished
  have hkept := perform_keeps hcall more ⟨h, hfinished, rfl⟩
  exact hkept.2.2

theorem countP_isEnding_le (h : Chronicled told s) :
    (historyOf told).countP isEnding ≤ 1 := by
  have hnone : ∀ {lines : List String}, (∀ line ∈ lines, isExchange line = true) →
      lines.countP isEnding = 0 := by
    intro lines hlines
    rw [List.countP_eq_zero]
    intro line hmem hending
    cases (hlines line hmem).symm.trans (isExchange_of_isEnding hending)
  cases hfinished : s.finished with
  | false => exact (hnone (h.going hfinished)).le.trans (Nat.zero_le 1)
  | true =>
      obtain ⟨earlier, last, hhistory, -, hearlier⟩ := h.ended hfinished
      rw [hhistory, List.countP_append, hnone hearlier, Nat.zero_add]
      exact List.countP_le_length

/-- A line about the end is only found at the end, and only if the end was noted. -/
theorem getLast?_of_isEnding (h : Chronicled told s) {line : String}
    (hmem : line ∈ s.log.toList) (hending : isEnding line = true) :
    s.finished = true ∧ s.log.toList.getLast? = some line := by
  have hnot : ∀ {lines : List String}, (∀ line ∈ lines, isExchange line = true) →
      line ∉ lines := by
    intro lines hlines hline
    cases (hlines line hline).symm.trans (isExchange_of_isEnding hending)
  rw [h.shown] at hmem ⊢
  cases hfinished : s.finished with
  | false => exact absurd (mem_of_mem_lastOf hmem) (hnot (h.going hfinished))
  | true =>
      obtain ⟨earlier, last, hhistory, -, hearlier⟩ := h.ended hfinished
      have hroom : lastOf logCapacity (historyOf told) =
          lastOf (logCapacity - 1) earlier ++ [last] := by
        rw [hhistory]
        exact lastOf_concat (logCapacity - 1) earlier last
      rw [hroom] at hmem ⊢
      refine ⟨rfl, ?_⟩
      rw [List.getLast?_concat]
      rcases List.mem_append.mp hmem with hbefore | hlast
      · exact absurd (mem_of_mem_lastOf hbefore) (hnot hearlier)
      · rw [List.mem_singleton.mp hlast]

end Chronicled

/-- After any history of calls the log shows the last 2000 lines of the history that the
calls and their answers tell, and its own last lines are the last ones of these. The
end is told once at most. Once it is in the log it is the last line there, and the log
stays as it is whatever is called. -/
theorem log_is_end_of_history (grid : Grid) (source : Random.Source) (calls : List Call) :
    let told := (Session.start grid source).transcript calls
    let log := ((Session.start grid source).perform calls).2.log
    log.toList = lastOf 2000 (historyOf told) ∧
      log.size = min 2000 (historyOf told).length ∧
      (∀ n, log.tail n = lastOf n (lastOf 2000 (historyOf told))) ∧
      (historyOf told).countP isEnding ≤ 1 ∧ log.toList.countP isEnding ≤ 1 ∧
      ∀ line ∈ log.toList, isEnding line = true →
        log.toList.getLast? = some line ∧
          ∀ more, ((Session.start grid source).perform (calls ++ more)).2.log = log := by
  intro told log
  have h : Chronicled told ((Session.start grid source).perform calls).2 :=
    .perform grid source calls
  refine ⟨h.shown, ?_, ?_, h.countP_isEnding_le, ?_, ?_⟩
  · rw [← log.length_toList, h.shown, lastOf, List.length_drop, logCapacity]
    omega
  · intro n
    rw [log.tail_eq, h.shown]
    rfl
  · rw [h.shown]
    exact ((List.drop_sublist _ _).countP_le).trans h.countP_isEnding_le
  · intro line hmem hending
    obtain ⟨hfinished, hlast⟩ := h.getLast?_of_isEnding hmem hending
    refine ⟨hlast, ?_⟩
    intro more
    rw [perform, perform_append]
    exact h.log_perform_of_finished hfinished more

/-- A program that prints a number and asks for one, and is stopped before it is given
the line. -/
theorem log_is_end_of_history_stopped :
    let grid := Grid.ofLines [['3', '.', '&', '@']]
    let calls : List Call := [.step, .step, .step, .interrupt, .resume "7", .step]
    let more : List Call := [.step, .resume "8", .step]
    ((Session.start grid (.seeded 0)).perform calls).2.log.toList =
        ["Output(int): 3", "Input(int) = 7", "Interrupted (Ctrl+C)."] ∧
      ((Session.start grid (.seeded 0)).perform (calls ++ more)).2.log =
        ((Session.start grid (.seeded 0)).perform calls).2.log := by
  intro grid calls more
  have hhistory : historyOf ((Session.start grid (.seeded 0)).transcript calls) =
      ["Output(int): 3", "Input(int) = 7", "Interrupted (Ctrl+C)."] := by decide +kernel
  obtain ⟨hshown, -, -, -, -, hstays⟩ := log_is_end_of_history grid (.seeded 0) calls
  rw [hhistory, lastOf_of_length_le (by decide)] at hshown
  refine ⟨hshown, (hstays "Interrupted (Ctrl+C)." ?_ (by decide +kernel)).2 more⟩
  rw [hshown]
  exact List.mem_of_getLast? rfl

end Session

end Funge93
