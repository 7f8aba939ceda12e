import Funge93.Proofs.Onlooker
import Funge93.Session.Basic

/-!
# What an attempt can come to

An attempt either completes an instruction or does nothing but set the status. The
status that it leaves behind is the one that its outcome names, and an instruction
can only be completed by a run that is running and not asked to stop.

A line that is offered completes the instruction that asked, or nothing is done. The run
comes back from `resume` in either case, so that the second is something to prove
(`offered`) and not a matter of what is kept.

A session adds its notes to that: they touch neither the machine nor the source,
and they take the end of the run to be noted exactly when it has come.
-/

namespace Funge93

theorem Status.awaiting_or_busy (status : Status) :
    (∃ input, status = .awaiting input) ∨ status.awaited? = none := by
  cases status with
  | awaiting input => exact .inl ⟨input, rfl⟩
  | _ => exact .inr rfl

/-- The status that an outcome leaves behind. -/
def Outcome.status : Outcome → Status
  | .did _ => .running
  | .awaits input => .awaiting input
  | .halted => .halted
  | .interrupted => .interrupted

/-- The place that an attempt has written to, if it has written. -/
def Outcome.written? : Outcome → Option Place
  | .did (.stored place _) => some place
  | _ => none

namespace Instruction

/-- The character that means an instruction. Doing nothing is what many characters mean. -/
def glyph? : Instruction → Option Char
  | go .east => some '>'
  | go .west => some '<'
  | go .north => some '^'
  | go .south => some 'v'
  | goRandom => some '?'
  | branchHorizontal => some '_'
  | branchVertical => some '|'
  | quote => some '\x22'
  | digit value => some (Char.ofNat (48 + value.val))
  | binary .add => some '+'
  | binary .sub => some '-'
  | binary .mul => some '*'
  | binary .div => some '/'
  | binary .mod => some '%'
  | binary .greater => some '\x60'
  | not => some '!'
  | duplicate => some ':'
  | swap => some '\\'
  | drop => some '$'
  | printInteger => some '.'
  | printCharacter => some ','
  | ask .integer => some '&'
  | ask .character => some '~'
  | get => some 'g'
  | put => some 'p'
  | bridge => some '#'
  | halt => some '@'
  | nop => none

theorem glyph?_ofDigit (c : Char) :
    ((ofDigit? c).getD nop).glyph? = some c ∨ (ofDigit? c).getD nop = nop := by
  rw [ofDigit?]
  split
  · next hdigit =>
      have hcode : 48 + (c.toNat - 48) = c.toNat := by omega
      refine .inl ?_
      show some (Char.ofNat (48 + (c.toNat - 48))) = some c
      rw [hcode, Char.ofNat_toNat]
  · exact .inr rfl

theorem glyph?_ofChar (c : Char) : (ofChar c).glyph? = some c ∨ ofChar c = nop := by
  unfold ofChar
  split <;> try exact .inl rfl
  exact glyph?_ofDigit c

/-- An instruction that has a character of its own is met on that character only. -/
theorem eq_of_ofChar_eq {c glyph : Char} {i : Instruction} (h : ofChar c = i)
    (hglyph : i.glyph? = some glyph) : c = glyph := by
  subst h
  rcases glyph?_ofChar c with hsome | hnop
  · exact Option.some.inj (hsome.symm.trans hglyph)
  · rw [hnop] at hglyph
    cases hglyph

end Instruction

namespace Machine

/-- Whether the next attempt executes the character under the pointer. -/
def Executes (m : Machine) : Prop :=
  m.status = .running ∧ m.interruptRequested = false ∧ m.stringMode = false

instance (m : Machine) : Decidable m.Executes :=
  inferInstanceAs (Decidable (_ ∧ _ ∧ _))

/-- What the next attempt comes to if it does not look at the character under the
pointer. -/
def barred? (m : Machine) : Option Outcome :=
  match m.status with
  | .halted => some .halted
  | .interrupted => some .interrupted
  | .running => if m.interruptRequested then some .interrupted else none
  | .awaiting input =>
    if m.interruptRequested then some .interrupted else some (.awaits input)

/-- What came of an attempt on a machine: an instruction was completed, or
nothing was done but to set the status. -/
inductive Attempted (m : Machine) (source : Random.Source) : Step → Prop where
  | completed (done : Event × Machine) (source' : Random.Source)
      (running : m.status = .running) (calm : m.interruptRequested = false)
      (kept : done.2.status = m.status) :
      Attempted m source (completing source' done)
  | suspended (outcome : Outcome) (h : outcome.isCompletion = false) :
      Attempted m source
        ⟨outcome, { m with status := outcome.status }, source⟩

/-! An attempt is barred, reads a character as part of a string, or executes it. -/

section Step

variable {m : Machine}

theorem step_of_barred {outcome : Outcome} (h : m.barred? = some outcome)
    (source : Random.Source) :
    m.step source = ⟨outcome, { m with status := outcome.status }, source⟩ := by
  obtain ⟨_, _, _, _, _, _, _, status, requested⟩ := m
  cases status <;> cases requested <;> cases h <;> rfl

theorem isCompletion_of_barred {outcome : Outcome} (h : m.barred? = some outcome) :
    outcome.isCompletion = false := by
  obtain ⟨_, _, _, _, _, _, _, status, requested⟩ := m
  cases status <;> cases requested <;> cases h <;> rfl

/-- A request to stop ends whatever is not over. -/
theorem isFinal_step_of_requested (h : m.interruptRequested = true) (source : Random.Source) :
    (m.step source).outcome.isFinal = true := by
  obtain ⟨_, _, _, _, _, _, _, status, requested⟩ := m
  cases h
  cases status <;> rfl

theorem barred?_eq_none_iff :
    m.barred? = none ↔ m.status = .running ∧ m.interruptRequested = false := by
  rw [barred?]
  cases m.status <;> cases m.interruptRequested <;> simp

theorem step_of_reads (h : m.barred? = none) (hmode : m.stringMode = true)
    (source : Random.Source) :
    m.step source = completing source (m.quoting m.cell) := by
  obtain ⟨hrunning, hcalm⟩ := barred?_eq_none_iff.mp h
  rw [step, hrunning, hcalm, hmode]
  rfl

theorem executes_of_free (h : m.barred? = none) (hmode : m.stringMode = false) :
    m.Executes := by
  obtain ⟨hrunning, hcalm⟩ := barred?_eq_none_iff.mp h
  exact ⟨hrunning, hcalm, hmode⟩

theorem step_of_executes (h : m.Executes) (source : Random.Source) :
    m.step source = m.execute source (Instruction.ofChar m.cell) := by
  obtain ⟨hrunning, hcalm, hmode⟩ := h
  rw [step, hrunning, hcalm, hmode]
  rfl

end Step

variable (m : Machine) (source : Random.Source)

theorem awaits_execute {i : Instruction} {input : Input}
    (h : (m.execute source i).outcome = .awaits input) : i = .ask input := by
  cases i with
  | ask input' =>
      cases h
      rfl
  | _ => cases h

/-- A machine that is running comes to wait by an instruction that asks. -/
theorem awaits_step {input : Input} (hrunning : m.status = .running)
    (h : (m.step source).outcome = .awaits input) :
    m.Executes ∧ Instruction.ofChar m.cell = .ask input := by
  cases hbarred : m.barred? with
  | some outcome =>
      rw [step_of_barred hbarred] at h
      rw [barred?, hrunning] at hbarred
      cases h
      cases hrequest : m.interruptRequested <;> rw [hrequest] at hbarred <;> cases hbarred
  | none =>
      cases hmode : m.stringMode with
      | true =>
          rw [step_of_reads hbarred hmode] at h
          cases h
      | false =>
          have hexecutes := executes_of_free hbarred hmode
          rw [step_of_executes hexecutes] at h
          exact ⟨hexecutes, m.awaits_execute source h⟩

theorem attempted_execute (i : Instruction) (running : m.status = .running)
    (calm : m.interruptRequested = false) :
    Attempted m source (m.execute source i) := by
  cases i with
  | ask input => exact .suspended (.awaits input) rfl
  | halt => exact .suspended .halted rfl
  | _ => exact .completed _ _ running calm rfl

theorem attempted_step : Attempted m source (m.step source) := by
  cases hbarred : m.barred? with
  | some outcome =>
      rw [step_of_barred hbarred]
      exact .suspended outcome (isCompletion_of_barred hbarred)
  | none =>
      obtain ⟨running, calm⟩ := barred?_eq_none_iff.mp hbarred
      cases hmode : m.stringMode with
      | true =>
          rw [step_of_reads hbarred hmode]
          refine .completed _ _ running calm ?_
          rw [quoting]
          split <;> rfl
      | false =>
          rw [step_of_executes (executes_of_free hbarred hmode)]
          exact m.attempted_execute source _ running calm

theorem status_step :
    (m.step source).machine.status = (m.step source).outcome.status := by
  have h := m.attempted_step source
  generalize m.step source = r at h ⊢
  cases h with
  | completed done source' running calm kept =>
      show done.2.status = .running
      rw [kept, running]
  | suspended outcome h => rfl

/-- An attempt that completes nothing does nothing but set the status. -/
theorem step_of_suspended {outcome : Outcome} (houtcome : (m.step source).outcome = outcome)
    (h : outcome.isCompletion = false) :
    m.step source = ⟨outcome, { m with status := outcome.status }, source⟩ := by
  have hattempted := m.attempted_step source
  generalize m.step source = r at houtcome hattempted
  cases hattempted with
  | completed done source' running calm kept =>
      subst houtcome
      cases h
  | suspended outcome' hsuspended =>
      obtain rfl : outcome' = outcome := houtcome
      rfl

/-- An instruction is completed by a run that is running, and leaves it running. -/
theorem running_of_did {event : Event} (h : (m.step source).outcome = .did event) :
    m.status = .running ∧ (m.step source).machine.status = .running := by
  have hattempted := m.attempted_step source
  have hstatus := m.status_step source
  rw [h] at hstatus
  refine ⟨?_, hstatus⟩
  generalize m.step source = r at h hattempted
  cases hattempted with
  | completed done source' running calm kept => exact running
  | suspended outcome hsuspended =>
      obtain rfl : outcome = .did event := h
      cases hsuspended

/-! ## Offering a line -/

/-- The machine after its request was answered with a line. -/
def answered (m : Machine) (input : Input) (line : String) : Machine :=
  ({ m with status := .running }.push (input.read line)).finish

/-- What can come of a line that is offered: it completes the instruction that has asked, or
it is refused with nothing done. -/
inductive Offered (m : Machine) (line : String) :
    Except NotAwaiting Outcome × Machine → Prop where
  | taken {input : Input} (awaiting : m.status = .awaiting input) :
    Offered m line (.ok (.did (.pushed (input.read line))), m.answered input line)
  | refused (busy : m.status.awaited? = none) : Offered m line (.error ⟨m.status⟩, m)

section Offer

variable {m : Machine} {line : String}

theorem resume_of_awaiting {input : Input} (h : m.status = .awaiting input) (line : String) :
    m.resume line = (.ok (.did (.pushed (input.read line))), m.answered input line) := by
  rw [resume, h]
  rfl

theorem resume_of_busy (h : m.status.awaited? = none) (line : String) :
    m.resume line = (.error ⟨m.status⟩, m) := by
  rw [resume]
  split
  · next input hawaiting =>
      rw [hawaiting] at h
      cases h
  · rfl

theorem offered (m : Machine) (line : String) : m.Offered line (m.resume line) := by
  rcases m.status.awaiting_or_busy with ⟨input, hstatus⟩ | hbusy
  · rw [resume_of_awaiting hstatus]
    exact .taken hstatus
  · rw [resume_of_busy hbusy]
    exact .refused hbusy

theorem of_resume_ok {outcome : Outcome} {m' : Machine} (h : m.resume line = (.ok outcome, m')) :
    ∃ input, m.status = .awaiting input ∧ outcome = .did (.pushed (input.read line)) ∧
      m' = m.answered input line := by
  have hoffered := m.offered line
  rw [h] at hoffered
  cases hoffered with
  | @taken input awaiting => exact ⟨input, awaiting, rfl, rfl⟩

theorem of_resume_error {error : NotAwaiting} {m' : Machine}
    (h : m.resume line = (.error error, m')) :
    m.status.awaited? = none ∧ error = ⟨m.status⟩ ∧ m' = m := by
  have hoffered := m.offered line
  rw [h] at hoffered
  cases hoffered with
  | refused busy => exact ⟨busy, rfl, rfl⟩

/-- A machine comes back from a line that it refuses as it was. -/
theorem resume_of_refused {error : NotAwaiting} (h : (m.resume line).1 = .error error) :
    (m.resume line).2 = m :=
  (of_resume_error (Prod.ext h rfl)).2.2

/-- A line is refused by a machine that does not wait, and by no other. -/
theorem resume_refused_iff {error : NotAwaiting} :
    (m.resume line).1 = .error error ↔ m.status.awaited? = none ∧ error = ⟨m.status⟩ := by
  have h := m.offered line
  generalize m.resume line = r at h
  cases h with
  | taken awaiting => simp [awaiting, Status.awaited?]
  | refused busy => simp [busy, eq_comm]

end Offer

end Machine

namespace Session

variable (s : Session)

@[simp] theorem machine_noteEnd (line : String) :
    (s.noteEnd line).machine = s.machine := by
  rw [noteEnd]
  split <;> rfl

@[simp] theorem machine_note (outcome : Outcome) :
    (s.note outcome).machine = s.machine := by
  cases outcome with
  | did event => cases event <;> rfl
  | awaits input => rfl
  | halted => exact machine_noteEnd _ _
  | interrupted => exact machine_noteEnd _ _

@[simp] theorem source_noteEnd (line : String) : (s.noteEnd line).source = s.source := by
  rw [noteEnd]
  split <;> rfl

@[simp] theorem source_note (outcome : Outcome) : (s.note outcome).source = s.source := by
  cases outcome with
  | did event => cases event <;> rfl
  | awaits input => rfl
  | halted => exact source_noteEnd _ _
  | interrupted => exact source_noteEnd _ _

theorem finished_noteEnd (line : String) : (s.noteEnd line).finished = true := by
  rw [noteEnd]
  split
  · next h => exact h
  · rfl

theorem finished_note (outcome : Outcome) :
    (s.note outcome).finished = (s.finished || outcome.isFinal) := by
  cases outcome with
  | did event => cases event <;> exact (Bool.or_false _).symm
  | awaits input => exact (Bool.or_false _).symm
  | halted => exact (finished_noteEnd _ _).trans (Bool.or_true _).symm
  | interrupted => exact (finished_noteEnd _ _).trans (Bool.or_true _).symm

theorem lastWrite_note (outcome : Outcome) :
    (s.note outcome).lastWrite = outcome.written? := by
  cases outcome with
  | did event => cases event <;> rfl
  | awaits input => rfl
  | halted => rw [note, noteEnd]; split <;> rfl
  | interrupted => rw [note, noteEnd]; split <;> rfl

theorem machine_advance :
    s.advance.2.machine = (s.machine.step s.source).machine := by
  rw [advance, machine_note]

theorem source_advance :
    s.advance.2.source = (s.machine.step s.source).source := by
  rw [advance, source_note]

theorem finished_advance :
    s.advance.2.finished = (s.finished || s.advance.1.isFinal) :=
  finished_note _ _

theorem status_advance : s.advance.2.machine.status = s.advance.1.status := by
  rw [machine_advance]
  exact s.machine.status_step s.source

theorem onlooker_advance :
    s.advance.2.machine.onlooker =
      s.advance.1.event?.elim s.machine.onlooker s.machine.onlooker.hear := by
  rw [machine_advance]
  exact s.machine.onlooker_step s.source

/-- A line is taken from whoever waits for one. -/
theorem supply_of_awaiting {input : Input} (h : s.machine.status = .awaiting input)
    (line : String) :
    s.supply line =
      (.ok (.did (.pushed (input.read line))),
        { s with machine := s.machine.answered input line }.noteInput (some input)
          (.did (.pushed (input.read line)))) := by
  simp only [supply, Machine.resume_of_awaiting h, awaited?, h]
  rfl

/-- Whoever does not wait is left as it was. -/
theorem supply_of_busy (h : s.awaited? = none) (line : String) :
    s.supply line = (.error ⟨s.machine.status⟩, s) := by
  simp only [supply, Machine.resume_of_busy h]

end Session

end Funge93
