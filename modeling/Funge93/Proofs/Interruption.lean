import Funge93.Proofs.Reachable

/-!
# An interruption is final

Once a machine has been asked to stop, nothing that is done to it makes it go on. An
attempt looks at its own status first and at the request next, so a machine that has
halted stays halted and any other is interrupted at the first attempt. Nothing but
the status changes, no source is asked for a heading, and a run is as short as a
step.

There is one exception, and it is wanted. A line is taken by whoever waits for one,
whatever has been asked. So a machine that waits when the request comes can still be
given its line, which completes the instruction that asked just as it would have
without the request. It must be given before the first attempt. Afterwards the
machine does not wait any more, and it cannot come to wait again.
-/

namespace Funge93

/-- Whether an operation attempts to execute instructions. -/
def Operation.attempts : Operation → Bool
  | step _ => true
  | run _ => true
  | resume _ => false

/-- The reply of a machine that is over: an attempt has the outcome that it is over
with and takes nothing from its source, and a line is refused. -/
inductive OverWith (outcome : Outcome) : Operation × Reply → Prop where
  | step (source : Random.Source) : OverWith outcome (.step source, .came outcome source)
  | run (source : Random.Source) : OverWith outcome (.run source, .came outcome source)
  | resume (line : String) (error : Machine.NotAwaiting) :
    OverWith outcome (.resume line, .refused error)

/-- A run that has come to an attempt that completed nothing stays there. -/
theorem Step.proceed_of_suspended {r : Step} (h : r.outcome.isCompletion = false)
    (n : Nat) : r.proceed n = r := by
  cases n with
  | zero => rfl
  | succ n =>
      rw [proceed]
      split
      · next event hdid =>
          rw [hdid] at h
          cases h
      · rfl

namespace Machine

/-- The operations of a life with their replies, and the machine at its end. -/
inductive Lives : Machine → List (Operation × Reply) → Machine → Prop where
  | nil (m : Machine) : Lives m [] m
  | cons {m m' m'' : Machine} {operation : Operation} {reply : Reply}
      {rest : List (Operation × Reply)} (performs : m.Performs operation reply m')
      (lives : Lives m' rest m'') :
    Lives m ((operation, reply) :: rest) m''

/-- The outcome of each attempt on a machine that was asked to stop. -/
def ending (m : Machine) : Outcome :=
  if m.status = .halted then .halted else .interrupted

/-- The machine once an attempt has ended it. -/
def ended (m : Machine) : Machine :=
  { m with status := m.ending.status }

/-! ## One operation -/

section Requested

variable {m m' : Machine} {source : Random.Source}

theorem ending_ended : m.ended.ending = m.ending := by
  simp only [ending, ended]
  split <;> rfl

theorem ended_ended : m.ended.ended = m.ended := by
  rw [ended, ending_ended]
  rfl

theorem isCompletion_ending : m.ending.isCompletion = false := by
  rw [ending]
  split <;> rfl

theorem not_awaiting_ended (input : Input) : m.ended.status ≠ .awaiting input := by
  simp only [ended, ending]
  split <;> exact Status.noConfusion

theorem barred?_of_requested (h : m.interruptRequested = true) :
    m.barred? = some m.ending := by
  rw [barred?, ending, h]
  cases m.status <;> rfl

theorem step_of_requested (h : m.interruptRequested = true) :
    m.step source = ⟨m.ending, m.ended, source⟩ :=
  step_of_barred (barred?_of_requested h) source

/-- A run comes back at once. -/
theorem returns_iff_of_requested (h : m.interruptRequested = true) {r : Step} :
    m.Returns source r ↔ r = ⟨m.ending, m.ended, source⟩ := by
  have hstay : ∀ n, (m.step source).proceed n = ⟨m.ending, m.ended, source⟩ := by
    intro n
    rw [step_of_requested h]
    exact Step.proceed_of_suspended isCompletion_ending n
  constructor
  · rintro ⟨n, hr, -⟩
    exact hr.symm.trans (hstay n)
  · rintro rfl
    exact ⟨0, hstay 0, isCompletion_ending⟩

/-- What a machine does that was asked to stop and does not wait. -/
theorem perform_of_requested (h : m.interruptRequested = true)
    (hbusy : ∀ input, m.status ≠ .awaiting input) {operation : Operation}
    {reply : Reply} (performs : m.Performs operation reply m') :
    OverWith m.ending (operation, reply) ∧
      m' = if operation.attempts then m.ended else m := by
  cases performs with
  | step source =>
      rw [step_of_requested h]
      exact ⟨.step source, rfl⟩
  | run hreturns =>
      rw [(returns_iff_of_requested h).mp hreturns]
      exact ⟨.run _, rfl⟩
  | take htaken =>
      obtain ⟨input, hawaiting, -, -⟩ := of_resume_ok htaken
      exact absurd hawaiting (hbusy input)
  | refuse hrefused =>
      obtain ⟨-, -, rfl⟩ := of_resume_error hrefused
      exact ⟨.resume _ _, rfl⟩

/-! ## A life -/

theorem lives_of_ended (h : m.interruptRequested = true) (hended : m.ended = m)
    {history : List (Operation × Reply)} (lives : m.Lives history m') :
    m' = m ∧ ∀ x ∈ history, OverWith m.ending x := by
  induction lives with
  | nil m => exact ⟨rfl, nofun⟩
  | @cons m m₁ m' operation reply rest performs lives ih =>
      have hbusy : ∀ input, m.status ≠ .awaiting input := by
        rw [← hended]
        exact not_awaiting_ended
      obtain ⟨hreply, hnext⟩ := perform_of_requested h hbusy performs
      rw [hended, ite_self] at hnext
      subst hnext
      obtain ⟨hend, hreplies⟩ := ih h hended
      exact ⟨hend, List.forall_mem_cons.mpr ⟨hreply, hreplies⟩⟩

/-- The life of a machine after the attempt that ended it. -/
theorem lives_after_attempt (h : m.interruptRequested = true)
    {rest : List (Operation × Reply)} (lives : m.ended.Lives rest m') :
    m' = m.ended ∧ ∀ x ∈ rest, OverWith m.ending x := by
  have hrest := lives_of_ended (m := m.ended) h ended_ended lives
  rw [ending_ended] at hrest
  exact hrest

theorem lives_of_requested (h : m.interruptRequested = true)
    (hbusy : ∀ input, m.status ≠ .awaiting input)
    {history : List (Operation × Reply)} (lives : m.Lives history m') :
    (m' = if history.any (·.1.attempts) then m.ended else m) ∧
      ∀ x ∈ history, OverWith m.ending x := by
  induction lives with
  | nil m => exact ⟨rfl, nofun⟩
  | @cons m m₁ m' operation reply rest performs lives ih =>
      obtain ⟨hreply, hnext⟩ := perform_of_requested h hbusy performs
      rw [List.any_cons]
      cases hattempts : operation.attempts with
      | false =>
          rw [hattempts] at hnext
          obtain rfl : m₁ = m := hnext
          obtain ⟨hend, hreplies⟩ := ih h hbusy
          exact ⟨hend, List.forall_mem_cons.mpr ⟨hreply, hreplies⟩⟩
      | true =>
          rw [hattempts] at hnext
          obtain rfl : m₁ = m.ended := hnext
          obtain ⟨hend, hreplies⟩ := lives_after_attempt h lives
          exact ⟨hend, List.forall_mem_cons.mpr ⟨hreply, hreplies⟩⟩

theorem interruptRequested_perform (h : m.interruptRequested = true)
    {operation : Operation} {reply : Reply} (performs : m.Performs operation reply m') :
    m'.interruptRequested = true := by
  cases performs with
  | step source =>
      rw [step_of_requested h]
      exact h
  | run hreturns =>
      rw [(returns_iff_of_requested h).mp hreturns]
      exact h
  | take htaken =>
      obtain ⟨input, -, -, rfl⟩ := of_resume_ok htaken
      exact h
  | refuse hrefused =>
      obtain ⟨-, -, rfl⟩ := of_resume_error hrefused
      exact h

theorem interruptRequested_lives (h : m.interruptRequested = true)
    {history : List (Operation × Reply)} (lives : m.Lives history m') :
    m'.interruptRequested = true := by
  induction lives with
  | nil m => exact h
  | cons performs lives ih => exact ih (interruptRequested_perform h performs)

theorem ended_of_halted (h : m.status = .halted) :
    m.ending = .halted ∧ m.ended = m := by
  have hending : m.ending = .halted := if_pos h
  refine ⟨hending, ?_⟩
  rw [ended, hending, Outcome.status, ← h]

theorem ended_of_not_halted (h : m.status ≠ .halted) :
    m.ending = .interrupted ∧ m.ended = { m with status := .interrupted } := by
  have hending : m.ending = .interrupted := if_neg h
  refine ⟨hending, ?_⟩
  rw [ended, hending]
  rfl

/-- What becomes of a machine that goes on, or has been interrupted already. -/
theorem lives_of_requested_going (h : m.interruptRequested = true)
    (hstatus : m.status = .running ∨ m.status = .interrupted)
    {history : List (Operation × Reply)} (lives : m.Lives history m') :
    (m' = if history.any (·.1.attempts) then { m with status := .interrupted } else m) ∧
      ∀ x ∈ history, OverWith .interrupted x := by
  have hnot : m.status ≠ .halted := by
    rcases hstatus with hs | hs <;> rw [hs] <;> exact Status.noConfusion
  have hbusy : ∀ input, m.status ≠ .awaiting input := by
    rcases hstatus with hs | hs <;> rw [hs] <;> exact nofun
  obtain ⟨hending, hended⟩ := ended_of_not_halted hnot
  have hlife := lives_of_requested h hbusy lives
  rw [hending, hended] at hlife
  exact hlife

/-- A machine that waits when it is asked to stop is ended by the first operation, or
takes a line by it and does not wait any more. -/
theorem lives_of_requested_awaiting (h : m.interruptRequested = true) {input : Input}
    (hawaiting : m.status = .awaiting input) {history : List (Operation × Reply)}
    (lives : m.Lives history m') :
    ((m' = if history.any (·.1.attempts) then m.ended else m) ∧
        ∀ x ∈ history, OverWith m.ending x) ∨
      ∃ line rest,
        history =
          (.resume line, .took (.did (.pushed (input.read line)))) :: rest ∧
        (m.answered input line).Lives rest m' := by
  cases lives with
  | nil => exact .inl ⟨rfl, nofun⟩
  | @cons _ m₁ _ operation reply rest performs lives =>
      cases performs with
      | step source =>
          rw [step_of_requested h] at lives ⊢
          obtain ⟨hend, hreplies⟩ := lives_after_attempt h lives
          exact .inl ⟨hend, List.forall_mem_cons.mpr ⟨.step source, hreplies⟩⟩
      | run hreturns =>
          rw [(returns_iff_of_requested h).mp hreturns] at lives ⊢
          obtain ⟨hend, hreplies⟩ := lives_after_attempt h lives
          exact .inl ⟨hend, List.forall_mem_cons.mpr ⟨.run _, hreplies⟩⟩
      | take htaken =>
          rw [resume_of_awaiting hawaiting] at htaken
          cases htaken
          exact .inr ⟨_, rest, rfl, lives⟩
      | refuse hrefused =>
          rw [resume_of_awaiting hawaiting] at hrefused
          cases hrefused

end Requested

/-- A machine that was asked to stop, and what becomes of it whatever is done to it. A
halted one stays as it is. One that is running or interrupted takes no line, and its
attempts do nothing but interrupt it. One that waits does the same, unless the very
first thing that is done to it is to give it a line: that one is taken, as it would
have been without the request. At no time does a run fail to come back. -/
theorem interruption_is_final {m m' : Machine} {history : List (Operation × Reply)}
    (h : m.interruptRequested = true) (lives : m.Lives history m') :
    (m.status = .halted → m' = m ∧ ∀ x ∈ history, OverWith .halted x) ∧
      (m.status = .running ∨ m.status = .interrupted →
        m' = (if history.any (·.1.attempts) then { m with status := .interrupted }
          else m) ∧
        ∀ x ∈ history, OverWith .interrupted x) ∧
      (∀ input, m.status = .awaiting input →
        (m' = (if history.any (·.1.attempts) then { m with status := .interrupted }
            else m) ∧
          ∀ x ∈ history, OverWith .interrupted x) ∨
        ∃ line rest,
          let value := input.read line
          let after := ({ m with status := .running }.push value).finish
          history = (.resume line, .took (.did (.pushed value))) :: rest ∧
            { m with interruptRequested := false }.resume line =
              (.ok (.did (.pushed value)), { after with interruptRequested := false }) ∧
            m' = (if rest.any (·.1.attempts) then { after with status := .interrupted }
              else after) ∧
            ∀ x ∈ rest, OverWith .interrupted x) ∧
      ∀ source, ∃ r, m'.Returns source r := by
  refine ⟨?_, ?_, ?_, ?_⟩
  · intro hhalted
    obtain ⟨hending, hended⟩ := ended_of_halted hhalted
    have hlife := lives_of_requested h (by rw [hhalted]; exact nofun) lives
    rw [hending, hended, ite_self] at hlife
    exact hlife
  · intro hstatus
    exact lives_of_requested_going h hstatus lives
  · intro input hawaiting
    obtain ⟨hending, hended⟩ :=
      ended_of_not_halted (m := m) (by rw [hawaiting]; exact Status.noConfusion)
    rcases lives_of_requested_awaiting h hawaiting lives with hlife | hlife
    · rw [hending, hended] at hlife
      exact .inl hlife
    · obtain ⟨line, rest, rfl, hrest⟩ := hlife
      obtain ⟨hend, hreplies⟩ := lives_of_requested_going
        (m := m.answered input line) h (.inl rfl) hrest
      refine .inr ⟨line, rest, rfl, ?_, hend, hreplies⟩
      exact resume_of_awaiting (m := { m with interruptRequested := false })
        hawaiting line
  · intro source
    have hrequested := interruptRequested_lives h lives
    exact ⟨_, (returns_iff_of_requested hrequested).mpr rfl⟩

/-- A program that waits for a number when it is asked to stop, and is then given one,
stepped, run, and given another. -/
theorem interruption_is_final_waiting :
    let waiting := ((Machine.start (Grid.ofLines [['&', '@']])).step (.seeded 0)).machine
    let m := waiting.interrupt
    let after := ({ m with status := .running }.push 7).finish
    m.interruptRequested = true ∧ m.status = .awaiting .integer ∧
      ∃ history m', m.Lives history m' ∧ history.length = 4 ∧
        (∀ x ∈ history.tail, OverWith .interrupted x) ∧
        m' = { after with status := .interrupted } := by
  intro waiting m after
  have hawaiting : m.status = .awaiting .integer := by decide +kernel
  have hseven : Input.integer.read "7" = 7 := by decide +kernel
  have htaken : m.resume "7" = (.ok (.did (.pushed 7)), after) := by
    rw [resume_of_awaiting hawaiting, hseven]
    rfl
  have hstep := Performs.step (m := after) (.seeded 1)
  rw [step_of_requested (m := after) rfl] at hstep
  have hreturns : after.ended.Returns (.seeded 2) ⟨.interrupted, after.ended, .seeded 2⟩ :=
    (returns_iff_of_requested rfl).mpr rfl
  have hrun := Performs.run hreturns
  have hrefused : after.ended.resume "8" = (.error ⟨.interrupted⟩, after.ended) := rfl
  have lives := Lives.cons (.take htaken)
    (.cons hstep (.cons hrun (.cons (.refuse hrefused) (.nil _))))
  obtain ⟨-, -, hwaiting, -⟩ := interruption_is_final (m := m) rfl lives
  refine ⟨rfl, hawaiting, _, _, lives, rfl, ?_, ?_⟩
  · rcases hwaiting .integer hawaiting with ⟨-, hall⟩ | ⟨line, rest, hhistory, -, -, hrest⟩
    · cases hall _ List.mem_cons_self
    · rw [hhistory]
      exact hrest
  · rfl

end Machine

end Funge93
