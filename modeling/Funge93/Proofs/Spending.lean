import Funge93.Proofs.Handling
import Funge93.Proofs.Limit
import Mathlib.Algebra.GroupWithZero.Nat

/-!
# Spending the time saved up

An update adds to the time saved up and pays for attempts out of it, until what is left
does not pay for another one. That is a division with remainder. It comes out as one as
long as nothing goes wrong, and `spend_attempted` is the lemma for this: attempts that
complete an instruction are paid for one after the other, and leave the spending where it
was, with less time and less of its budget.

The other two ways in which it ends are the ones that forgive. An attempt that completes
nothing is the last one, and so is the last one that the budget allows. Both leave no time
at all, and the first one leaves a scene that rests.

The remainder is what the next update begins with. So how the same time is cut into updates
makes no difference, unless one of them is longer than its budget.
-/

namespace Funge93

namespace Session

variable {s : Session} {m n : Nat}

/-- A session after a number of attempts. -/
def attempted (s : Session) (n : Nat) : Session :=
  (fun s : Session => s.advance.2)^[n] s

/-- Whether each of a number of attempts in a row completes an instruction. -/
def Completes (s : Session) (n : Nat) : Prop :=
  ∀ i < n, (s.attempted i).advance.1.isCompletion = true

instance : Decidable (s.Completes n) :=
  inferInstanceAs (Decidable (∀ i < n, _))

theorem attempted_add (s : Session) (m n : Nat) :
    s.attempted (m + n) = (s.attempted m).attempted n := by
  rw [Nat.add_comm]
  exact Function.iterate_add_apply _ n m s

theorem completes_zero (s : Session) : s.Completes 0 :=
  nofun

theorem completes_succ :
    s.Completes (n + 1) ↔ s.Completes n ∧ (s.attempted n).advance.1.isCompletion = true :=
  Nat.forall_lt_succ_right

theorem completes_add :
    s.Completes (m + n) ↔ s.Completes m ∧ (s.attempted m).Completes n := by
  induction n with
  | zero => exact ⟨fun h => ⟨h, completes_zero _⟩, And.left⟩
  | succ n ih =>
      rw [← Nat.add_assoc, completes_succ, completes_succ, ih, attempted_add, and_assoc]

/-- Where the first of some attempts is that completes nothing, if there is one. -/
theorem completes_or_suspends (s : Session) (n : Nat) :
    s.Completes n ∨
      ∃ m < n, s.Completes m ∧ (s.attempted m).advance.1.isCompletion = false := by
  induction n with
  | zero => exact .inl (completes_zero s)
  | succ n ih =>
      rcases ih with hcompletes | ⟨m, hm, hsuspends⟩
      · cases hlast : (s.attempted n).advance.1.isCompletion with
        | true => exact .inl (completes_succ.mpr ⟨hcompletes, hlast⟩)
        | false => exact .inr ⟨n, Nat.lt_succ_self n, hcompletes, hlast⟩
      · exact .inr ⟨m, Nat.lt_succ_of_lt hm, hsuspends⟩

theorem steps_attempted (h : s.Completes n) :
    (s.attempted n).machine.steps = s.machine.steps + n := by
  induction n with
  | zero => rfl
  | succ n ih =>
      obtain ⟨hcompletes, hlast⟩ := completes_succ.mp h
      rw [attempted_add]
      exact (steps_advance _).trans (by rw [hlast, ih hcompletes]; rfl)

end Session

namespace Viewer

namespace Setup

/-- How many attempts some time pays for, up to a budget. If there is no delay, they cost
nothing and the budget is all that there is. -/
def due (setup : Setup) (budget saved : Nat) : Nat :=
  if budget * setup.delay ≤ saved then budget else saved / setup.delay

/-- The time that is left when the attempts that are due have been paid for. Where the budget
runs out, what it has not spent is forgiven. -/
def left (setup : Setup) (budget saved : Nat) : Nat :=
  if budget * setup.delay ≤ saved then 0 else saved % setup.delay

variable {setup : Setup} {budget saved : Nat}

theorem due_eq_budget (h : budget * setup.delay ≤ saved) : setup.due budget saved = budget :=
  if_pos h

theorem left_eq_zero (h : budget * setup.delay ≤ saved) : setup.left budget saved = 0 :=
  if_pos h

theorem due_eq_div (h : saved < budget * setup.delay) :
    setup.due budget saved = saved / setup.delay :=
  if_neg (Nat.not_le.mpr h)

theorem left_eq_mod (h : saved < budget * setup.delay) :
    setup.left budget saved = saved % setup.delay :=
  if_neg (Nat.not_le.mpr h)

theorem delay_pos (h : saved < budget * setup.delay) : 0 < setup.delay :=
  Nat.pos_of_lt_mul_left h

theorem due_lt (h : saved < budget * setup.delay) : setup.due budget saved < budget := by
  rw [due_eq_div h]
  exact (Nat.div_lt_iff_lt_mul (delay_pos h)).mpr h

theorem due_le : setup.due budget saved ≤ budget := by
  rcases Nat.lt_or_ge saved (budget * setup.delay) with h | h
  · exact (due_lt h).le
  · exact (due_eq_budget h).le

theorem due_mul_le : setup.due budget saved * setup.delay ≤ saved := by
  rcases Nat.lt_or_ge saved (budget * setup.delay) with h | h
  · rw [due_eq_div h]
    exact Nat.div_mul_le_self saved setup.delay
  · rw [due_eq_budget h]
    exact h

theorem left_lt (h : saved < budget * setup.delay) : setup.left budget saved < setup.delay := by
  rw [left_eq_mod h]
  exact Nat.mod_lt saved (delay_pos h)

/-- What is left when less was saved up than the budget allows is what was not spent. -/
theorem sub_due_mul (h : saved < budget * setup.delay) :
    saved - setup.due budget saved * setup.delay = setup.left budget saved := by
  rw [due_eq_div h, left_eq_mod h, Nat.mul_comm, ← Nat.mod_eq_sub]

/-- Time that comes later pays for attempts together with what is left. -/
theorem add_div (h : saved < budget * setup.delay) (time : Nat) :
    (saved + time) / setup.delay =
      setup.due budget saved + (setup.left budget saved + time) / setup.delay := by
  conv_lhs => rw [← Nat.div_add_mod saved setup.delay]
  rw [due_eq_div h, left_eq_mod h, Nat.add_assoc, Nat.mul_add_div (delay_pos h)]

theorem add_mod (h : saved < budget * setup.delay) (time : Nat) :
    (saved + time) % setup.delay = (setup.left budget saved + time) % setup.delay := by
  rw [left_eq_mod h, Nat.mod_add_mod]

end Setup

namespace Scene

variable {s : Scene} {n : Nat}

/-- Whether an update makes no attempt, however long it is. -/
def rests (s : Scene) : Bool :=
  s.paused || s.awaiting || s.isFinished

/-- A scene after a number of attempts, with some time left. -/
def after (s : Scene) (n elapsed : Nat) : Scene :=
  { s with session := s.session.attempted n, elapsed := elapsed }

theorem after_after (s : Scene) (m n elapsed elapsed' : Nat) :
    (s.after m elapsed).after n elapsed' = s.after (m + n) elapsed' := by
  rw [after, after, after, Session.attempted_add]

@[simp] theorem setup_after (elapsed : Nat) : (s.after n elapsed).setup = s.setup := rfl

@[simp] theorem elapsed_after (elapsed : Nat) : (s.after n elapsed).elapsed = elapsed := rfl

@[simp] theorem session_after (elapsed : Nat) :
    (s.after n elapsed).session = s.session.attempted n := rfl

/-- A scene that does not rest comes to rest by an attempt that completes nothing. -/
theorem rests_after_one (hawake : s.rests = false) (elapsed : Nat) :
    (s.after 1 elapsed).rests = !s.session.advance.1.isCompletion := by
  obtain ⟨⟨hpaused, -⟩, hfinished⟩ := by
    simpa only [rests, Bool.or_eq_false_iff] using hawake
  have hstatus := s.session.status_advance
  have hover := s.session.finished_advance
  show (s.paused || s.session.advance.2.machine.status.awaited?.isSome ||
    s.session.advance.2.finished) = _
  rw [hpaused, hstatus, hover, show s.session.finished = false from hfinished]
  cases s.session.advance.1 <;> rfl

theorem rests_after (hawake : s.rests = false) (h : s.session.Completes n) (elapsed : Nat) :
    (s.after n elapsed).rests = false := by
  induction n generalizing elapsed with
  | zero => exact hawake
  | succ n ih =>
      obtain ⟨hcompletes, hlast⟩ := Session.completes_succ.mp h
      rw [← s.after_after n 1 0, rests_after_one (ih hcompletes 0)]
      exact congrArg Bool.not hlast

theorem rests_after_suspended (hawake : s.rests = false) (h : s.session.Completes n)
    (hlast : (s.session.attempted n).advance.1.isCompletion = false) (elapsed : Nat) :
    (s.after (n + 1) elapsed).rests = true := by
  rw [← s.after_after n 1 0, rests_after_one (rests_after hawake h 0)]
  exact congrArg Bool.not hlast

/-! ## One update -/

theorem spend_succ (s : Scene) (budget : Nat) :
    s.spend (budget + 1) =
      if s.setup.delay ≤ s.elapsed then
        if s.session.advance.1.isCompletion then
          (s.after 1 (s.elapsed - s.setup.delay)).spend budget
        else s.after 1 0
      else s := by
  rw [spend, after, after, show s.session.attempted 1 = s.session.advance.2 from rfl]
  split
  · rcases s.session.advance with ⟨outcome, session⟩
    cases outcome <;> rfl
  · rfl

/-- Attempts that complete an instruction are paid for one after the other. -/
theorem spend_attempted (hcompletes : s.session.Completes n)
    (hdue : n * s.setup.delay ≤ s.elapsed) (budget : Nat) :
    s.spend (n + budget) = (s.after n (s.elapsed - n * s.setup.delay)).spend budget := by
  -- The last of the attempts is split off, so it comes out of a larger budget first.
  induction n generalizing budget with
  | zero => rw [Nat.zero_add, Nat.zero_mul]; rfl
  | succ n ih =>
      obtain ⟨hfirst, hlast⟩ := Session.completes_succ.mp hcompletes
      rw [Nat.succ_mul] at hdue ⊢
      have hpays : s.setup.delay ≤ s.elapsed - n * s.setup.delay := by omega
      rw [Nat.succ_add_eq_add_succ, ih hfirst (by omega), spend_succ, setup_after, elapsed_after,
        session_after, if_pos hpays, if_pos hlast, after_after, Nat.sub_add_eq]

/-- What is due is spent, and no more, if all of it completes an instruction. -/
theorem spend_of_completes {budget : Nat}
    (hcompletes : s.session.Completes (s.setup.due budget s.elapsed)) :
    s.spend budget =
      s.after (s.setup.due budget s.elapsed) (s.setup.left budget s.elapsed) := by
  have hspend := spend_attempted hcompletes Setup.due_mul_le
  rcases Nat.lt_or_ge s.elapsed (budget * s.setup.delay) with hlt | hbacklog
  · obtain ⟨rest, hrest⟩ := Nat.exists_eq_add_of_lt (Setup.due_lt hlt)
    have hspent : ¬s.setup.delay ≤ s.setup.left budget s.elapsed :=
      Nat.not_le.mpr (Setup.left_lt hlt)
    calc s.spend budget = s.spend (s.setup.due budget s.elapsed + (rest + 1)) :=
          congrArg (s.spend ·) hrest
      _ = (s.after (s.setup.due budget s.elapsed) (s.setup.left budget s.elapsed)).spend
            (rest + 1) := by rw [hspend, Setup.sub_due_mul hlt]
      _ = _ := by rw [spend_succ, setup_after, elapsed_after, if_neg hspent]
  · rw [Setup.due_eq_budget hbacklog] at hspend ⊢
    rw [Setup.left_eq_zero hbacklog]
    exact hspend 0

/-- An attempt that completes nothing is the last one, and nothing is left. -/
theorem spend_of_suspended {budget : Nat} (hdue : n < s.setup.due budget s.elapsed)
    (hcompletes : s.session.Completes n)
    (hlast : (s.session.attempted n).advance.1.isCompletion = false) :
    s.spend budget = s.after (n + 1) 0 := by
  have hpaid : (n + 1) * s.setup.delay ≤ s.elapsed :=
    (Nat.mul_le_mul_right _ hdue).trans Setup.due_mul_le
  obtain ⟨rest, hbudget⟩ := Nat.exists_eq_add_of_lt (Nat.lt_of_lt_of_le hdue Setup.due_le)
  rw [Nat.succ_mul] at hpaid
  have hpays : s.setup.delay ≤ s.elapsed - n * s.setup.delay := by omega
  rw [hbudget, Nat.add_assoc, spend_attempted hcompletes (by omega), spend_succ, setup_after,
    elapsed_after, session_after, if_pos hpays, if_neg (Bool.eq_false_iff.mp hlast), after_after]

theorem update_of_rests (hrests : s.rests = true) (time : Nat) :
    s.update time = { s with elapsed := 0 } :=
  if_pos hrests

theorem update_of_awake (hawake : s.rests = false) (time : Nat) :
    s.update time = { s with elapsed := s.elapsed + time }.spend maxStepsPerUpdate :=
  if_neg (Bool.eq_false_iff.mp hawake)

/-- What an update does that finds a scene at work. -/
theorem update_cases (hawake : s.rests = false) (time : Nat) :
    let saved := s.elapsed + time
    let due := s.setup.due maxStepsPerUpdate saved
    (s.session.Completes due ∧
        s.update time = s.after due (s.setup.left maxStepsPerUpdate saved)) ∨
      ∃ n < due, s.session.Completes n ∧
        (s.session.attempted n).advance.1.isCompletion = false ∧
        s.update time = s.after (n + 1) 0 := by
  intro saved due
  rw [update_of_awake hawake time]
  rcases s.session.completes_or_suspends due with hcompletes | ⟨n, hn, hcompletes, hlast⟩
  · exact .inl ⟨hcompletes, spend_of_completes hcompletes⟩
  · exact .inr ⟨n, hn, hcompletes, hlast, spend_of_suspended hn hcompletes hlast⟩

theorem elapsed_update (s : Scene) (time : Nat) :
    (s.update time).elapsed = 0 ∨ (s.update time).elapsed < s.setup.delay := by
  cases hrests : s.rests with
  | true =>
      rw [update_of_rests hrests]
      exact .inl rfl
  | false =>
      rcases update_cases hrests time with ⟨-, hupdate⟩ | ⟨n, -, -, -, hupdate⟩
      · rw [hupdate, elapsed_after]
        rcases Nat.lt_or_ge (s.elapsed + time) (maxStepsPerUpdate * s.setup.delay) with
          hlt | hbacklog
        · exact .inr (Setup.left_lt hlt)
        · exact .inl (Setup.left_eq_zero hbacklog)
      · rw [hupdate]
        exact .inl rfl

/-! ## Many updates -/

/-- Whether each of some updates, in a row, has less to pay for than its budget allows. -/
def keepsUp : Scene → List Nat → Bool
  | _, [] => true
  | s, time :: times =>
    decide (s.elapsed + time < maxStepsPerUpdate * s.setup.delay) &&
      (s.update time).keepsUp times

/-- A scene that rests is left resting by updates. -/
theorem rests_foldl_update (hrests : s.rests = true) (times : List Nat) :
    (times.foldl update s).rests = true := by
  induction times generalizing s with
  | nil => exact hrests
  | cons time times ih =>
      refine ih ?_
      rw [update_of_rests hrests]
      exact hrests

/-- Updates that keep up make the attempts that all of their time pays for, and keep the
scene at work, if these attempts complete an instruction, and only then. -/
theorem foldl_update (hawake : s.rests = false) (hsaved : s.elapsed < s.setup.delay)
    (times : List Nat) (hkeeps : s.keepsUp times = true) :
    ((times.foldl update s).rests = false ↔
      s.session.Completes ((s.elapsed + times.sum) / s.setup.delay)) ∧
    (s.session.Completes ((s.elapsed + times.sum) / s.setup.delay) →
      times.foldl update s = s.after ((s.elapsed + times.sum) / s.setup.delay)
        ((s.elapsed + times.sum) % s.setup.delay)) := by
  induction times generalizing s with
  | nil =>
      rw [List.sum_nil, Nat.add_zero, Nat.div_eq_of_lt hsaved, Nat.mod_eq_of_lt hsaved]
      exact ⟨⟨fun _ => Session.completes_zero _, fun _ => hawake⟩, fun _ => rfl⟩
  | cons time times ih =>
      rw [keepsUp, Bool.and_eq_true, decide_eq_true_eq] at hkeeps
      obtain ⟨hlt, hkeeps⟩ := hkeeps
      rw [List.foldl_cons, List.sum_cons, ← Nat.add_assoc, Setup.add_div hlt, Setup.add_mod hlt,
        Session.completes_add]
      rcases update_cases hawake time with
        ⟨hcompletes, hupdate⟩ | ⟨n, hdue, hcompletes, hlast, hupdate⟩
      · rw [hupdate] at hkeeps ⊢
        obtain ⟨hwork, hrun⟩ := ih (rests_after hawake hcompletes _) (Setup.left_lt hlt) hkeeps
        refine ⟨hwork.trans (and_iff_right hcompletes).symm, fun h => ?_⟩
        exact (hrun h.2).trans (after_after ..)
      · -- The scene rests now, and what is due will never all be completed.
        have hstuck : ¬s.session.Completes (s.setup.due maxStepsPerUpdate (s.elapsed + time)) :=
          fun h => absurd (h n hdue) (Bool.eq_false_iff.mp hlast)
        have hrests := rests_after_suspended hawake hcompletes hlast 0
        rw [hupdate, rests_foldl_update hrests]
        exact ⟨⟨nofun, fun h => absurd h.1 hstuck⟩, fun h => absurd h.1 hstuck⟩

/-- An update of a scene that rests leaves the session as it is. One that finds a scene at
work makes the attempts that are due, never more than its budget, as long as they complete
an instruction. The first one that does not is its last one and leaves no time. Whatever
happens, there is no time left afterwards that would pay for another attempt.

So updates that are within their budget divide the whole time that they bring by the delay,
however it is cut. The scene is still at work after them if none of these attempts has
suspended or ended the run. Then the attempts made are the quotient, which is also how many
instructions were completed, and the time left over is the remainder. -/
theorem updates_spend_what_is_due (s : Scene) :
    (∀ time,
      let saved := s.elapsed + time
      let due := s.setup.due maxStepsPerUpdate saved
      ((s.update time).elapsed = 0 ∨ (s.update time).elapsed < s.setup.delay) ∧
      (s.rests = true → s.update time = { s with elapsed := 0 }) ∧
      (s.rests = false → due ≤ maxStepsPerUpdate ∧
        ((s.session.Completes due ∧
            s.update time = s.after due (s.setup.left maxStepsPerUpdate saved)) ∨
          ∃ n < due, s.session.Completes n ∧
            (s.session.attempted n).advance.1.isCompletion = false ∧
            s.update time = s.after (n + 1) 0))) ∧
    (s.rests = false → s.elapsed < s.setup.delay → ∀ times, s.keepsUp times = true →
      let total := s.elapsed + times.sum
      let n := total / s.setup.delay
      ((times.foldl update s).rests = false ↔ s.session.Completes n) ∧
      (s.session.Completes n →
        times.foldl update s = s.after n (total % s.setup.delay) ∧
        (times.foldl update s).session.machine.steps = s.session.machine.steps + n)) := by
  refine ⟨fun time => ⟨elapsed_update s time, fun hrests => update_of_rests hrests time,
    fun hawake => ⟨Setup.due_le, update_cases hawake time⟩⟩,
    fun hawake hsaved times hkeeps => ?_⟩
  intro total n
  obtain ⟨hwork, hrun⟩ := foldl_update hawake hsaved times hkeeps
  refine ⟨hwork, fun hcompletes => ⟨hrun hcompletes, ?_⟩⟩
  rw [hrun hcompletes]
  exact Session.steps_attempted hcompletes

/-- The same time in two different cuts. In the first one, what has been saved up comes to
just one delay in the third update. -/
theorem updates_spend_what_is_due_cuts :
    let s := start ⟨Grid.ofLines [['1', ' ', ':']], none, 30⟩ fun _ => Random.ChaCha.key 0
    [75, 14, 1, 15].foldl update s = s.after 3 15 ∧
      [75, 14, 1, 15].foldl update s = [29, 76].foldl update s ∧
      ([75, 14, 1, 15].foldl update s).session.machine.steps = 3 := by
  intro s
  have hcompletes : s.session.Completes 3 := by decide +kernel
  have hcut : ∀ times, s.keepsUp times = true → times.sum = 105 →
      times.foldl update s = s.after 3 15 ∧
        (times.foldl update s).session.machine.steps = 3 := by
    intro times hkeeps hsum
    obtain ⟨-, hrun⟩ :=
      (updates_spend_what_is_due s).2 (by decide) (by decide) times hkeeps
    have helapsed : s.elapsed = 0 := rfl
    have hdelay : s.setup.delay = 30 := rfl
    have hsteps : s.session.machine.steps = 0 := rfl
    simp only [helapsed, hdelay, hsum, hsteps, Nat.zero_add, Nat.reduceDiv, Nat.reduceMod]
      at hrun
    exact hrun hcompletes
  obtain ⟨hfirst, hsteps⟩ := hcut [75, 14, 1, 15] (by decide +kernel) rfl
  obtain ⟨hsecond, -⟩ := hcut [29, 76] (by decide +kernel) rfl
  exact ⟨hfirst, hfirst.trans hsecond.symm, hsteps⟩

end Scene

end Viewer

end Funge93
