import Funge93.Proofs.Reference
import Mathlib.Data.List.Infix

/-!
# A limit only cuts a run short

A run with a limit goes through the same rounds as the run without one for as long
as the limit lets it. That rests on one count: a round that does not end the run
completes exactly one instruction, by the attempt itself or by the line that
answers it, and a round that ends the run completes none. So after `n` rounds a
run that goes on has completed `n` instructions, the limit is first reached at the
start of the round whose number it is, and that round stops the run.

A run that has ended before keeps its end, limit or not. One that ends of itself
after exactly as many instructions as the limit allows is stopped all the same,
since the round in which it would have ended comes too late.

All of this is said of the reference, where a limit is a number handed to each
round, and carried over to the drive at the end.
-/

namespace Funge93

namespace Session

variable (s : Session)

theorem steps_advance :
    s.advance.2.machine.steps =
      s.machine.steps + if s.advance.1.isCompletion then 1 else 0 := by
  have h := congrArg Onlooker.steps s.onlooker_advance
  generalize s.advance.1 = outcome at h ⊢
  cases outcome with
  | did event => exact h
  | awaits input => exact h
  | halted => exact h
  | interrupted => exact h

/-- A request to stop ends a run that is running, and does nothing else to it. -/
theorem advance_interrupt (h : s.machine.status = .running) :
    s.interrupt.advance.1 = .interrupted ∧
      s.interrupt.advance.2.machine =
        { s.machine with status := .interrupted, interruptRequested := true } := by
  have hstep : s.interrupt.machine.step s.interrupt.source =
      ⟨.interrupted,
        { s.machine with status := .interrupted, interruptRequested := true },
        s.source⟩ := by
    rw [Machine.step, show s.interrupt.machine.status = .running from h]
    rfl
  constructor
  · show (s.interrupt.machine.step s.interrupt.source).outcome = .interrupted
    rw [hstep]
  · rw [machine_advance, hstep]

end Session

namespace Headless

/-! ## What a round completes -/

/-- What a round has done to a session that it does not end: one instruction was
completed, and the run goes on. -/
structure Completes (s s' : Session) : Prop where
  steps : s'.machine.steps = s.machine.steps + 1
  running : s'.machine.status = .running
  finished : s'.finished = s.finished

theorem settle_completes (due : Option String) (s : Session)
    (h : (settle due s.advance).1.verdict? = none) :
    Completes s (settle due s.advance).2 := by
  have hsteps := s.steps_advance
  have hstatus := s.status_advance
  have hfinished := s.finished_advance
  rcases hadvance : s.advance with ⟨outcome, s'⟩
  rw [hadvance] at h hsteps hstatus hfinished
  cases outcome with
  | did event => exact ⟨hsteps, hstatus, hfinished.trans (Bool.or_false _)⟩
  | halted => cases h
  | interrupted => cases h
  | awaits input =>
      simp only [settle] at h ⊢
      cases due with
      | none => cases h
      | some line =>
          -- The attempt only waits; the line completes what it waits with.
          simp only [s'.supply_of_awaiting hstatus line]
          refine ⟨?_, rfl, hfinished.trans (Bool.or_false _)⟩
          show s'.machine.steps + 1 = s.machine.steps + 1
          rw [hsteps]
          rfl

theorem settle_steps_of_verdict (due : Option String) (s : Session)
    (h : (settle due s.advance).1.verdict?.isSome) :
    (settle due s.advance).2.machine.steps = s.machine.steps := by
  have hsteps := s.steps_advance
  have hstatus := s.status_advance
  rcases hadvance : s.advance with ⟨outcome, s'⟩
  rw [hadvance] at h hsteps hstatus
  cases outcome with
  | did event => cases h
  | halted => exact hsteps
  | interrupted => exact hsteps
  | awaits input =>
      simp only [settle] at h ⊢
      cases due with
      | none => exact hsteps
      | some line =>
          simp only [s'.supply_of_awaiting hstatus line] at h
          cases h

/-! ## The limit at one round -/

theorem play_of_lt {m : Nat} {due : Option String} {s : Session}
    (h : s.machine.steps < m) : play (some m) due s = play none due s := by
  have hreached : decide (m ≤ s.machine.steps) = false :=
    decide_eq_false (Nat.not_le.mpr h)
  simp only [play, Option.any_some, Option.any_none, hreached, Bool.false_and]

theorem play_of_le {m : Nat} {due : Option String} {s : Session}
    (h : m ≤ s.machine.steps) (hfinished : s.finished = false) :
    play (some m) due s = settle due s.interrupt.advance := by
  simp only [play, Option.any_some, decide_eq_true h, hfinished, Bool.not_false,
    Bool.and_self, if_true]

theorem play_none (due : Option String) (s : Session) :
    play none due s = settle due s.advance := rfl

/-! ## The rounds of a run -/

namespace Reference

variable {limit : Option Nat} {lines : Nat → Option String} {r : Reference}

theorem turn_of_live (h : r.verdict? = none) :
    r.turn limit lines =
      ⟨(play limit (lines r.requests) r.session).2,
        r.rounds ++ [(play limit (lines r.requests) r.session).1]⟩ := by
  simp only [turn, h]

theorem turn_of_verdict {verdict : Except Failure Outcome}
    (h : r.verdict? = some verdict) : r.turn limit lines = r := by
  simp only [turn, h]

theorem after_succ (s : Session) (n : Nat) :
    after limit lines s (n + 1) = (after limit lines s n).turn limit lines :=
  Function.iterate_succ_apply' _ n _

/-- A run that has ended stays as it is. -/
theorem after_of_verdict {s : Session} {n k : Nat}
    (h : (after limit lines s n).verdict?.isSome) (hle : n ≤ k) :
    after limit lines s k = after limit lines s n := by
  obtain ⟨verdict, hverdict⟩ := Option.isSome_iff_exists.mp h
  induction k, hle using Nat.le_induction with
  | base => rfl
  | succ k hle ih => rw [after_succ, ih, turn_of_verdict hverdict]

theorem rounds_prefix_turn : r.rounds <+: (r.turn limit lines).rounds := by
  cases hverdict : r.verdict? with
  | none =>
      rw [turn_of_live hverdict]
      exact List.prefix_append _ _
  | some verdict =>
      rw [turn_of_verdict hverdict]

theorem rounds_prefix_after (s : Session) {n k : Nat} (hle : n ≤ k) :
    (after limit lines s n).rounds <+: (after limit lines s k).rounds := by
  induction k, hle using Nat.le_induction with
  | base => exact List.prefix_rfl
  | succ k hle ih =>
      rw [after_succ]
      exact ih.trans rounds_prefix_turn

/-- How far a run without a limit has come after `n` rounds. If it goes on it has
completed `n` instructions, and if it has ended it has completed fewer. -/
structure Paced (r : Reference) (n : Nat) : Prop where
  steps : r.verdict? = none → r.session.machine.steps = n
  running : r.verdict? = none → r.session.machine.status = .running
  unfinished : r.verdict? = none → r.session.finished = false
  early : r.verdict?.isSome → r.session.machine.steps < n

namespace Paced

theorem turn {n : Nat} (h : Paced r n) : Paced (r.turn none lines) (n + 1) := by
  cases hverdict : r.verdict? with
  | some verdict =>
      rw [turn_of_verdict hverdict]
      have hended : r.verdict?.isSome := by rw [hverdict]; rfl
      have hnot : r.verdict? ≠ none := Option.isSome_iff_ne_none.mp hended
      refine ⟨fun hn => absurd hn hnot, fun hn => absurd hn hnot,
        fun hn => absurd hn hnot, fun _ => ?_⟩
      exact Nat.lt_succ_of_lt (h.early hended)
  | none =>
      rw [turn_of_live hverdict, play_none]
      have hcompletes := settle_completes (lines r.requests) r.session
      have hnothing := settle_steps_of_verdict (lines r.requests) r.session
      constructor
      · intro hlive
        rw [verdict?_append] at hlive
        show (settle (lines r.requests) r.session.advance).2.machine.steps = n + 1
        rw [(hcompletes hlive).steps, h.steps hverdict]
      · intro hlive
        rw [verdict?_append] at hlive
        exact (hcompletes hlive).running
      · intro hlive
        rw [verdict?_append] at hlive
        exact (hcompletes hlive).finished.trans (h.unfinished hverdict)
      · intro hended
        rw [verdict?_append] at hended
        show (settle (lines r.requests) r.session.advance).2.machine.steps < n + 1
        rw [hnothing hended, h.steps hverdict]
        exact Nat.lt_succ_self n

theorem after (grid : Grid) (source : Random.Source) (n : Nat) :
    Paced (Reference.after none lines (Session.start grid source) n) n := by
  induction n with
  | zero => exact ⟨fun _ => rfl, fun _ => rfl, fun _ => rfl, fun h => by cases h⟩
  | succ n ih =>
      rw [after_succ]
      exact ih.turn

end Paced

theorem steps_le_turn :
    r.session.machine.steps ≤ (r.turn none lines).session.machine.steps := by
  cases hverdict : r.verdict? with
  | some verdict => rw [turn_of_verdict hverdict]
  | none =>
      rw [turn_of_live hverdict, play_none]
      cases hround : (settle (lines r.requests) r.session.advance).1.verdict? with
      | none =>
          rw [(settle_completes _ _ hround).steps]
          exact Nat.le_succ _
      | some verdict =>
          rw [settle_steps_of_verdict _ _ (by rw [hround]; rfl)]

theorem steps_le_after (s : Session) {n k : Nat} (hle : n ≤ k) :
    (after none lines s n).session.machine.steps ≤
      (after none lines s k).session.machine.steps := by
  induction k, hle using Nat.le_induction with
  | base => exact Nat.le_refl _
  | succ k hle ih =>
      rw [after_succ]
      exact ih.trans steps_le_turn

section Limited

variable (grid : Grid) (source : Random.Source) {m : Nat}

/-- Until the limit is reached it makes no difference. -/
theorem after_limit {j : Nat} (hle : j ≤ m) :
    after (some m) lines (Session.start grid source) j =
      after none lines (Session.start grid source) j := by
  induction j with
  | zero => rfl
  | succ j ih =>
      rw [after_succ, after_succ, ih (Nat.le_of_succ_le hle)]
      have hpaced : Paced (after none lines (Session.start grid source) j) j :=
        Paced.after grid source j
      generalize after none lines (Session.start grid source) j = r at hpaced ⊢
      cases hverdict : r.verdict? with
      | some verdict => rw [turn_of_verdict hverdict, turn_of_verdict hverdict]
      | none =>
          have hlt : r.session.machine.steps < m := by
            rw [hpaced.steps hverdict]
            exact hle
          rw [turn_of_live hverdict, turn_of_live hverdict, play_of_lt hlt]

/-- A run that has ended before the limit is reached has ended the same way. -/
theorem after_limit_of_verdict
    (h : (after none lines (Session.start grid source) m).verdict?.isSome) :
    after (some m) lines (Session.start grid source) (m + 1) =
      after none lines (Session.start grid source) m := by
  rw [← after_limit grid source (Nat.le_refl m)] at h ⊢
  exact after_of_verdict h (Nat.le_succ m)

/-- A run that has ended at any time, with fewer instructions completed than the
limit allows, had done so when the limit was reached. -/
theorem verdict?_of_steps_lt {n : Nat}
    (hended : (after none lines (Session.start grid source) n).verdict?.isSome)
    (hsteps :
      (after none lines (Session.start grid source) n).session.machine.steps < m) :
    (after none lines (Session.start grid source) m).verdict?.isSome ∧
      after none lines (Session.start grid source) m =
        after none lines (Session.start grid source) n := by
  rcases Nat.le_total n m with hle | hle
  · have heq := after_of_verdict hended hle
    exact ⟨by rw [heq]; exact hended, heq⟩
  · have hmono : (after none lines _ m).session.machine.steps ≤ _ :=
      steps_le_after (Session.start grid source) hle
    cases hverdict :
        (after none lines (Session.start grid source) m).verdict? with
    | some verdict =>
        exact ⟨rfl, (after_of_verdict (by rw [hverdict]; rfl) hle).symm⟩
    | none =>
        rw [(Paced.after grid source m).steps hverdict] at hmono
        omega

/-- A run that goes on when the limit is reached is stopped in the next round. -/
theorem after_limit_of_live
    (h : (after none lines (Session.start grid source) m).verdict? = none) :
    let free := after none lines (Session.start grid source) m
    let capped := after (some m) lines (Session.start grid source) (m + 1)
    capped.rounds = free.rounds ++ [.ended .interrupted] ∧
      capped.session.machine =
        { free.session.machine with
          status := .interrupted
          interruptRequested := true } := by
  intro free capped
  have hpaced : Paced free m := Paced.after grid source m
  have hlive : free.verdict? = none := h
  have hle : m ≤ free.session.machine.steps := by rw [hpaced.steps hlive]
  have hcapped : capped = free.turn (some m) lines := by
    show after (some m) lines (Session.start grid source) (m + 1) = _
    rw [after_succ, after_limit grid source (Nat.le_refl m)]
  have hstop := free.session.advance_interrupt (hpaced.running hlive)
  rw [hcapped, turn_of_live hlive, play_of_le hle (hpaced.unfinished hlive)]
  rcases hadvance : free.session.interrupt.advance with ⟨outcome, s⟩
  rw [hadvance] at hstop
  obtain ⟨houtcome, hmachine⟩ := hstop
  simp only at houtcome
  subst houtcome
  exact ⟨rfl, hmachine⟩

theorem verdict?_limit_of_live
    (h : (after none lines (Session.start grid source) m).verdict? = none) :
    (after (some m) lines (Session.start grid source) (m + 1)).verdict? =
      some (.ok .interrupted) := by
  rw [verdict?, (after_limit_of_live grid source h).1, List.getLast?_concat]
  rfl

theorem isSome_verdict?_limit :
    (after (some m) lines (Session.start grid source) (m + 1)).verdict?.isSome := by
  cases hverdict :
      (after none lines (Session.start grid source) m).verdict? with
  | some verdict =>
      rw [after_limit_of_verdict grid source (by rw [hverdict]; rfl), hverdict]
      rfl
  | none =>
      rw [verdict?_limit_of_live grid source hverdict]
      rfl

end Limited

end Reference

/-! ## The drive -/

/-- A run on a fresh session with unlimited room, after a number of rounds. -/
def Drive.fresh (grid : Grid) (source : Random.Source) (input : List UInt8)
    (limit : Option Nat) (n : Nat) : Drive :=
  turns n (start (Session.start grid source) input none limit)

namespace Mirrors

theorem fresh (grid : Grid) (source : Random.Source) (input : List UInt8)
    (limit : Option Nat) (n : Nat) :
    Mirrors input limit (Drive.fresh grid source input limit n)
      (Reference.after limit (nthLine? input) (Session.start grid source) n) :=
  (Mirrors.start _ input limit).turns n

variable {input : List UInt8} {l₁ l₂ : Option Nat} {d₁ d₂ : Drive}
  {r₁ r₂ : Reference}

theorem sink_eq (h₁ : Mirrors input l₁ d₁ r₁) (h₂ : Mirrors input l₂ d₂ r₂)
    (h : r₁.rounds.flatMap Round.written = r₂.rounds.flatMap Round.written) :
    d₁.sink = d₂.sink := by
  have hbytes : d₁.sink.bytes = d₂.sink.bytes := by
    rw [← Array.toList_inj, h₁.written, h₂.written, h]
  have hcapacity : d₁.sink.capacity = d₂.sink.capacity := by
    rw [h₁.unlimited, h₂.unlimited]
  calc d₁.sink = ⟨d₁.sink.capacity, d₁.sink.bytes⟩ := rfl
    _ = ⟨d₂.sink.capacity, d₂.sink.bytes⟩ := by rw [hbytes, hcapacity]
    _ = d₂.sink := rfl

theorem input_eq (h₁ : Mirrors input l₁ d₁ r₁) (h₂ : Mirrors input l₂ d₂ r₂)
    (h : r₁.requests = r₂.requests) : d₁.input = d₂.input := by
  rw [h₁.input, h₂.input, h]

end Mirrors

namespace Drive

variable (grid : Grid) (source : Random.Source) (input : List UInt8)

theorem isSome_result_limit (m : Nat) :
    (Drive.fresh grid source input (some m) (m + 1)).result.isSome := by
  rw [(Mirrors.fresh grid source input (some m) (m + 1)).result]
  exact Reference.isSome_verdict?_limit grid source

/-- A run with a limit has used its streams, when it has ended, as the run without
one has when it comes to the limit. -/
theorem streams_of_limit (m : Nat) :
    (Drive.fresh grid source input (some m) (m + 1)).sink =
        (Drive.fresh grid source input none m).sink ∧
      (Drive.fresh grid source input (some m) (m + 1)).input =
        (Drive.fresh grid source input none m).input := by
  have hcapped := Mirrors.fresh grid source input (some m) (m + 1)
  have hfree := Mirrors.fresh grid source input none m
  cases hverdict : (Reference.after none (nthLine? input)
      (Session.start grid source) m).verdict? with
  | some verdict =>
      rw [Reference.after_limit_of_verdict grid source (by rw [hverdict]; rfl)]
        at hcapped
      exact ⟨hcapped.sink_eq hfree rfl, hcapped.input_eq hfree rfl⟩
  | none =>
      obtain ⟨hrounds, -⟩ := Reference.after_limit_of_live grid source hverdict
      refine ⟨hcapped.sink_eq hfree ?_, hcapped.input_eq hfree ?_⟩
      · rw [hrounds, List.flatMap_append, List.flatMap_singleton]
        exact List.append_nil _
      · rw [Reference.requests, hrounds, List.countP_append]
        rfl

variable {grid source input} {m : Nat}

/-- A run that ends with fewer instructions completed than the limit allows never
meets the limit. -/
theorem limit_of_early {n : Nat}
    (hended : (Drive.fresh grid source input none n).result.isSome)
    (hsteps : (Drive.fresh grid source input none n).session.machine.steps < m) :
    let free := Drive.fresh grid source input none n
    let capped := Drive.fresh grid source input (some m) (m + 1)
    capped.result = free.result ∧ capped.session = free.session ∧
      capped.sink = free.sink ∧ capped.input = free.input := by
  intro free capped
  have hfree := Mirrors.fresh grid source input none n
  have hcapped := Mirrors.fresh grid source input (some m) (m + 1)
  rw [hfree.result] at hended
  rw [hfree.session] at hsteps
  obtain ⟨hverdict, heq⟩ :=
    Reference.verdict?_of_steps_lt grid source hended hsteps
  rw [Reference.after_limit_of_verdict grid source hverdict, heq] at hcapped
  exact ⟨hcapped.result.trans hfree.result.symm,
    hcapped.session.trans hfree.session.symm,
    hcapped.sink_eq hfree rfl, hcapped.input_eq hfree rfl⟩

/-- A run is still going on when the limit is reached just if it does not end
before. -/
theorem result_eq_none_iff :
    (Drive.fresh grid source input none m).result = none ↔
      ∀ n, (Drive.fresh grid source input none n).result.isSome →
        m ≤ (Drive.fresh grid source input none n).session.machine.steps := by
  have hfree := Mirrors.fresh grid source input none
  rw [(hfree m).result]
  constructor
  · intro hlive n hended
    rw [(hfree n).result] at hended
    rw [(hfree n).session]
    by_contra hsteps
    obtain ⟨hverdict, -⟩ := Reference.verdict?_of_steps_lt grid source hended
      (Nat.lt_of_not_le hsteps)
    rw [hlive] at hverdict
    cases hverdict
  · intro hlong
    by_contra hverdict
    have hended := Option.isSome_iff_ne_none.mpr hverdict
    have hle := hlong m (by rw [(hfree m).result]; exact hended)
    have hlt := (Reference.Paced.after grid source m).early hended
    rw [(hfree m).session] at hle
    omega

/-- A run that goes on for long enough is interrupted where its limit is. -/
theorem limit_of_long
    (hlong : ∀ n, (Drive.fresh grid source input none n).result.isSome →
      m ≤ (Drive.fresh grid source input none n).session.machine.steps) :
    let free := Drive.fresh grid source input none m
    let capped := Drive.fresh grid source input (some m) (m + 1)
    free.result = none ∧ free.session.machine.steps = m ∧
      capped.result = some (.ok .interrupted) ∧
      capped.session.machine =
        { free.session.machine with
          status := .interrupted
          interruptRequested := true } := by
  intro free capped
  have hfree := Mirrors.fresh grid source input none m
  have hcapped := Mirrors.fresh grid source input (some m) (m + 1)
  have hresult : free.result = none := result_eq_none_iff.mpr hlong
  have hlive : (Reference.after none (nthLine? input)
      (Session.start grid source) m).verdict? = none :=
    hfree.result.symm.trans hresult
  obtain ⟨-, hmachine⟩ := Reference.after_limit_of_live grid source hlive
  refine ⟨hresult, ?_, ?_, ?_⟩
  · rw [hfree.session]
    exact (Reference.Paced.after grid source m).steps hlive
  · rw [hcapped.result]
    exact Reference.verdict?_limit_of_live grid source hlive
  · rw [hcapped.session, hmachine, hfree.session]

theorem printed_prefix {m' : Nat} (hle : m ≤ m') :
    (Drive.fresh grid source input none m).sink.bytes.toList <+:
      (Drive.fresh grid source input none m').sink.bytes.toList := by
  rw [(Mirrors.fresh grid source input none m).written,
    (Mirrors.fresh grid source input none m').written]
  exact List.IsPrefix.flatMap (Reference.rounds_prefix_after _ hle) Round.written

/-- A limit only cuts a run short. The run ends within one round more than the
limit. If the run without a limit ends with fewer instructions completed, the two
are the same. If it does not, it goes on until that many are completed, and the
run with the limit is interrupted there: all that it has printed, read and done is
what the other has by then. So a higher limit can only add to what is printed. -/
theorem limit_only_cuts_short (grid : Grid) (source : Random.Source)
    (input : List UInt8) (m : Nat) :
    let free := Drive.fresh grid source input none
    let capped := fun m => Drive.fresh grid source input (some m) (m + 1)
    (capped m).result.isSome ∧
      (∀ n, (free n).result.isSome → (free n).session.machine.steps < m →
        (capped m).result = (free n).result ∧
          (capped m).session = (free n).session ∧
          (capped m).sink = (free n).sink ∧
          (capped m).input = (free n).input) ∧
      ((∀ n, (free n).result.isSome → m ≤ (free n).session.machine.steps) →
        (free m).result = none ∧
          (free m).session.machine.steps = m ∧
          (capped m).result = some (.ok .interrupted) ∧
          (capped m).sink = (free m).sink ∧
          (capped m).input = (free m).input ∧
          (capped m).session.machine =
            { (free m).session.machine with
              status := .interrupted
              interruptRequested := true }) ∧
      ∀ m', m ≤ m' →
        (capped m).sink.bytes.toList <+: (capped m').sink.bytes.toList := by
  intro free capped
  have hstreams : ∀ m, (capped m).sink = (free m).sink ∧
      (capped m).input = (free m).input :=
    streams_of_limit grid source input
  refine ⟨isSome_result_limit grid source input m, ?_, ?_, ?_⟩
  · intro n hended hsteps
    exact limit_of_early hended hsteps
  · intro hlong
    obtain ⟨hresult, hsteps, hcapped, hmachine⟩ := limit_of_long hlong
    exact ⟨hresult, hsteps, hcapped, (hstreams m).1, (hstreams m).2, hmachine⟩
  · intro m' hle
    rw [(hstreams m).1, (hstreams m').1]
    exact printed_prefix hle

/-- A program that prints one character of its input and ends, with a limit that it
does not meet and with one that it meets just before its end. -/
theorem limit_only_cuts_short_echo :
    let grid := Grid.ofLines [['~', ',', '@']]
    let free := Drive.fresh grid (.seeded 0) [97] none
    let capped := fun m => Drive.fresh grid (.seeded 0) [97] (some m) (m + 1)
    ((free 3).result.isSome ∧ (free 3).session.machine.steps < 3 ∧
        (capped 3).result = (free 3).result) ∧
      (∀ n, (free n).result.isSome → 2 ≤ (free n).session.machine.steps) ∧
        (capped 2).result = some (.ok .interrupted) := by
  intro grid free capped
  have hended : (free 3).result.isSome := by decide +kernel
  have hsteps : (free 3).session.machine.steps < 3 := by decide +kernel
  have hlive : (free 2).result.isNone := by decide +kernel
  have hlong : ∀ n, (free n).result.isSome →
      2 ≤ (free n).session.machine.steps :=
    result_eq_none_iff.mp (Option.isNone_iff_eq_none.mp hlive)
  have hthree := limit_only_cuts_short grid (.seeded 0) [97] 3
  have htwo := limit_only_cuts_short grid (.seeded 0) [97] 2
  exact ⟨⟨hended, hsteps, (hthree.2.1 3 hended hsteps).1⟩,
    hlong, (htwo.2.2.1 hlong).2.2.1⟩

end Drive

end Headless

end Funge93
