import Funge93.Proofs.Limit

/-!
# What the log holds

The log is a window on the numbers that a run has printed and the lines that it has
read, its exchanges, and it has one more line when the end of the run has been noted.
While a run goes on its log holds exactly its last exchanges, as many as the window
has room for. The note of the end takes a place in the window like any other line, so
from then on there is room for one exchange less.
-/

namespace Funge93

/-! ## The lines of the log -/

/-- Whether a line of the log says what was printed or read. -/
def isExchange (line : String) : Bool :=
  "Output(".toList.isPrefixOf line.toList || "Input(".toList.isPrefixOf line.toList

theorem isExchange_printedInteger (n : Word) :
    isExchange (Event.printedInteger n).text = true := by
  have hstart : "Output(int): ".toList = "Output(".toList ++ "int): ".toList := by
    decide +kernel
  have htext : (Event.printedInteger n).text.toList =
      "Output(int): ".toList ++ (Text.decimal n.toInt).toList := String.toList_append
  refine Bool.or_eq_true_iff.mpr (.inl (List.isPrefixOf_iff_prefix.mpr ?_))
  rw [htext, hstart, List.append_assoc]
  exact List.prefix_append _ _

/-- The line of the log that says what a line was read as. -/
def inputLine (input : Input) (line : String) : String :=
  "Input(" ++ input.label ++ ") = " ++ Text.decimal (input.read line).toInt

theorem isExchange_inputLine (input : Input) (line : String) :
    isExchange (inputLine input line) = true := by
  refine Bool.or_eq_true_iff.mpr (.inr (List.isPrefixOf_iff_prefix.mpr ?_))
  rw [inputLine, String.toList_append, String.toList_append, String.toList_append,
    List.append_assoc, List.append_assoc]
  exact List.prefix_append _ _

theorem lastOf_of_length_le {n : Nat} {xs : List α} (h : xs.length ≤ n) :
    lastOf n xs = xs := by
  rw [lastOf, Nat.sub_eq_zero_of_le h, List.drop_zero]

/-- A window that a line is added to has room for one less of the lines before. -/
theorem lastOf_concat (n : Nat) (xs : List α) (x : α) :
    lastOf (n + 1) (xs ++ [x]) = lastOf n xs ++ [x] := by
  rw [lastOf, lastOf, List.length_append, List.length_singleton, Nat.add_sub_add_right,
    List.drop_append_of_le_length (Nat.sub_le _ _)]

theorem mem_of_mem_lastOf {n : Nat} {xs : List α} {x : α} (h : x ∈ lastOf n xs) : x ∈ xs :=
  List.mem_of_mem_drop h

namespace Session

/-- The lines in the log that say what was printed or read. -/
def exchanges (s : Session) : List String :=
  s.log.toList.filter isExchange

/-- An attempt that completes nothing notes the end of the run if it has come. -/
theorem log_advance_of_suspended (s : Session) (hopen : s.finished = false)
    (h : s.advance.1.isCompletion = false) :
    if s.advance.2.finished then
      ∃ line, isExchange line = false ∧ s.advance.2.log = s.log.push line
    else s.advance.2.log = s.log := by
  have hfinished := s.finished_advance
  rw [hopen, Bool.false_or] at hfinished
  have hadvance : s.advance.2 =
      ({ s with machine := (s.machine.step s.source).machine,
                source := (s.machine.step s.source).source } : Session).note
        s.advance.1 := rfl
  rw [hfinished, hadvance]
  cases houtcome : s.advance.1 with
  | did event =>
      rw [houtcome] at h
      cases h
  | awaits input => exact rfl
  | halted =>
      refine ⟨"Halted.", by decide +kernel, ?_⟩
      simp only [note, noteEnd, hopen, Bool.false_eq_true, if_false]
  | interrupted =>
      refine ⟨"Interrupted (Ctrl+C).", by decide +kernel, ?_⟩
      simp only [note, noteEnd, hopen, Bool.false_eq_true, if_false]

end Session

namespace Headless

/-! ## The exchanges of a run -/

/-- What the log says of a round that goes on, if it says anything. -/
def Round.exchange? : Round → Option String
  | completed (.printedInteger n) => some (Event.printedInteger n).text
  | answered input line => some (inputLine input line)
  | _ => none

theorem Round.isExchange_of_exchange? {round : Round} {line : String}
    (h : round.exchange? = some line) : isExchange line = true := by
  cases round with
  | completed event =>
      cases event with
      | printedInteger n =>
          cases h
          exact isExchange_printedInteger n
      | _ => cases h
  | answered input line =>
      cases h
      exact isExchange_inputLine input line
  | unreadable input => cases h
  | refused error => cases h
  | ended outcome => cases h

/-- A round that goes on notes its exchange and nothing else. -/
theorem settle_log (due : Option String) (s : Session)
    (h : (settle due s.advance).1.verdict? = none) :
    (settle due s.advance).2.log =
      (settle due s.advance).1.exchange?.elim s.log s.log.push := by
  have hstatus := s.status_advance
  have hlog : s.advance.2.log =
      (({ s with machine := (s.machine.step s.source).machine,
                 source := (s.machine.step s.source).source } : Session).note
        s.advance.1).log := rfl
  rcases hadvance : s.advance with ⟨outcome, s'⟩
  rw [hadvance] at h hstatus hlog
  cases outcome with
  | did event =>
      cases event <;> exact hlog
  | halted => cases h
  | interrupted => cases h
  | awaits input =>
      simp only [settle] at h ⊢
      cases due with
      | none => cases h
      | some line =>
          simp only [s'.supply_of_awaiting hstatus line]
          show s'.log.push _ = s.log.push _
          rw [hlog]
          rfl

namespace Reference

/-- The exchanges of a run so far, the oldest first. -/
def exchanges (r : Reference) : List String :=
  r.rounds.filterMap Round.exchange?

theorem isExchange_of_mem {r : Reference} {line : String} (h : line ∈ r.exchanges) :
    isExchange line = true := by
  obtain ⟨round, -, hround⟩ := List.mem_filterMap.mp h
  exact Round.isExchange_of_exchange? hround

/-- The log of a run that goes on shows its last exchanges. -/
structure Logged (r : Reference) : Prop where
  capacity : r.verdict? = none → r.session.log.capacity = Session.logCapacity
  shown : r.verdict? = none →
    r.session.log.toList = lastOf Session.logCapacity r.exchanges

namespace Logged

variable {r : Reference} {lines : Nat → Option String}

theorem start (grid : Grid) (source : Random.Source) :
    Logged ⟨Session.start grid source, []⟩ :=
  ⟨fun _ => rfl, fun _ => rfl⟩

theorem turn (h : Logged r) : Logged (r.turn none lines) := by
  cases hverdict : r.verdict? with
  | some verdict =>
      rw [turn_of_verdict hverdict]
      exact h
  | none =>
      rw [turn_of_live hverdict, play_none]
      have hcapacity := h.capacity hverdict
      have hshown := h.shown hverdict
      have hsettle := settle_log (lines r.requests) r.session
      generalize settle (lines r.requests) r.session.advance = settled at hsettle ⊢
      obtain ⟨round, s⟩ := settled
      simp only [] at hsettle
      constructor <;> intro hlive <;> rw [verdict?_append] at hlive
      · show s.log.capacity = _
        rw [hsettle hlive]
        cases round.exchange? <;> exact hcapacity
      · show s.log.toList = lastOf _ ((r.rounds ++ [round]).filterMap Round.exchange?)
        rw [hsettle hlive, List.filterMap_append]
        cases hexchange : round.exchange? with
        | none =>
            rw [List.filterMap_cons_none hexchange, List.filterMap_nil, List.append_nil]
            exact hshown
        | some line =>
            rw [List.filterMap_cons_some hexchange, List.filterMap_nil, Option.elim_some,
              Log.toList_push, hcapacity, hshown, lastOf_append]
            rfl

theorem after (grid : Grid) (source : Random.Source) (n : Nat) :
    Logged (Reference.after none lines (Session.start grid source) n) := by
  induction n with
  | zero => exact start grid source
  | succ n ih =>
      rw [after_succ]
      exact ih.turn

theorem exchanges (h : Logged r) (hlive : r.verdict? = none) :
    r.session.exchanges = lastOf Session.logCapacity r.exchanges := by
  rw [Session.exchanges, h.shown hlive, List.filter_eq_self]
  intro line hmem
  exact isExchange_of_mem (mem_of_mem_lastOf hmem)

/-- The attempt that ends the run leaves room for one exchange less. -/
theorem exchanges_advance (h : Logged r) (hlive : r.verdict? = none)
    (hopen : r.session.finished = false)
    (hsuspended : r.session.advance.1.isCompletion = false) :
    r.session.advance.2.exchanges =
      lastOf (Session.logCapacity - if r.session.advance.2.finished then 1 else 0)
        r.exchanges := by
  have hlog := r.session.log_advance_of_suspended hopen hsuspended
  cases hfinished : r.session.advance.2.finished with
  | false =>
      rw [hfinished, if_neg Bool.false_ne_true] at hlog
      rw [Session.exchanges, hlog]
      exact h.exchanges hlive
  | true =>
      rw [hfinished, if_pos rfl] at hlog
      obtain ⟨line, hline, hlog⟩ := hlog
      have hroom : lastOf Session.logCapacity (r.exchanges ++ [line]) =
          lastOf (Session.logCapacity - 1) r.exchanges ++ [line] :=
        lastOf_concat (Session.logCapacity - 1) r.exchanges line
      rw [Session.exchanges, hlog, Log.toList_push, h.capacity hlive, h.shown hlive,
        lastOf_append, hroom, List.filter_append, List.filter_singleton, hline,
        cond_false, List.append_nil, if_pos rfl, List.filter_eq_self]
      intro line hmem
      exact isExchange_of_mem (mem_of_mem_lastOf hmem)

end Logged

end Reference

end Headless

end Funge93
