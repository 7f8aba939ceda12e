import Funge93.Proofs.FullSink

/-!
# Lines that are no text

Not every line of an input is text. A run notices that when an instruction asks for the line
and not before, since nothing is read ahead. The run then ends, between the attempt that found
the request and the answer that there is none for. The attempt has done nothing but to set the
status, so the session is left as it stood when the request was made. Whatever was printed
before had been put into the sink already, and every request before has had its answer.

Bytes that no instruction asks for are never looked at. A run depends on the lines of its
requests and on nothing else of its input, so it is the same run on any input that has the
same lines up to there (`turns_withInput`).

What a round can come to is said once, as an inversion (`Turned`). All that is counted or put
together over a run, its requests and its prints, is counted round by round along with it.
-/

namespace Funge93

/-- The character of the instruction that asks for an input. -/
def Input.glyph : Input → Char
  | integer => '&'
  | character => '~'

theorem Input.cell_eq_glyph {input : Input} {c : Char}
    (h : Instruction.ofChar c = .ask input) : c = input.glyph := by
  cases input with
  | integer => exact Instruction.eq_of_ofChar_eq h rfl
  | character => exact Instruction.eq_of_ofChar_eq h rfl

namespace Headless

/-- Whether the line with a number is no text. -/
def Unreadable (input : List UInt8) (i : Nat) : Prop :=
  Text.ofBytes? ((input.splitOn 10).getD i []) = none

theorem nthLine?_eq_none_iff {input : List UInt8} {i : Nat} :
    nthLine? input i = none ↔ Unreadable input i := by
  rw [nthLine?, lineText?, Option.map_eq_none_iff]
  rfl

theorem Sink.toList_take_of_fits {sink : Sink} {bytes : List UInt8}
    (h : sink.fits bytes = true) :
    (sink.take bytes).bytes.toList = sink.bytes.toList ++ bytes := by
  obtain ⟨capacity, taken⟩ := sink
  cases capacity with
  | none => exact toList_take_unlimited
  | some n =>
      have hroom : taken.size + bytes.length ≤ n := of_decide_eq_true h
      simp only [take, List.take_of_length_le (show bytes.length ≤ n - taken.size by omega)]
      exact Array.toList_appendList

theorem status_of_attempt {limit : Option Nat} {s s' : Session} {outcome : Outcome}
    (h : attempt limit s = (outcome, s')) (hgoes : outcome.isFinal = false) :
    s'.machine.status = outcome.status ∧ s'.finished = s.finished := by
  have hstatus := s.status_advance
  have hfinished := s.finished_advance
  rw [advance_of_attempt h hgoes] at hstatus hfinished
  refine ⟨hstatus, ?_⟩
  rw [hfinished, hgoes, Bool.or_false]

namespace Drive

/-! ## One round -/

/-- What one round of a run can come to. -/
inductive Turned (d : Drive) : Drive → Prop where
  | still {verdict : Except Failure Outcome} (h : d.result = some verdict) : Turned d d
  -- The sink is told by its bytes here, so that an instruction need not print.
  | completed {event : Event} {s : Session} {sink : Sink} (live : d.result = none)
      (h : attempt d.limit d.session = (.did event, s))
      (hsink : sink.bytes.toList = d.sink.bytes.toList ++ (Round.completed event).written) :
      Turned d { d with session := s, sink := sink }
  | full {event : Event} {s : Session} (live : d.result = none)
      (h : attempt d.limit d.session = (.did event, s))
      (hfits : d.sink.fits (Round.completed event).written = false) :
      Turned d
        { d with
          session := s
          sink := d.sink.take (Round.completed event).written
          result := some (.error (.io .noRoom)) }
  | answered {input : Input} {s s' : Session} {line : String} (live : d.result = none)
      (h : attempt d.limit d.session = (.awaits input, s)) (hline : line? d.input = some line)
      (hsupply : s.supply line = (.ok (.did (.pushed (input.read line))), s')) :
      Turned d { d with session := s', input := afterLine d.input }
  | unreadable {input : Input} {s : Session} (live : d.result = none)
      (h : attempt d.limit d.session = (.awaits input, s)) (hline : line? d.input = none) :
      Turned d
        { d with
          session := s
          input := afterLine d.input
          result := some (.error (.io .notText)) }
  | ended {outcome : Outcome} {s : Session} (live : d.result = none)
      (h : attempt d.limit d.session = (outcome, s)) (hfinal : outcome.isFinal = true) :
      Turned d { d with session := s, result := some (.ok outcome) }

variable {d d' : Drive}

theorem turned_print {event : Event} {s : Session} (live : d.result = none)
    (h : attempt d.limit d.session = (.did event, s)) {text : String}
    (htext : Text.toBytes text = (Round.completed event).written) :
    d.Turned ({ d with session := s }.print text) := by
  simp only [print, htext]
  cases hfits : d.sink.fits (Round.completed event).written with
  | true => exact .completed live h (Sink.toList_take_of_fits hfits)
  | false => exact .full live h hfits

theorem turned (d : Drive) : d.Turned d.turn := by
  cases live : d.result with
  | some verdict =>
      rw [turn_of_result live]
      exact .still live
  | none =>
      rw [turn_of_live live]
      rcases h : attempt d.limit d.session with ⟨outcome, s⟩
      cases outcome with
      | did event =>
          cases event with
          | printedCharacter c => exact turned_print live h (toBytes_singleton c)
          | printedInteger n => exact turned_print live h (toBytes_append _ _)
          | _ => exact .completed live h (List.append_nil _).symm
      | awaits input =>
          obtain ⟨hstatus, -⟩ := status_of_attempt h rfl
          simp only [react, Reaction.ofOutcome, read, supplyLine]
          cases hline : line? d.input with
          | none => exact .unreadable live h hline
          | some line =>
              have hsupply := s.supply_of_awaiting hstatus line
              simp only [hsupply]
              exact .answered live h hline hsupply
      | halted => exact .ended live h rfl
      | interrupted => exact .ended live h rfl

/-- The request that the next round finds, if it finds one. -/
def asks? (d : Drive) : Option Input :=
  match d.result with
  | some _ => none
  | none => (attempt d.limit d.session).1.status.awaited?

/-- The bytes that the next round has to print. -/
def due (d : Drive) : List UInt8 :=
  match d.result with
  | some _ => []
  | none =>
    match (attempt d.limit d.session).1 with
    | .did event => (Round.completed event).written
    | _ => []

theorem asks?_of_result {verdict : Except Failure Outcome} (h : d.result = some verdict) :
    d.asks? = none := by
  rw [asks?, h]

theorem asks?_of_live {outcome : Outcome} {s : Session} (live : d.result = none)
    (h : attempt d.limit d.session = (outcome, s)) : d.asks? = outcome.status.awaited? := by
  rw [asks?, live, h]

theorem attempt_of_asks? {input : Input} (h : d.asks? = some input) :
    d.result = none ∧ ∃ s, attempt d.limit d.session = (.awaits input, s) := by
  cases live : d.result with
  | some verdict =>
      rw [asks?_of_result live] at h
      cases h
  | none =>
      rcases hattempt : attempt d.limit d.session with ⟨outcome, s⟩
      rw [asks?_of_live live hattempt] at h
      cases outcome with
      | awaits input' =>
          cases h
          exact ⟨rfl, s, rfl⟩
      | _ => cases h

namespace Turned

theorem input (h : d.Turned d') :
    d'.input = if d.asks?.isSome then afterLine d.input else d.input := by
  cases h with
  | still h => rw [asks?_of_result h]; rfl
  | completed live h hsink => rw [asks?_of_live live h]; rfl
  | full live h hfits => rw [asks?_of_live live h]; rfl
  | answered live h hline hsupply => rw [asks?_of_live live h]; rfl
  | unreadable live h hline => rw [asks?_of_live live h]; rfl
  | @ended outcome s live h hfinal =>
      rw [asks?_of_live live h]
      cases outcome with
      | awaits input => cases hfinal
      | _ => rfl

/-- What a round prints finds room if the run goes on. -/
theorem printed (h : d.Turned d') (goes : d'.result = none) :
    d'.sink.bytes.toList = d.sink.bytes.toList ++ d.due := by
  cases h with
  | still h => cases h.symm.trans goes
  | completed live h hsink =>
      rw [due, live, h]
      exact hsink
  | full live h hfits => cases goes
  | answered live h hline hsupply =>
      rw [due, live, h]
      exact (List.append_nil _).symm
  | unreadable live h hline => cases goes
  | ended live h hfinal => cases goes

/-- A request is answered by the line that is next, or ends the run if that is no text. -/
theorem of_asks (h : d.Turned d') {input : Input} (hasks : d.asks? = some input) :
    (∃ line s, line? d.input = some line ∧ attempt d.limit d.session = (.awaits input, s) ∧
      s.supply line = (.ok (.did (.pushed (input.read line))), d'.session)) ∨
    (line? d.input = none ∧ ∃ s, attempt d.limit d.session = (.awaits input, s) ∧
      d' = { d with
        session := s
        input := afterLine d.input
        result := some (.error (.io .notText)) }) := by
  obtain ⟨hlive, s, hattempt⟩ := attempt_of_asks? hasks
  cases h with
  | still h => cases h.symm.trans hlive
  | completed live h hsink => cases hattempt.symm.trans h
  | full live h hfits => cases hattempt.symm.trans h
  | answered live h hline hsupply =>
      cases hattempt.symm.trans h
      exact .inl ⟨_, s, hline, hattempt, hsupply⟩
  | unreadable live h hline =>
      cases hattempt.symm.trans h
      exact .inr ⟨hline, s, hattempt, rfl⟩
  | ended live h hfinal =>
      cases hattempt.symm.trans h
      cases hfinal

theorem asks_of_notText (h : d.Turned d') (live : d.result = none)
    (hresult : d'.result = some (.error (.io .notText))) :
    line? d.input = none ∧ ∃ input, d.asks? = some input := by
  cases h with
  | still h => cases h.symm.trans live
  | completed _ h hsink => cases live.symm.trans hresult
  | full _ h hfits => cases hresult
  | answered _ h hline hsupply => cases live.symm.trans hresult
  | @unreadable input s _ h hline => exact ⟨hline, input, asks?_of_live live h⟩
  | ended _ h hfinal => cases hresult

end Turned

/-- What holds of a run from its beginning until it ends. -/
structure Underway (d : Drive) : Prop where
  running : d.session.machine.status = .running
  unfinished : d.session.finished = false

theorem Turned.underway (h : d.Turned d') (hd : d.Underway) (goes : d'.result = none) :
    d'.Underway := by
  cases h with
  | still h => exact hd
  | completed live h hsink =>
      obtain ⟨hstatus, hfinished⟩ := status_of_attempt h rfl
      exact ⟨hstatus, hfinished.trans hd.unfinished⟩
  | full live h hfits => cases goes
  | @answered input s s' line live h hline hsupply =>
      obtain ⟨hstatus, hfinished⟩ := status_of_attempt h rfl
      rw [s.supply_of_awaiting hstatus line] at hsupply
      cases hsupply
      exact ⟨rfl, hfinished.trans hd.unfinished⟩
  | unreadable live h hline => cases goes
  | ended live h hfinal => cases goes

/-- The session that waits for the answer to a request. The request has set the status and
nothing else, but that the place is forgotten that was written to last. -/
def waiting (d : Drive) (input : Input) : Session :=
  { d.session with
    machine := { d.session.machine with status := .awaiting input }
    lastWrite := none }

theorem session_of_asks? (hd : d.Underway) {input : Input} (h : d.asks? = some input) :
    attempt d.limit d.session = (.awaits input, d.waiting input) ∧
      d.session.advance = (.awaits input, d.waiting input) ∧
      d.session.machine.stringMode = false ∧ d.session.machine.cell = input.glyph := by
  obtain ⟨-, s, hattempt⟩ := attempt_of_asks? h
  have hadvance := advance_of_attempt hattempt rfl
  have houtcome : (d.session.machine.step d.session.source).outcome = .awaits input :=
    congrArg Prod.fst hadvance
  have hs : s = d.waiting input := by
    have hnoted : d.session.advance.2 = d.waiting input := by
      rw [Session.advance, Machine.step_of_suspended _ _ houtcome rfl]
      rfl
    rw [← hnoted, hadvance]
  obtain ⟨⟨-, -, hmode⟩, hcell⟩ := Machine.awaits_step _ _ hd.running houtcome
  subst hs
  exact ⟨hattempt, hadvance, hmode, Input.cell_eq_glyph hcell⟩

/-! ## Whole runs -/

theorem turned_turns (n : Nat) (d : Drive) : (turns n d).Turned (turns (n + 1) d) := by
  rw [turns_succ]
  exact turned _

theorem Underway.turns (hd : d.Underway) {n : Nat} (goes : (turns n d).result = none) :
    (turns n d).Underway := by
  induction n with
  | zero => exact hd
  | succ n ih =>
      exact (turned_turns n d).underway (ih (result_turns_of_le goes (Nat.le_succ n))) goes

theorem Underway.start (grid : Grid) (source : Random.Source) (input : List UInt8)
    (capacity limit : Option Nat) :
    (Drive.start (Session.start grid source) input capacity limit).Underway :=
  ⟨rfl, rfl⟩

/-- How many requests a run has made after a number of rounds. -/
def requests (n : Nat) (d : Drive) : Nat :=
  (List.range n).countP fun k => (turns k d).asks?.isSome

/-- What a run has had to print after a number of rounds, all put together. -/
def printed (n : Nat) (d : Drive) : List UInt8 :=
  (List.range n).flatMap fun k => (turns k d).due

theorem requests_succ (n : Nat) (d : Drive) :
    requests (n + 1) d = requests n d + if (turns n d).asks?.isSome then 1 else 0 := by
  rw [requests, List.range_succ, List.countP_append, List.countP_singleton]
  rfl

theorem requests_mono (d : Drive) {m n : Nat} (hle : m ≤ n) : requests m d ≤ requests n d := by
  induction n, hle using Nat.le_induction with
  | base => exact Nat.le_refl _
  | succ n hle ih =>
      rw [requests_succ]
      omega

theorem input_turns (n : Nat) (d : Drive) :
    (turns n d).input = unread d.input (requests n d) := by
  induction n with
  | zero => exact (unread_zero d.input).symm
  | succ n ih =>
      rw [(turned_turns n d).input, ih, requests_succ]
      split
      · exact afterLine_unread d.input _
      · rfl

theorem line?_turns (n : Nat) (d : Drive) :
    line? (turns n d).input = nthLine? d.input (requests n d) := by
  rw [input_turns, line?_unread]

/-- A run that goes on has put into the sink all that it had to print. -/
theorem bytes_turns {n : Nat} (goes : (turns n d).result = none) :
    (turns n d).sink.bytes.toList = d.sink.bytes.toList ++ printed n d := by
  induction n with
  | zero => exact (List.append_nil _).symm
  | succ n ih =>
      rw [(turned_turns n d).printed goes, ih (result_turns_of_le goes (Nat.le_succ n)),
        printed, printed, List.range_succ, List.flatMap_append, List.flatMap_singleton,
        List.append_assoc]

/-- A run that has ended came to its end in some round. -/
theorem exists_ending_turn {verdict : Except Failure Outcome} (live : d.result = none) {n : Nat}
    (h : (turns n d).result = some verdict) :
    ∃ k < n, (turns k d).result = none ∧ (turns (k + 1) d).result = some verdict := by
  induction n with
  | zero => cases live.symm.trans h
  | succ n ih =>
      cases hbefore : (turns n d).result with
      | none => exact ⟨n, Nat.lt_succ_self n, hbefore, h⟩
      | some verdict' =>
          have hsame : turns (n + 1) d = turns n d := by
            rw [turns_succ, turn_of_result hbefore]
          rw [hsame] at h
          obtain ⟨k, hk, hgoes, hends⟩ := ih h
          exact ⟨k, Nat.lt_succ_of_lt hk, hgoes, hends⟩

/-- A request that the run has gone on after was answered by the line with its number. -/
theorem answered_of_asks? (hd : d.Underway) {k : Nat} {i : Input}
    (hasks : (turns k d).asks? = some i) (goes : (turns (k + 1) d).result = none) :
    ∃ line, nthLine? d.input (requests k d) = some line ∧
      (turns k d).session.advance = (.awaits i, (turns k d).waiting i) ∧
      ((turns k d).waiting i).supply line =
        (.ok (.did (.pushed (i.read line))), (turns (k + 1) d).session) := by
  have hlive := result_turns_of_le goes (Nat.le_succ k)
  obtain ⟨hattempt, hadvance, -⟩ := session_of_asks? (hd.turns hlive) hasks
  rcases (turned_turns k d).of_asks hasks with ⟨line, s, hline, hs, hsupply⟩ | ⟨-, s, -, hend⟩
  · obtain ⟨-, rfl⟩ := Prod.mk.inj (hattempt.symm.trans hs)
    exact ⟨line, (line?_turns k d).symm.trans hline, hadvance, hsupply⟩
  · -- A line that is no text would have ended the run.
    rw [hend] at goes
    cases goes

/-- A request for a line that is no text ends the run, and what it leaves stays. -/
theorem turns_of_unreadable (hd : d.Underway) {k : Nat} {i : Input}
    (hasks : (turns k d).asks? = some i) (hbad : Unreadable d.input (requests k d)) {n : Nat}
    (hn : k < n) :
    turns n d = { turns k d with
      session := (turns k d).waiting i
      input := unread d.input (requests k d + 1)
      result := some (.error (.io .notText)) } := by
  have hlive := (attempt_of_asks? hasks).1
  obtain ⟨hattempt, -⟩ := session_of_asks? (hd.turns hlive) hasks
  have hdue : line? (turns k d).input = none := by
    rw [line?_turns]
    exact nthLine?_eq_none_iff.mpr hbad
  rcases (turned_turns k d).of_asks hasks with ⟨line, s, hline, -, -⟩ | ⟨-, s, hs, hend⟩
  · cases hdue.symm.trans hline
  · obtain ⟨-, rfl⟩ := Prod.mk.inj (hattempt.symm.trans hs)
    obtain ⟨more, rfl⟩ := Nat.exists_eq_add_of_lt hn
    rw [input_turns, afterLine_unread] at hend
    rw [show k + more + 1 = k + 1 + more by omega, turns_add, hend]
    exact turns_of_result rfl more

/-- Only such a request ends a run for that reason. -/
theorem exists_unreadable (live : d.result = none) {n : Nat}
    (h : (turns n d).result = some (.error (.io .notText))) :
    ∃ k < n, ∃ i, (turns k d).asks? = some i ∧ Unreadable d.input (requests k d) := by
  obtain ⟨k, hk, hgoes, hends⟩ := exists_ending_turn live h
  obtain ⟨hdue, i, hasks⟩ := (turned_turns k d).asks_of_notText hgoes hends
  rw [line?_turns] at hdue
  exact ⟨k, hk, i, hasks, nthLine?_eq_none_iff.mp hdue⟩

/-! ## Another input -/

/-- The drive with something else to read. -/
def withInput (x : List UInt8) (d : Drive) : Drive :=
  { d with input := x }

theorem react_withInput {x : List UInt8} {outcome : Outcome}
    (h : outcome.status.awaited?.isSome → line? x = line? d.input) :
    (d.withInput x).react outcome =
      (d.react outcome).withInput
        (if outcome.status.awaited?.isSome then afterLine x else x) := by
  cases outcome with
  | did event => cases event <;> rfl
  | awaits input =>
      simp only [react, Reaction.ofOutcome, read, supplyLine, withInput, h rfl]
      cases line? d.input with
      | none => rfl
      | some line =>
          simp only []
          rcases d.session.supply line with ⟨error | outcome, s⟩ <;> rfl
  | halted => rfl
  | interrupted => rfl

/-- A round is the same on any input that has the line for its request, if it makes one. -/
theorem turn_withInput {x : List UInt8} (h : d.asks?.isSome → line? x = line? d.input) :
    (d.withInput x).turn =
      d.turn.withInput (if d.asks?.isSome then afterLine x else x) := by
  cases live : d.result with
  | some verdict =>
      rw [turn_of_result live, turn_of_result (d := d.withInput x) live, asks?_of_result live]
      rfl
  | none =>
      rw [turn_of_live live, turn_of_live (d := d.withInput x) live]
      rw [asks?_of_live live rfl] at h ⊢
      exact react_withInput (d := { d with session := (attempt d.limit d.session).2 }) h

/-- A run is the same on any input that has the same lines for its requests. -/
theorem turns_withInput {x : List UInt8} {n : Nat}
    (h : ∀ i < requests n d, nthLine? x i = nthLine? d.input i) :
    turns n (d.withInput x) = (turns n d).withInput (unread x (requests n d)) := by
  induction n with
  | zero =>
      rw [show requests 0 d = 0 from rfl, unread_zero]
      rfl
  | succ n ih =>
      have hle := requests_mono d (Nat.le_succ n)
      rw [turns_succ, ih fun i hi => h i (Nat.lt_of_lt_of_le hi hle), turns_succ,
        turn_withInput, requests_succ]
      · split
        · rw [afterLine_unread]
        · rfl
      · intro hasks
        rw [line?_turns, line?_unread]
        refine h _ ?_
        rw [requests_succ, if_pos hasks]
        exact Nat.lt_succ_self _

end Drive

open Drive

/-- A line that is no text ends the run at the request for it. The attempt that made the
request has left the session waiting for the answer, and is all that has happened to it since
the round before. What was printed by then is in the sink, and every request before has got
its line. It takes such a request to end a run for that reason, and of its input a run depends
on the lines of its requests only. -/
theorem bad_line_stops_at_request (grid : Grid) (source : Random.Source) (input : List UInt8)
    (capacity limit : Option Nat) :
    let first := Drive.start (Session.start grid source) input capacity limit
    let d := fun n => turns n first
    (∀ k i, (d k).asks? = some i → Unreadable input (requests k first) →
      (d k).session.advance = (.awaits i, (d k).waiting i) ∧
        (d k).session.machine.stringMode = false ∧
        (d k).session.machine.cell = i.glyph ∧
        (d k).session.finished = false ∧
        (d k).sink.bytes.toList = printed k first ∧
        (∀ j < k, ∀ i', (d j).asks? = some i' →
          ∃ line, nthLine? input (requests j first) = some line ∧
            (d j).session.advance = (.awaits i', (d j).waiting i') ∧
            ((d j).waiting i').supply line =
              (.ok (.did (.pushed (i'.read line))), (d (j + 1)).session)) ∧
        ∀ n, k < n →
          d n = { d k with
            session := (d k).waiting i
            input := unread input (requests k first + 1)
            result := some (.error (.io .notText)) }) ∧
      (∀ n, (d n).result = some (.error (.io .notText)) →
        ∃ k < n, ∃ i, (d k).asks? = some i ∧ Unreadable input (requests k first)) ∧
      ∀ input' n, (∀ i < requests n first, nthLine? input' i = nthLine? input i) →
        turns n (Drive.start (Session.start grid source) input' capacity limit) =
          (d n).withInput (unread input' (requests n first)) := by
  intro first d
  have hfirst : first.Underway := .start grid source input capacity limit
  refine ⟨fun k i hasks hbad => ?_, fun n hresult => exists_unreadable rfl hresult,
    fun input' n hlines => turns_withInput (d := first) hlines⟩
  obtain ⟨hlive, -⟩ := attempt_of_asks? hasks
  have hunderway : (d k).Underway := hfirst.turns hlive
  obtain ⟨-, hadvance, hmode, hcell⟩ := session_of_asks? hunderway hasks
  refine ⟨hadvance, hmode, hcell, hunderway.unfinished, bytes_turns hlive, ?_, ?_⟩
  · intro j hj i' hasks'
    exact answered_of_asks? hfirst hasks' (result_turns_of_le hlive hj)
  · intro n hn
    exact turns_of_unreadable hfirst hasks hbad hn

/-- A program that reads a character, prints it and reads another one, on an input whose
second line is no text. The run is not the worse for it until it asks for that line. -/
theorem bad_line_stops_at_request_second :
    let grid := Grid.ofLines [['~', ',', '~', '@']]
    let on := fun input => Drive.start (Session.start grid (.seeded 0)) input (some 1) none
    let first := on [97, 10, 0xFF, 10]
    ((turns 2 first).asks? = some .character ∧ Unreadable [97, 10, 0xFF, 10] 1) ∧
      (∀ n, 2 < n → (turns n first).result = some (.error (.io .notText)) ∧
        (turns n first).sink.bytes.toList = [97]) ∧
      (turns 2 (on [97, 10, 98])).sink = (turns 2 first).sink := by
  intro grid on first
  have hasks : (turns 2 first).asks? = some .character := by decide +kernel
  have hrequests : requests 2 first = 1 := by decide +kernel
  have hbytes : (turns 2 first).sink.bytes.toList = [97] := by decide +kernel
  have hbad : Unreadable [97, 10, 0xFF, 10] 1 :=
    nthLine?_eq_none_iff.mp (by decide +kernel)
  have hsame : nthLine? [97, 10, 98] 0 = nthLine? [97, 10, 0xFF, 10] 0 := by decide +kernel
  -- What the run computes is settled; nothing below has to compute it again.
  clear_value grid
  obtain ⟨hstops, -, hother⟩ :=
    bad_line_stops_at_request grid (.seeded 0) [97, 10, 0xFF, 10] (some 1) none
  obtain ⟨-, -, -, -, -, -, hend⟩ := hstops 2 .character hasks (by rw [hrequests]; exact hbad)
  have hlines : ∀ i < requests 2 first,
      nthLine? [97, 10, 98] i = nthLine? [97, 10, 0xFF, 10] i := by
    intro i hi
    rw [hrequests] at hi
    obtain rfl := Nat.lt_one_iff.mp hi
    exact hsame
  have hsink := congrArg Drive.sink (hother [97, 10, 98] 2 hlines)
  refine ⟨⟨hasks, hbad⟩, fun n hn => ?_, hsink⟩
  have hlater : turns n first = _ := hend n hn
  rw [hlater]
  exact ⟨rfl, hbytes⟩

end Headless

end Funge93
