import Funge93.Headless.Drive
import Funge93.Proofs.Attempt
import Funge93.Proofs.Lines

/-!
# A run without a window, told by its rounds

The drive of a run without a window works on two streams of bytes: it takes bytes
away from one and adds bytes to the other. `Reference` is the same run told without
streams. It keeps the list of its rounds and says what each one came to. The
request with number `i`, counted over the whole run, is answered with the line
that has number `i` in the input, and the bytes that a run prints are those that
its rounds print, put together in order.

The two go through the same sessions, round for round. That is an induction on the
number of rounds, and the relation that it carries says what the streams are worth
at any moment: what has been taken from the input is as many lines as there were
requests, and what has been put into the sink is what the rounds have printed.
-/

namespace Funge93.Headless

/-! ## The reference -/

inductive Round where
  | completed (event : Event)
  | answered (input : Input) (line : String)
  /-- The attempt found a request, but the line that is due is no text. -/
  | unreadable (input : Input)
  /-- The attempt found a request, but the line was not taken. -/
  | refused (error : Machine.NotAwaiting)
  | ended (outcome : Outcome)
deriving DecidableEq

namespace Round

/-- The bytes that a round prints: a character in UTF-8, or the digits of a
number and a space. -/
def written : Round → List UInt8
  | completed (.printedCharacter c) => String.utf8EncodeChar c
  | completed (.printedInteger n) => Text.toBytes (Text.decimal n.toInt) ++ [0x20]
  | _ => []

def isRequest : Round → Bool
  | completed _ => false
  | ended _ => false
  | _ => true

def line? : Round → Option String
  | answered _ line => some line
  | _ => none

def verdict? : Round → Option (Except Failure Outcome)
  | completed _ => none
  | answered _ _ => none
  | unreadable _ => some (.error (.io .notText))
  | refused error => some (.error (.input error))
  | ended outcome => some (.ok outcome)

end Round

/-- What follows an attempt: the line that is due is supplied if the attempt
found a request. -/
def settle (due : Option String) : Outcome × Session → Round × Session
  | (.did event, s) => (.completed event, s)
  | (.awaits input, s) =>
    match due with
    | none => (.unreadable input, s)
    | some line =>
      match s.supply line with
      | (.ok _, s) => (.answered input line, s)
      | (.error error, s) => (.refused error, s)
  | (outcome, s) => (.ended outcome, s)

/-- One round: the request to stop if the limit is reached, an attempt, and what
follows it. -/
def play (limit : Option Nat) (due : Option String) (s : Session) :
    Round × Session :=
  let reached := limit.any (· ≤ s.machine.steps) && !s.finished
  settle due (if reached then s.interrupt else s).advance

structure Reference where
  session : Session
  rounds : List Round

namespace Reference

def requests (r : Reference) : Nat :=
  r.rounds.countP Round.isRequest

def verdict? (r : Reference) : Option (Except Failure Outcome) :=
  r.rounds.getLast?.bind Round.verdict?

/-- One more round of a run that has not ended. The line that is due is the one
whose number is the number of the requests before. -/
def turn (limit : Option Nat) (lines : Nat → Option String) (r : Reference) :
    Reference :=
  match r.verdict? with
  | some _ => r
  | none =>
    let (round, session) := play limit (lines r.requests) r.session
    ⟨session, r.rounds ++ [round]⟩

/-- The run on a session after a number of rounds, or after all that there are. -/
def after (limit : Option Nat) (lines : Nat → Option String) (s : Session)
    (n : Nat) : Reference :=
  (turn limit lines)^[n] ⟨s, []⟩

end Reference

/-! ## The drive as an iteration -/

theorem attempt_eq (limit : Option Nat) (s : Session) :
    attempt limit s =
      (if limit.any (· ≤ s.machine.steps) && !s.finished then s.interrupt
        else s).advance := by
  cases limit with
  | none => rfl
  | some m =>
      exact (apply_ite Session.advance _ _ _).symm

namespace Drive

theorem turn_of_result {d : Drive} {verdict : Except Failure Outcome}
    (h : d.result = some verdict) : d.turn = d := by
  simp only [turn, h]

theorem turns_eq_iterate (n : Nat) (d : Drive) : turns n d = turn^[n] d := by
  induction n generalizing d with
  | zero => rfl
  | succ n ih =>
      rw [turns, Function.iterate_succ_apply]
      cases h : d.result with
      | none => exact ih d.turn
      | some verdict =>
          rw [turn_of_result h, Function.iterate_fixed (turn_of_result h)]

end Drive

/-! ## One round -/

namespace Drive

/-- What is printed finds room if there is no limit to it. -/
structure Printed (d d' : Drive) (text : String) : Prop where
  bytes : d'.sink.bytes.toList = d.sink.bytes.toList ++ Text.toBytes text
  unlimited : d'.sink.capacity = none
  result : d'.result = d.result

theorem print_of_unlimited {d : Drive} (text : String)
    (h : d.sink.capacity = none) : Printed d (d.print text) text where
  bytes := by
    simp only [print, Sink.take, h]
    exact Array.toList_appendList
  unlimited := by simp only [print, Sink.take, h]
  result := by simp only [print, Sink.fits, h, if_true]

end Drive

theorem toBytes_append (s t : String) :
    Text.toBytes (s ++ t) = Text.toBytes s ++ Text.toBytes t := by
  simp only [Text.toBytes, String.toList_append, List.flatMap_append]

theorem toBytes_singleton (c : Char) :
    Text.toBytes (String.singleton c) = String.utf8EncodeChar c := by
  simp only [Text.toBytes, String.toList_singleton, List.flatMap_singleton]

namespace Reference

variable (s : Session) (rounds : List Round) (round : Round)

theorem requests_append :
    requests ⟨s, rounds ++ [round]⟩ =
      rounds.countP Round.isRequest + if round.isRequest then 1 else 0 := by
  rw [requests, List.countP_append, List.countP_singleton]

theorem verdict?_append : verdict? ⟨s, rounds ++ [round]⟩ = round.verdict? := by
  rw [verdict?, List.getLast?_concat]
  rfl

end Reference

/-- A drive with unlimited room is where the reference is: its streams are worth
the requests and the prints of the rounds so far. -/
structure Mirrors (input : List UInt8) (limit : Option Nat) (d : Drive)
    (r : Reference) : Prop where
  limit : d.limit = limit
  session : d.session = r.session
  input : d.input = unread input r.requests
  written : d.sink.bytes.toList = r.rounds.flatMap Round.written
  unlimited : d.sink.capacity = none
  result : d.result = r.verdict?

namespace Mirrors

variable {input : List UInt8} {limit : Option Nat} {d : Drive} {r : Reference}

theorem start (s : Session) (input : List UInt8) (limit : Option Nat) :
    Mirrors input limit (Drive.start s input none limit) ⟨s, []⟩ where
  limit := rfl
  session := rfl
  input := (unread_zero input).symm
  written := rfl
  unlimited := rfl
  result := rfl

/-- A round that has done to the drive what it says it has. -/
theorem extend (h : Mirrors input limit d r) {d' : Drive} {round : Round}
    (hlimit : d'.limit = d.limit)
    (hinput : d'.input = if round.isRequest then afterLine d.input else d.input)
    (hwritten : d'.sink.bytes.toList = d.sink.bytes.toList ++ round.written)
    (hunlimited : d'.sink.capacity = none)
    (hresult : d'.result = round.verdict?) :
    Mirrors input limit d' ⟨d'.session, r.rounds ++ [round]⟩ where
  limit := hlimit.trans h.limit
  session := rfl
  input := by
    rw [hinput, h.input, Reference.requests_append]
    split
    · exact afterLine_unread input _
    · rfl
  written := by
    rw [hwritten, h.written, List.flatMap_append, List.flatMap_singleton]
  unlimited := hunlimited
  result := by rw [hresult, Reference.verdict?_append]

/-- The drive does what an outcome calls for, and the reference says so. -/
theorem react (h : Mirrors input limit d r) (hlive : d.result = none)
    (outcome : Outcome) (s : Session) :
    Mirrors input limit ({ d with session := s }.react outcome)
      (let settled := settle (nthLine? input r.requests) (outcome, s)
       ⟨settled.2, r.rounds ++ [settled.1]⟩) := by
  cases outcome with
  | did event =>
      cases event with
      | printedCharacter c =>
          have hprint := Drive.print_of_unlimited (d := { d with session := s })
            (String.singleton c) h.unlimited
          exact h.extend rfl rfl (hprint.bytes.trans (by rw [toBytes_singleton]; rfl))
            hprint.unlimited (hprint.result.trans hlive)
      | printedInteger n =>
          have hprint := Drive.print_of_unlimited (d := { d with session := s })
            (Text.decimal n.toInt ++ " ") h.unlimited
          exact h.extend rfl rfl (hprint.bytes.trans (by rw [toBytes_append]; rfl))
            hprint.unlimited (hprint.result.trans hlive)
      | _ => exact h.extend rfl rfl (List.append_nil _).symm h.unlimited hlive
  | awaits i =>
      have hline : line? d.input = nthLine? input r.requests := by
        rw [h.input, line?_unread]
      simp only [Drive.react, Reaction.ofOutcome, Drive.read, supplyLine, hline,
        settle]
      cases nthLine? input r.requests with
      | none => exact h.extend rfl rfl (List.append_nil _).symm h.unlimited rfl
      | some line =>
          simp only []
          rcases s.supply line with ⟨error | outcome, s'⟩
          · exact h.extend rfl rfl (List.append_nil _).symm h.unlimited rfl
          · exact h.extend rfl rfl (List.append_nil _).symm h.unlimited hlive
  | halted => exact h.extend rfl rfl (List.append_nil _).symm h.unlimited rfl
  | interrupted => exact h.extend rfl rfl (List.append_nil _).symm h.unlimited rfl

theorem turn (h : Mirrors input limit d r) :
    Mirrors input limit d.turn (r.turn limit (nthLine? input)) := by
  rw [Reference.turn]
  cases hverdict : r.verdict? with
  | some verdict =>
      rw [Drive.turn_of_result (h.result.trans hverdict)]
      exact h
  | none =>
      have hlive : d.result = none := h.result.trans hverdict
      have hturn : d.turn = { d with session := (attempt d.limit d.session).2 }.react
          (attempt d.limit d.session).1 := by
        simp only [Drive.turn, hlive]
      have hplay : play limit (nthLine? input r.requests) r.session =
          settle (nthLine? input r.requests) (attempt d.limit d.session) := by
        rw [h.limit, h.session, attempt_eq, play]
      rw [hturn]
      simp only [hplay]
      exact h.react hlive _ _

theorem turns (h : Mirrors input limit d r) (n : Nat) :
    Mirrors input limit (Drive.turns n d)
      ((Reference.turn limit (nthLine? input))^[n] r) := by
  rw [Drive.turns_eq_iterate]
  induction n with
  | zero => exact h
  | succ n ih =>
      rw [Function.iterate_succ_apply', Function.iterate_succ_apply']
      exact ih.turn

end Mirrors

/-! ## The order of the lines -/

/-- Whoever was found to wait takes a line. -/
theorem settle_ne_refused (due : Option String) (s : Session)
    (error : Machine.NotAwaiting) :
    (settle due s.advance).1 ≠ .refused error := by
  have hstatus := s.status_advance
  rcases hadvance : s.advance with ⟨outcome, s'⟩
  rw [hadvance] at hstatus
  cases outcome with
  | did event => exact Round.noConfusion
  | halted => exact Round.noConfusion
  | interrupted => exact Round.noConfusion
  | awaits input =>
      simp only [settle]
      cases due with
      | none => exact Round.noConfusion
      | some line =>
          simp only [s'.supply_of_awaiting hstatus line]
          exact Round.noConfusion

/-- The requests of a run have been answered in the order of the lines, each by
one line, and no line was ever refused. -/
structure Reference.Ordered (lines : Nat → Option String) (r : Reference) :
    Prop where
  answered : ∀ i line,
    (r.rounds.filterMap Round.line?)[i]? = some line → lines i = some line
  counted : r.verdict? = none →
    (r.rounds.filterMap Round.line?).length = r.requests
  taken : ∀ error, Round.refused error ∉ r.rounds

theorem settle_line? {due : Option String} {a : Outcome × Session}
    {line : String} (h : (settle due a).1.line? = some line) : due = some line := by
  obtain ⟨outcome, s⟩ := a
  cases outcome with
  | did event => cases h
  | halted => cases h
  | interrupted => cases h
  | awaits input =>
      simp only [settle] at h
      cases due with
      | none => cases h
      | some due =>
          simp only [] at h
          rcases hs : s.supply due with ⟨error | outcome, s'⟩
          · simp only [hs] at h
            cases h
          · simp only [hs] at h
            cases h
            rfl

/-- A round that does not end the run supplied a line just if it met a request. -/
theorem Round.length_line? {round : Round} (h : round.verdict? = none) :
    (List.filterMap line? [round]).length = if round.isRequest then 1 else 0 := by
  cases round with
  | completed event => rfl
  | answered input line => rfl
  | unreadable input => cases h
  | refused error => cases h
  | ended outcome => cases h

namespace Reference.Ordered

variable {lines : Nat → Option String} {r : Reference}

theorem start (s : Session) : Ordered lines ⟨s, []⟩ where
  answered i line h := by cases h
  counted _ := rfl
  taken error h := by cases h

theorem extend (h : Ordered lines r) (hlive : r.verdict? = none) (s : Session)
    {round : Round}
    (hline : ∀ line, round.line? = some line → lines r.requests = some line)
    (htaken : ∀ error, round ≠ .refused error) :
    Ordered lines ⟨s, r.rounds ++ [round]⟩ where
  answered i line hi := by
    rw [List.filterMap_append] at hi
    rcases Nat.lt_or_ge i (r.rounds.filterMap Round.line?).length with hlt | hge
    · rw [List.getElem?_append_left hlt] at hi
      exact h.answered i line hi
    · rw [List.getElem?_append_right hge, h.counted hlive] at hi
      -- The only line that is not an older one is that of the new round.
      cases hround : round.line? with
      | none =>
          rw [List.filterMap_cons_none hround] at hi
          cases hi
      | some new =>
          rw [List.filterMap_cons_some hround, List.filterMap_nil] at hi
          rw [h.counted hlive] at hge
          have hi' := List.getElem?_eq_some_iff.mp hi
          obtain ⟨hlt, hnew⟩ := hi'
          have hlast : i = r.requests := by
            rw [List.length_singleton] at hlt
            omega
          subst hlast
          refine hline _ ?_
          rw [hround, ← hnew]
          simp
  counted hverdict := by
    rw [verdict?_append] at hverdict
    rw [List.filterMap_append, List.length_append, h.counted hlive,
      Round.length_line? hverdict, requests_append, requests]
  taken error hmem := by
    rcases List.mem_append.mp hmem with hold | hnew
    · exact h.taken error hold
    · exact htaken error (List.mem_singleton.mp hnew).symm

theorem turn (h : Ordered lines r) (limit : Option Nat) :
    Ordered lines (r.turn limit lines) := by
  rw [Reference.turn]
  cases hverdict : r.verdict? with
  | some verdict => exact h
  | none =>
      refine h.extend hverdict _ ?_ ?_
      · intro line hline
        exact settle_line? hline
      · exact settle_ne_refused _ _

theorem after (limit : Option Nat) (s : Session) (n : Nat) :
    Ordered lines (Reference.after limit lines s n) := by
  rw [Reference.after]
  induction n with
  | zero => exact start s
  | succ n ih =>
      rw [Function.iterate_succ_apply']
      exact ih.turn limit

/-- A run never ends because a line was not taken. -/
theorem verdict?_ne (h : Ordered lines r) (error : Machine.NotAwaiting) :
    r.verdict? ≠ some (.error (.input error)) := by
  intro hverdict
  rw [verdict?, Option.bind_eq_some_iff] at hverdict
  obtain ⟨round, hlast, hround⟩ := hverdict
  have hmem : round ∈ r.rounds := List.mem_of_getLast? hlast
  cases round with
  | completed event => cases hround
  | answered input line => cases hround
  | unreadable input => cases hround
  | ended outcome => cases hround
  | refused e => exact h.taken e hmem

end Reference.Ordered

/-- A run without a window is its reference, seen through its streams. After any
number of rounds it has gone through the same session, has printed what the rounds
print and nothing else, has taken as many lines of its input as there were
requests, and the lines it supplied are those of the input in their order, and
the empty line when the input is used up. It is never refused a line. -/
theorem drive_follows_reference (s : Session) (input : List UInt8)
    (limit : Option Nat) (n : Nat) :
    let d := Drive.turns n (Drive.start s input none limit)
    let r := Reference.after limit (nthLine? input) s n
    d.session = r.session ∧
      d.sink.bytes.toList = r.rounds.flatMap Round.written ∧
      d.input = unread input r.requests ∧
      d.result = r.verdict? ∧
      (∀ i line, (r.rounds.filterMap Round.line?)[i]? = some line →
        nthLine? input i = some line) ∧
      (d.input = [] → nthLine? input r.requests = some "") ∧
      ∀ error, d.result ≠ some (.error (.input error)) := by
  intro d r
  have hmirrors : Mirrors input limit d r :=
    (Mirrors.start s input limit).turns n
  have hordered : r.Ordered (nthLine? input) := Reference.Ordered.after limit s n
  refine ⟨hmirrors.session, hmirrors.written, hmirrors.input, hmirrors.result,
    hordered.answered, ?_, ?_⟩
  · intro hempty
    exact nthLine?_of_unread_eq_nil (hmirrors.input.symm.trans hempty)
  · intro error
    rw [hmirrors.result]
    exact hordered.verdict?_ne error

/-- A program that asks twice, with two lines of input, the first of which ends in
a carriage return. -/
theorem drive_follows_reference_two_lines :
    let s := Session.start (Grid.ofLines [['~', '~', '@']]) (.seeded 0)
    let input := [97, 13, 10, 98]
    let d := Drive.turns 2 (Drive.start s input none none)
    let r := Reference.after none (nthLine? input) s 2
    ((r.rounds.filterMap Round.line?)[0]? = some "a" ∧
        nthLine? input 0 = some "a") ∧
      d.input = [] ∧ nthLine? input r.requests = some "" := by
  intro s input d r
  have hline : (r.rounds.filterMap Round.line?)[0]? = some "a" := by decide +kernel
  have hempty : d.input = [] := by decide +kernel
  have h := drive_follows_reference s input none 2
  exact ⟨⟨hline, h.2.2.2.2.1 0 "a" hline⟩, hempty, h.2.2.2.2.2.1 hempty⟩

end Funge93.Headless
