import Funge93.Proofs.Limit
import Mathlib.Data.Nat.Find

/-!
# A sink that fills up

A run does not look at its sink. So a run into a sink with limited room goes through
the same rounds as the run with unlimited room for as long as everything fits, and
the first print that does not fit ends it. What is left then is settled by two
facts. The sink holds as much as it has room for, and that is the beginning of what
the other run prints, be it cut between two texts or inside one. And the session is
the one that has printed: the attempt comes before its text, so the instruction is
completed, its value is taken and it is noted, and no line has been read meanwhile.

One round decides it (`turn_within` and `turn_overflowing`). A whole run follows by
induction up to the first round whose text does not fit, and there the result is
set, after which a run stays as it is.
-/

namespace Funge93

/-! ## What an instruction that prints does -/

def Event.prints : Event → Bool
  | printedInteger _ => true
  | printedCharacter _ => true
  | _ => false

namespace Machine

/-- An instruction that prints, by its event and by the machine after it: the value
is taken and the instruction is completed. -/
inductive Prints (m : Machine) : Event → Machine → Prop where
  | integer : Prints m (.printedInteger m.stack.peek) m.drop.finish
  | character :
    Prints m (.printedCharacter m.stack.peek.toChar)
      { m.drop with output := m.output.push m.stack.peek.toChar }.finish

variable {m : Machine} {source : Random.Source} {event : Event}

theorem prints_execute {i : Instruction}
    (h : (m.execute source i).outcome = .did event) (hprints : event.prints) :
    m.Prints event (m.execute source i).machine ∧
      (m.execute source i).source = source := by
  cases i with
  | printInteger =>
      cases h
      exact ⟨.integer, rfl⟩
  | printCharacter =>
      cases h
      exact ⟨.character, rfl⟩
  | ask input => cases h
  | halt => cases h
  | _ =>
      cases h
      cases hprints

theorem not_prints_quoting (c : Char) : (m.quoting c).1.prints = false := by
  rw [quoting]
  split <;> rfl

theorem prints_step (h : (m.step source).outcome = .did event)
    (hprints : event.prints) :
    m.Prints event (m.step source).machine ∧ (m.step source).source = source := by
  rw [step] at h ⊢
  split at h
  · cases h
  · cases h
  · split at h
    · cases h
    · next hcalm =>
        rw [if_neg hcalm]
        split at h
        · cases h
          rw [not_prints_quoting] at hprints
          cases hprints
        · next hmode =>
            rw [if_neg hmode]
            exact prints_execute h hprints
  · split at h <;> cases h

end Machine

namespace Session

/-- An instruction that prints, as the session sees it. A number that was printed
goes into the log. -/
structure Prints (s : Session) (event : Event) (s' : Session) : Prop where
  machine : s.machine.Prints event s'.machine
  source : s'.source = s.source
  log : s'.log =
    match event with
    | .printedInteger _ => s.log.push event.text
    | _ => s.log
  finished : s'.finished = s.finished

theorem prints_advance {s s' : Session} {event : Event}
    (h : s.advance = (.did event, s')) (hprints : event.prints) :
    s.Prints event s' := by
  simp only [advance, Prod.mk.injEq] at h
  obtain ⟨houtcome, rfl⟩ := h
  obtain ⟨hmachine, hsource⟩ := Machine.prints_step houtcome hprints
  rw [houtcome]
  cases event with
  | printedInteger n => exact ⟨hmachine, hsource, rfl, rfl⟩
  | printedCharacter c => exact ⟨hmachine, hsource, rfl, rfl⟩
  | _ => cases hprints

end Session

namespace Headless

/-! ## Sinks -/

namespace Sink

variable {b : Array UInt8} {c : Nat} {bytes : List UInt8}

theorem toList_take_unlimited :
    ((Sink.mk none b).take bytes).bytes.toList = b.toList ++ bytes := by
  simp only [take]
  exact Array.toList_appendList

theorem size_take_unlimited :
    ((Sink.mk none b).take bytes).bytes.size = b.size + bytes.length := by
  rw [← Array.length_toList, toList_take_unlimited, List.length_append,
    Array.length_toList]

theorem toList_take_limited (h : b.size ≤ c) :
    ((Sink.mk (some c) b).take bytes).bytes.toList =
      ((Sink.mk none b).take bytes).bytes.toList.take c := by
  rw [toList_take_unlimited, List.take_append,
    List.take_of_length_le (by rw [Array.length_toList]; exact h),
    Array.length_toList]
  simp only [take]
  exact Array.toList_appendList

theorem fits_limited :
    (Sink.mk (some c) b).fits bytes =
      decide (((Sink.mk none b).take bytes).bytes.size ≤ c) := by
  rw [size_take_unlimited]
  rfl

/-- What fits is taken as if there were no limit. -/
theorem take_limited_of_le
    (h : ((Sink.mk none b).take bytes).bytes.size ≤ c) :
    (Sink.mk (some c) b).take bytes =
      ⟨some c, ((Sink.mk none b).take bytes).bytes⟩ := by
  have hb : b.size ≤ c := by
    rw [size_take_unlimited] at h
    omega
  have hbytes : ((Sink.mk (some c) b).take bytes).bytes =
      ((Sink.mk none b).take bytes).bytes := by
    rw [← Array.toList_inj, toList_take_limited hb]
    exact List.take_of_length_le (by rw [Array.length_toList]; exact h)
  rw [← hbytes]
  rfl

end Sink

/-! ## One round -/

/-- An attempt that comes with a request to stop ends the run, so one that does not was made
without. -/
theorem advance_of_attempt {limit : Option Nat} {s s' : Session} {outcome : Outcome}
    (h : attempt limit s = (outcome, s')) (hgoes : outcome.isFinal = false) :
    s.advance = (outcome, s') := by
  rw [attempt] at h
  split at h
  · have hfinal : s.interrupt.advance.1.isFinal = true :=
      Machine.isFinal_step_of_requested rfl s.source
    rw [h, hgoes] at hfinal
    cases hfinal
  · exact h

namespace Drive

/-- The drive with the room in its sink limited. -/
def within (c : Nat) (d : Drive) : Drive :=
  { d with sink := ⟨some c, d.sink.bytes⟩ }

theorem turn_of_live {d : Drive} (h : d.result = none) :
    d.turn = { d with session := (attempt d.limit d.session).2 }.react
      (attempt d.limit d.session).1 := by
  simp only [turn, h]

variable {d : Drive} {c : Nat}

theorem within_print {text : String} (h : d.sink.capacity = none)
    (hfits : (d.print text).sink.bytes.size ≤ c) :
    (d.within c).print text = (d.print text).within c := by
  obtain ⟨session, input, ⟨capacity, bytes⟩, limit, result⟩ := d
  subst h
  have hfits' : ((Sink.mk none bytes).take (Text.toBytes text)).bytes.size ≤ c :=
    hfits
  simp only [print, within, Sink.fits_limited, decide_eq_true hfits', if_true,
    Sink.take_limited_of_le hfits']
  rfl

theorem within_read : (d.within c).read = d.read.within c := by
  simp only [read, within]
  split <;> rfl

theorem within_react {outcome : Outcome} (h : d.sink.capacity = none)
    (hfits : (d.react outcome).sink.bytes.size ≤ c) :
    (d.within c).react outcome = (d.react outcome).within c := by
  simp only [react] at hfits ⊢
  cases hreaction : Reaction.ofOutcome outcome with
  | proceed => rfl
  | print text =>
      rw [hreaction] at hfits
      exact within_print h hfits
  | read => exact within_read
  | stop => rfl

/-- A round whose text fits is the same with limited room. -/
theorem turn_within (h : d.sink.capacity = none) (hfits : d.turn.sink.bytes.size ≤ c) :
    (d.within c).turn = d.turn.within c := by
  cases hresult : d.result with
  | some verdict =>
      rw [turn_of_result hresult, turn_of_result (d := d.within c) hresult]
  | none =>
      rw [turn_of_live hresult] at hfits ⊢
      rw [turn_of_live (d := d.within c) hresult]
      exact within_react (d := { d with session := (attempt d.limit d.session).2 })
        h hfits

/-- What a print leaves behind that does not fit. -/
def overflowing (c : Nat) (d : Drive) : Drive :=
  { d with
    sink := ⟨some c, (d.sink.bytes.toList.take c).toArray⟩
    result := some (.error (.io .noRoom)) }

theorem overflowing_print {text : String} (h : d.sink.capacity = none)
    (hroom : d.sink.bytes.size ≤ c) (hover : c < (d.print text).sink.bytes.size) :
    (d.within c).print text = (d.print text).overflowing c := by
  obtain ⟨session, input, ⟨capacity, bytes⟩, limit, result⟩ := d
  subst h
  have hfits : (Sink.mk (some c) bytes).fits (Text.toBytes text) = false := by
    rw [Sink.fits_limited]
    exact decide_eq_false (Nat.not_le.mpr hover)
  have hbytes : (Sink.mk (some c) bytes).take (Text.toBytes text) =
      ⟨some c, (((Sink.mk none bytes).take (Text.toBytes text)).bytes.toList.take
        c).toArray⟩ := by
    rw [← Sink.toList_take_limited hroom]
    rfl
  simp only [print, within, overflowing, hfits, hbytes, Bool.false_eq_true, if_false]

/-- Only a print adds to the sink, and only a print has a text that may not fit. -/
theorem react_overflowing {outcome : Outcome} (h : d.sink.capacity = none)
    (hroom : d.sink.bytes.size ≤ c) (hover : c < (d.react outcome).sink.bytes.size) :
    (d.within c).react outcome = (d.react outcome).overflowing c ∧
      (∃ event, outcome = .did event ∧ event.prints) ∧
      (d.react outcome).session = d.session ∧
      (d.react outcome).input = d.input := by
  cases outcome with
  | did event =>
      cases event with
      | printedCharacter x =>
          exact ⟨overflowing_print h hroom hover, ⟨_, rfl, rfl⟩, rfl, rfl⟩
      | printedInteger n =>
          exact ⟨overflowing_print h hroom hover, ⟨_, rfl, rfl⟩, rfl, rfl⟩
      | _ => exact absurd hover (Nat.not_lt.mpr hroom)
  | awaits input =>
      have hsink : (d.react (.awaits input)).sink = d.sink := by
        simp only [react, Reaction.ofOutcome, read]
        split <;> rfl
      rw [hsink] at hover
      omega
  | halted => exact absurd hover (Nat.not_lt.mpr hroom)
  | interrupted => exact absurd hover (Nat.not_lt.mpr hroom)

theorem turn_overflowing (h : d.sink.capacity = none)
    (hroom : d.sink.bytes.size ≤ c) (hover : c < d.turn.sink.bytes.size) :
    d.result = none ∧ (d.within c).turn = d.turn.overflowing c ∧
      d.turn.input = d.input ∧
      ∃ event, d.session.advance = (.did event, d.turn.session) ∧
        d.session.Prints event d.turn.session := by
  cases hresult : d.result with
  | some verdict =>
      rw [turn_of_result hresult] at hover
      omega
  | none =>
      rw [turn_of_live hresult] at hover ⊢
      rw [turn_of_live (d := d.within c) hresult]
      obtain ⟨hturn, ⟨event, houtcome, hprints⟩, hsession, hinput⟩ :=
        react_overflowing (d := { d with session := (attempt d.limit d.session).2 })
          h hroom hover
      have hattempt : attempt d.limit d.session =
          (.did event, (attempt d.limit d.session).2) := by
        rw [← houtcome]
      have hadvance := advance_of_attempt hattempt rfl
      rw [hsession]
      exact ⟨rfl, hturn, hinput, event, hadvance,
        Session.prints_advance hadvance hprints⟩

/-! ## Whole runs -/

theorem turns_of_result {verdict : Except Failure Outcome}
    (h : d.result = some verdict) (n : Nat) : turns n d = d := by
  rw [turns_eq_iterate]
  exact Function.iterate_fixed (turn_of_result h) n

theorem turns_succ (n : Nat) : turns (n + 1) d = (turns n d).turn := by
  rw [turns_eq_iterate, turns_eq_iterate, Function.iterate_succ_apply']

theorem turns_add (m n : Nat) : turns (m + n) d = turns n (turns m d) := by
  rw [turns_eq_iterate, turns_eq_iterate, turns_eq_iterate, Nat.add_comm,
    Function.iterate_add_apply]

/-- A run that goes on has gone on before. -/
theorem result_turns_of_le {m n : Nat} (h : (turns n d).result = none) (hle : m ≤ n) :
    (turns m d).result = none := by
  by_contra hended
  obtain ⟨verdict, hverdict⟩ := Option.ne_none_iff_exists'.mp hended
  obtain ⟨more, rfl⟩ := Nat.exists_eq_add_of_le hle
  rw [turns_add, turns_of_result hverdict, hverdict] at h
  cases h

variable (s : Session) (input : List UInt8) (limit : Option Nat)

theorem unlimited_turns (n : Nat) :
    (turns n (start s input none limit)).sink.capacity = none :=
  ((Mirrors.start s input limit).turns n).unlimited

theorem bytes_prefix_turns {m n : Nat} (hle : m ≤ n) :
    (turns m (start s input none limit)).sink.bytes.toList <+:
      (turns n (start s input none limit)).sink.bytes.toList := by
  rw [((Mirrors.start s input limit).turns m).written,
    ((Mirrors.start s input limit).turns n).written]
  exact List.IsPrefix.flatMap (Reference.rounds_prefix_after s hle) Round.written

theorem size_le_turns {m n : Nat} (hle : m ≤ n) :
    (turns m (start s input none limit)).sink.bytes.size ≤
      (turns n (start s input none limit)).sink.bytes.size := by
  rw [← Array.length_toList, ← Array.length_toList]
  exact (bytes_prefix_turns s input limit hle).length_le

/-- What a run has printed when it ends is all that it ever prints. -/
theorem size_le_of_result {n : Nat} {verdict : Except Failure Outcome}
    (h : (turns n (start s input none limit)).result = some verdict) (m : Nat) :
    (turns m (start s input none limit)).sink.bytes.size ≤
      (turns n (start s input none limit)).sink.bytes.size := by
  rcases Nat.le_total m n with hle | hle
  · exact size_le_turns s input limit hle
  · obtain ⟨more, rfl⟩ := Nat.exists_eq_add_of_le hle
    rw [turns_add, turns_of_result h]

/-- As long as everything fits the run goes as if there were no limit. -/
theorem turns_within {n : Nat}
    (hfits : (turns n (start s input none limit)).sink.bytes.size ≤ c) :
    turns n (start s input (some c) limit) =
      (turns n (start s input none limit)).within c := by
  induction n with
  | zero => rfl
  | succ n ih =>
      have hbefore := size_le_turns s input limit (Nat.le_succ n)
      rw [turns_succ, ih (hbefore.trans hfits), turns_succ]
      rw [turns_succ] at hfits
      exact turn_within (unlimited_turns s input limit n) hfits

/-- A run whose text does not all fit comes to the first round that is too much. -/
theorem exists_last_fitting
    (h : ∃ n, c < (turns n (start s input none limit)).sink.bytes.size) :
    ∃ k, ∀ j, (turns j (start s input none limit)).sink.bytes.size ≤ c ↔ j ≤ k := by
  have hfirst := Nat.find_spec h
  have hstart : (turns 0 (start s input none limit)).sink.bytes.size ≤ c :=
    Nat.zero_le c
  obtain ⟨k, hk⟩ : ∃ k, Nat.find h = k + 1 := by
    refine Nat.exists_eq_succ_of_ne_zero fun hzero => ?_
    rw [hzero] at hfirst
    exact absurd hfirst (Nat.not_lt.mpr hstart)
  refine ⟨k, fun j => ⟨fun hfits => ?_, fun hle => ?_⟩⟩
  · by_contra hlt
    have hmono := size_le_turns s input limit (show k + 1 ≤ j by omega)
    rw [hk] at hfirst
    omega
  · exact Nat.not_lt.mp (Nat.find_min h (by omega))

/-- The rounds after the first one that is too much. -/
theorem turns_overflowing {k : Nat}
    (hlast : ∀ j, (turns j (start s input none limit)).sink.bytes.size ≤ c ↔ j ≤ k)
    {n : Nat} (hn : k < n) :
    turns n (start s input (some c) limit) =
      (turns (k + 1) (start s input none limit)).overflowing c := by
  have hroom := (hlast k).mpr (Nat.le_refl k)
  have hover : c < (turns k (start s input none limit)).turn.sink.bytes.size := by
    rw [← turns_succ]
    exact Nat.lt_of_not_le fun hle => absurd ((hlast _).mp hle) (Nat.not_succ_le_self k)
  obtain ⟨-, hturn, -, -⟩ :=
    turn_overflowing (unlimited_turns s input limit k) hroom hover
  have hnext : turns (k + 1) (start s input (some c) limit) =
      (turns (k + 1) (start s input none limit)).overflowing c := by
    rw [turns_succ, turns_within s input limit hroom, hturn, turns_succ]
  obtain ⟨m, rfl⟩ := Nat.exists_eq_add_of_lt hn
  rw [show k + m + 1 = k + 1 + m by omega, turns_add, hnext]
  exact turns_of_result rfl m

end Drive

/-- A sink with limited room gets a beginning of what is printed, and the run ends
where it is full. If everything fits the run is the one with unlimited room. If not,
there is a first round whose text is too much. Up to it the runs are the same. That
round executes an instruction that prints, and all of it: the session is the one
after the attempt, no line has been read since, and nothing follows. -/
theorem full_sink_keeps_prefix (s : Session) (input : List UInt8)
    (limit : Option Nat) (c : Nat) :
    let free := fun n => Drive.turns n (Drive.start s input none limit)
    let tight := fun n => Drive.turns n (Drive.start s input (some c) limit)
    ((∀ n, (free n).sink.bytes.size ≤ c) →
      ∀ n, (tight n).result = (free n).result ∧
        (tight n).session = (free n).session ∧
        (tight n).sink.bytes = (free n).sink.bytes ∧
        (tight n).input = (free n).input) ∧
      ((∃ n, c < (free n).sink.bytes.size) →
        ∃ k event,
          (∀ j, (free j).sink.bytes.size ≤ c ↔ j ≤ k) ∧
          (∀ j, j ≤ k → (tight j).result = none ∧
            (tight j).session = (free j).session ∧
            (tight j).sink.bytes = (free j).sink.bytes) ∧
          (free k).session.advance = (.did event, (free (k + 1)).session) ∧
          (free k).session.Prints event (free (k + 1)).session ∧
          ∀ n, k < n →
            (tight n).result = some (.error (.io .noRoom)) ∧
            (∀ i, k < i → (tight n).sink.bytes.toList =
              (free i).sink.bytes.toList.take c) ∧
            (tight n).session = (free (k + 1)).session ∧
            (tight n).input = (free k).input) := by
  intro free tight
  constructor
  · intro hfits n
    have hwithin : tight n = (free n).within c :=
      Drive.turns_within s input limit (hfits n)
    rw [hwithin]
    exact ⟨rfl, rfl, rfl, rfl⟩
  · intro hover
    obtain ⟨k, hlast⟩ := Drive.exists_last_fitting s input limit hover
    have hturn : free (k + 1) = (free k).turn := Drive.turns_succ k
    have hmore : c < (free k).turn.sink.bytes.size := by
      rw [← hturn]
      exact Nat.lt_of_not_le fun hle =>
        absurd ((hlast _).mp hle) (Nat.not_succ_le_self k)
    obtain ⟨hlive, -, hinput, event, hadvance, hprints⟩ :=
      Drive.turn_overflowing (Drive.unlimited_turns s input limit k)
        ((hlast k).mpr (Nat.le_refl k)) hmore
    rw [← hturn] at hinput hadvance hprints
    refine ⟨k, event, hlast, ?_, hadvance, hprints, ?_⟩
    · intro j hle
      have hwithin : tight j = (free j).within c :=
        Drive.turns_within s input limit ((hlast j).mpr hle)
      rw [hwithin]
      exact ⟨Drive.result_turns_of_le hlive hle, rfl, rfl⟩
    · intro n hn
      have hend : tight n = (free (k + 1)).overflowing c :=
        Drive.turns_overflowing s input limit hlast hn
      rw [hend]
      refine ⟨rfl, ?_, rfl, hinput⟩
      intro i hi
      have hprefix : (free (k + 1)).sink.bytes.toList <+: (free i).sink.bytes.toList :=
        Drive.bytes_prefix_turns s input limit hi
      obtain ⟨more, hmorebytes⟩ := hprefix
      have hlength : c ≤ (free (k + 1)).sink.bytes.toList.length := by
        rw [hturn, Array.length_toList]
        exact Nat.le_of_lt hmore
      rw [← hmorebytes, List.take_append_of_le_length hlength]
      rfl

/-- A program that prints one character of two bytes, into a sink with room for one
and into a sink with room for both. -/
theorem full_sink_keeps_prefix_cut :
    let s := Session.start (Grid.ofLines [['\x22', 'é', '\x22', ',', '@']]) (.seeded 0)
    let free := fun n => Drive.turns n (Drive.start s [] none none)
    let tight := fun c n => Drive.turns n (Drive.start s [] (some c) none)
    ((∃ n, 1 < (free n).sink.bytes.size) ∧
        ∃ n, (tight 1 n).result = some (.error (.io .noRoom)) ∧
          (tight 1 n).sink.bytes.toList = [0xC3]) ∧
      (∀ n, (free n).sink.bytes.size ≤ 2) ∧ (tight 2 5).result = some (.ok .halted) := by
  intro s free tight
  have hover : 1 < (free 4).sink.bytes.size := by decide +kernel
  have hhalted : (free 5).result = some (.ok .halted) := by decide +kernel
  have hsize : (free 5).sink.bytes.size = 2 := by decide +kernel
  have hbytes : (free 5).sink.bytes.toList.take 1 = [0xC3] := by decide +kernel
  -- What the run computes is settled; nothing below has to compute it again.
  clear_value s
  have hfits : ∀ n, (free n).sink.bytes.size ≤ 2 := fun n =>
    (Drive.size_le_of_result s [] none hhalted n).trans_eq hsize
  obtain ⟨-, hone⟩ := full_sink_keeps_prefix s [] none 1
  obtain ⟨htwo, -⟩ := full_sink_keeps_prefix s [] none 2
  obtain ⟨k, event, hlast, -, -, -, hend⟩ := hone ⟨4, hover⟩
  have hk : k < 5 := by
    by_contra hle
    have hfits4 : (free 4).sink.bytes.size ≤ 1 := (hlast 4).mpr (by omega)
    exact absurd hover (Nat.not_lt.mpr hfits4)
  obtain ⟨hresult, htake, -, -⟩ := hend 5 hk
  have hcut : (tight 1 5).sink.bytes.toList = [0xC3] := (htake 5 hk).trans hbytes
  exact ⟨⟨⟨4, hover⟩, 5, hresult, hcut⟩, hfits, (htwo hfits 5).1.trans hhalted⟩

end Headless

end Funge93
