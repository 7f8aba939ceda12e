import Funge93.Launch
import Funge93.Proofs.Faults
import Funge93.Proofs.Unreadable

/-!
# The process as a whole

A process reads its arguments and its program and then is nothing but a run: it has ended when the
run has, and it shows what the run shows. With a limit on the steps every run ends, so the process
does. Its exit status tells whether the program came to an end or was interrupted, on the one hand,
from a line of input that is no text, on the other. There is no third way: a sink with unlimited
room is never full, and whoever asks for a line takes it.

A program that comes with the standard input leaves nothing there for its own requests. Where
nobody types either, it is launched just as from a file with an empty input.
-/

namespace Funge93

namespace Headless.Drive

variable {d d' : Drive} {verdict : Except Failure Outcome}

/-- A round that ends a run with room for all that it prints. -/
theorem Turned.verdict_cases (h : d.Turned d') (live : d.result = none)
    (hroom : d.sink.capacity = none) (hend : d'.result = some verdict) :
    verdict = .ok .halted ∨ verdict = .ok .interrupted ∨ verdict = .error (.io .notText) := by
  cases h with
  | still h => cases h.symm.trans live
  | completed _ h hsink => cases live.symm.trans hend
  | full _ h hfits =>
      rw [Sink.fits, hroom] at hfits
      cases hfits
  | answered _ h hline hsupply => cases live.symm.trans hend
  | unreadable _ h hline =>
      cases hend
      exact .inr (.inr rfl)
  | @ended outcome s _ h hfinal =>
      cases hend
      cases outcome with
      | did event => cases hfinal
      | awaits input => cases hfinal
      | halted => exact .inl rfl
      | interrupted => exact .inr (.inl rfl)

variable {grid : Grid} {source : Random.Source} {input : List UInt8} {limit : Option Nat} {n : Nat}

theorem verdict_fresh (h : (fresh grid source input limit n).result = some verdict) :
    verdict = .ok .halted ∨ verdict = .ok .interrupted ∨ verdict = .error (.io .notText) := by
  obtain ⟨k, -, hlive, hend⟩ := exists_ending_turn rfl h
  exact (turned_turns k _).verdict_cases hlive (unlimited_turns _ _ _ k) hend

/-- A run fails just if it asks for a line that is no text. -/
theorem failed_fresh_iff (hended : (fresh grid source input limit n).result.isSome) :
    (fresh grid source input limit n).result = some (.error (.io .notText)) ↔
      ∃ k i, (fresh grid source input limit k).asks? = some i ∧
        (fresh grid source input limit k).session.machine.stringMode = false ∧
        (fresh grid source input limit k).session.machine.cell = i.glyph ∧
        Unreadable input (requests k (fresh grid source input limit 0)) := by
  have hfirst : (fresh grid source input limit 0).Underway := .start grid source input none limit
  constructor
  · intro h
    obtain ⟨k, -, i, hasks, hbad⟩ := exists_unreadable rfl h
    have hlive := (attempt_of_asks? hasks).1
    obtain ⟨-, -, hmode, hcell⟩ := session_of_asks? (hfirst.turns hlive) hasks
    exact ⟨k, i, hasks, hmode, hcell, hbad⟩
  · rintro ⟨k, i, hasks, -, -, hbad⟩
    have hlive := (attempt_of_asks? hasks).1
    -- A run that has ended asks for nothing.
    have hlt : k < n := by
      by_contra hle
      rw [fresh, result_turns_of_le hlive (Nat.not_lt.mp hle)] at hended
      cases hended
    exact congrArg Drive.result (turns_of_unreadable hfirst hasks hbad hlt)

end Headless.Drive

namespace Launch

open Headless

/-! ## How a process ends -/

/-- What is left of a process that has ended. -/
structure Ended where
  status : Nat
  /-- What it has printed to the standard output. -/
  printed : List UInt8
  /-- What it has read for its requests. -/
  read : List UInt8

/-- The process comes to its end: at once, or when its run does. -/
inductive Ends : Launch → Ended → Prop where
  | atOnce {status : Nat} : Ends (.exit status) ⟨status, [], []⟩
  | run {d : Drive} {n : Nat} {verdict : Except Failure Outcome} {read : List UInt8}
      (h : (d.turns n).result = some verdict) (hread : d.input = read ++ (d.turns n).input) :
      Ends (.headless d) ⟨exitStatus verdict, (d.turns n).sink.bytes.toList, read⟩

/-- A process ends in one way only. -/
theorem Ends.unique {launch : Launch} {e e' : Ended} (h : Ends launch e) (h' : Ends launch e') :
    e = e' := by
  cases h with
  | atOnce =>
      cases h'
      rfl
  | @run d n verdict read h hread =>
      cases h' with
      | @run _ n' verdict' read' h' hread' =>
          -- What the longer of two ended runs has on top are rounds that change nothing.
          have hsame : d.turns n = d.turns n' := by
            rcases Nat.le_total n n' with hle | hle
            · obtain ⟨more, rfl⟩ := Nat.exists_eq_add_of_le hle
              rw [Drive.turns_add, Drive.turns_of_result h]
            · obtain ⟨more, rfl⟩ := Nat.exists_eq_add_of_le hle
              rw [Drive.turns_add, Drive.turns_of_result h']
          rw [← hsame] at h' hread' ⊢
          cases h.symm.trans h'
          rw [List.append_cancel_right (hread.symm.trans hread')]

/-- A process ends as its run does. -/
theorem ends_of_result {d : Drive} {n : Nat} {verdict : Except Failure Outcome}
    (h : (d.turns n).result = some verdict) :
    ∃ read, d.input = read ++ (d.turns n).input ∧
      Ends (.headless d) ⟨exitStatus verdict, (d.turns n).sink.bytes.toList, read⟩ := by
  obtain ⟨read, hread⟩ : (d.turns n).input <:+ d.input := by
    rw [Drive.input_turns]
    exact unread_suffix d.input _
  exact ⟨read, hread.symm, .run h hread.symm⟩

/-- What is left of a process tells how its run has ended after `n` rounds. The run is given by
where it is after any number of rounds. -/
structure Ended.Tells (e : Ended) (d : Nat → Drive) (n : Nat) : Prop where
  ended : (d n).result.isSome
  printed : e.printed = (d n).sink.bytes.toList
  read : (d 0).input = e.read ++ (d n).input
  status : e.status = 0 ∨ e.status = 1
  succeeded : e.status = 0 ↔
    (d n).result = some (.ok .halted) ∨ (d n).result = some (.ok .interrupted)
  failed : e.status = 1 ↔
    ∃ k i, (d k).asks? = some i ∧ (d k).session.machine.stringMode = false ∧
      (d k).session.machine.cell = i.glyph ∧
      Unreadable (d 0).input (Drive.requests k (d 0))

theorem exitStatus_cases {verdict : Except Failure Outcome}
    (h : verdict = .ok .halted ∨ verdict = .ok .interrupted ∨ verdict = .error (.io .notText)) :
    (exitStatus verdict = 0 ∨ exitStatus verdict = 1) ∧
      (exitStatus verdict = 0 ↔ verdict = .ok .halted ∨ verdict = .ok .interrupted) ∧
      (exitStatus verdict = 1 ↔ verdict = .error (.io .notText)) := by
  obtain rfl | rfl | rfl := h <;> decide

/-- A run with a limit ends, and so does its process, in one way. -/
theorem ends_of_limit (grid : Grid) (source : Random.Source) (input : List UInt8) (m : Nat) :
    let d := Drive.fresh grid source input (some m)
    ∃ e : Ended, (∀ e', Ends (.headless (d 0)) e' ↔ e' = e) ∧ e.Tells d (m + 1) := by
  intro d
  have hended : (d (m + 1)).result.isSome := Drive.isSome_result_limit grid source input m
  obtain ⟨verdict, hverdict⟩ := Option.isSome_iff_exists.mp hended
  obtain ⟨read, hread, hends⟩ := ends_of_result (d := d 0) (n := m + 1) hverdict
  obtain ⟨hstatus, hzero, hone⟩ := exitStatus_cases (Drive.verdict_fresh hverdict)
  refine ⟨_, fun e' => ⟨fun h => h.unique hends, ?_⟩, hended, rfl, hread, hstatus, ?_, ?_⟩
  · rintro rfl
    exact hends
  · rw [hverdict, Option.some_inj, Option.some_inj]
    exact hzero
  · refine Iff.trans ?_ (Drive.failed_fresh_iff hended)
    rw [show Drive.fresh grid source input (some m) (m + 1) = d (m + 1) from rfl, hverdict,
      Option.some_inj]
    exact hone

/-! ## How it begins -/

/-- The arguments ask for a program to be run without a window, with a seed and a limit on the
steps. -/
def Capped (args : List String) (path : String) (seed : UInt64) (m : Nat) : Prop :=
  ∃ delay, CommandLine.Gives args ⟨path, delay, some seed.toNat, some m, true⟩

variable {args : List String} {path : String} {seed : UInt64} {m : Nat}

/-- A process that is not over at once is a run of its program. -/
theorem ofArgs_of_capped (world : Surroundings) (h : Capped args path seed m) {bytes : List UInt8}
    (hbytes : (if CommandLine.namesStandardInput path then .ok world.standardInput
      else world.readFile path) = .ok bytes) :
    ofArgs world args =
      match Text.ofBytes? bytes with
      | none => .exit 1
      | some text =>
        .headless
          (Drive.fresh (Grid.load text) (.seeded seed) (inputOf world path) (some m) 0) := by
  obtain ⟨delay, hgives⟩ := h
  have hparse := CommandLine.parse_eq_ok_iff.mpr ⟨_, hgives, fun _ => rfl, rfl⟩
  have hread : readProgram world path = decodeProgram path (.ok bytes) :=
    congrArg (decodeProgram path) hbytes
  rw [ofArgs, hparse]
  simp only [CommandLine.Choice.options, hread, decodeProgram]
  cases Text.ofBytes? bytes with
  | none => rfl
  | some text =>
      simp only [ofText, session, seedOf, Option.map_some, UInt64.ofNat_toNat]
      rfl

/-- A process with a limit on the steps ends. It fails at once, without looking at its input, if
its program is no text. If it is, what is left of the process tells how the run has ended on the
program, the seed, the standard input and the limit. With the program on the standard input and
nobody at a terminal, it ends as on a file with that program and an empty input. -/
theorem ends_as_its_run (world : Surroundings) (h : Capped args path seed m) :
    (CommandLine.namesStandardInput path = false → ∀ bytes, world.readFile path = .ok bytes →
      (Text.ofBytes? bytes = none → ∀ e, Ends (ofArgs world args) e ↔ e = ⟨1, [], []⟩) ∧
      ∀ text, Text.ofBytes? bytes = some text →
        ∃ e : Ended, (∀ e', Ends (ofArgs world args) e' ↔ e' = e) ∧
          e.Tells (Drive.fresh (Grid.load text) (.seeded seed) world.standardInput (some m))
            (m + 1)) ∧
      (CommandLine.namesStandardInput path = true → world.terminal = [] →
        ∀ (file : Surroundings) (args' : List String) (path' : String),
          Capped args' path' seed m → CommandLine.namesStandardInput path' = false →
          file.readFile path' = .ok world.standardInput → file.standardInput = [] →
          ∀ e, Ends (ofArgs world args) e ↔ Ends (ofArgs file args') e) := by
  refine ⟨?_, ?_⟩
  · intro hpath bytes hbytes
    have hlaunch := ofArgs_of_capped world h (by rw [hpath]; exact hbytes)
    have hinput : inputOf world path = world.standardInput := by
      rw [inputOf, hpath]
      rfl
    rw [hlaunch, hinput]
    refine ⟨?_, ?_⟩
    · intro hnone e
      rw [hnone]
      constructor
      · intro hends
        exact hends.unique .atOnce
      · rintro rfl
        exact .atOnce
    · intro text htext
      rw [htext]
      exact ends_of_limit (Grid.load text) (.seeded seed) world.standardInput m
  · intro hpath hterminal file args' path' h' hpath' hbytes hempty e
    have hlaunch := ofArgs_of_capped world h (by rw [hpath]; rfl)
    have hlaunch' := ofArgs_of_capped file h' (by rw [hpath']; exact hbytes)
    have hinput : inputOf world path = inputOf file path' := by
      rw [inputOf, inputOf, hpath, hpath', hterminal, hempty]
      rfl
    rw [hlaunch, hlaunch', hinput]

/-- A program that reads a character, on an input that is no text; a file that is no text; and the
same program on the standard input. -/
theorem ends_as_its_run_echo :
    let file := fun (program input : List UInt8) =>
      Surroundings.mk (fun _ => .ok program) input [] fun _ => Random.ChaCha.key 0
    let echo : List UInt8 := [126, 44, 64]
    let args := fun path => ["--seed", "07", path, "--max-steps=3", "--headless"]
    (∃ e, Ends (ofArgs (file echo [0xFF]) (args "a")) e ∧ e.status = 1) ∧
      (∀ e, Ends (ofArgs (file [0xFF] echo) (args "a")) e ↔ e = ⟨1, [], []⟩) ∧
      ∀ e, Ends (ofArgs (file [] echo) (args "-")) e ↔
        Ends (ofArgs (file echo []) (args "a")) e := by
  intro file echo args
  have hseed : CommandLine.SpellsWord "07" 7 := CommandLine.number?_eq_some_iff.mp (by decide)
  have hmaxSteps : CommandLine.SpellsWord "3" 3 := CommandLine.number?_eq_some_iff.mp (by decide)
  have hcapped : ∀ path, path ≠ "" → CommandLine.Plain path → Capped (args path) path 7 3 := by
    intro path hne hplain
    have hwritten := CommandLine.Written.apart (s := .seed) hseed (.program hne hplain
      (.joined (s := .maxSteps) hmaxSteps (.headless .nil)))
    refine ⟨none, .mk hwritten .none ?_⟩
    exact List.Perm.swap _ _ _
  have hfile : Capped (args "a") "a" 7 3 := hcapped "a" (by decide) (.inr (by decide))
  have hdash : Capped (args "-") "-" 7 3 := hcapped "-" (by decide) (.inl rfl)
  refine ⟨?_, ?_, ?_⟩
  · obtain ⟨e, hends, htells⟩ :=
      ((ends_as_its_run (file echo [0xFF]) hfile).1 (by decide) echo rfl).2 "~,@" (by decide)
    refine ⟨e, (hends e).mpr rfl, htells.failed.mpr ⟨0, .character, ?_⟩⟩
    have hbad : Unreadable [0xFF] 0 := nthLine?_eq_none_iff.mp (by decide +kernel)
    exact ⟨by decide +kernel, by decide +kernel, by decide +kernel, hbad⟩
  · exact ((ends_as_its_run (file [0xFF] echo) hfile).1 (by decide) [0xFF] rfl).1 (by decide)
  · exact (ends_as_its_run (file [] echo) hdash).2 (by decide) rfl (file echo []) _ "a" hfile
      (by decide) rfl rfl

end Launch

end Funge93
