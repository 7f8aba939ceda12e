import Funge93.Proofs.Parsing

/-!
# Command lines that are refused

Here faults are told from the arguments as they stand, whatever else may be wrong with them. What
stands behind the two dashes is no option any more, so only the arguments in front of them are
looked at. A command line that gives a choice (`Gives`) has none of the faults. For most of them
this is seen from the options alone that its arguments name (`given?`), since these are the options
of its wishes in the same order.
-/

namespace Funge93.CommandLine

/-! ## Faults -/

/-- The arguments in front of the two dashes that end the options. -/
def optionPart (args : List String) : List String :=
  args.takeWhile (· != "--")

/-- An argument gives an option, with a value or without. -/
def GivesOption (name arg : String) : Prop :=
  ∃ value, arg = longText name value

/-- Some argument stands where a program is expected: behind the two dashes, or anywhere else
unless it looks like an option or is the value of one. -/
def NamesProgram (args : List String) : Prop :=
  ∃ before path after, args = before ++ path :: after ∧
    ("--" ∈ before ∨ Plain path ∧ ∀ s : Setting, before.getLast? ≠ some ("--" ++ s.name))

inductive Faulty (args : List String) : Prop where
  /-- An option is given twice. -/
  | repeated {name first second : String}
      (hname : name = "headless" ∨ ∃ s : Setting, name = s.name)
      (hfirst : GivesOption name first) (hsecond : GivesOption name second)
      (h : [first, second].Sublist (optionPart args))
  /-- The steps are limited, but not of a run without a window. -/
  | limited {arg : String} (hlimit : GivesOption "max-steps" arg) (h : arg ∈ optionPart args)
      (hheadless : "--headless" ∉ optionPart args)
  | nameless (h : ¬NamesProgram args)
  /-- What stands behind the equals sign is no number of 64 bits. -/
  | joined {s : Setting} {text : String} (h : "--" ++ s.name ++ "=" ++ text ∈ optionPart args)
      (htext : ∀ n, ¬SpellsWord text n)
  /-- The next argument is no number of 64 bits, or there is none. -/
  | apart {s : Setting} {before after : List String}
      (h : args = before ++ ("--" ++ s.name) :: after) (hbefore : "--" ∉ before)
      (htext : ∀ text ∈ after.head?, ∀ n, ¬SpellsWord text n)

/-! ## The options that arguments name -/

/-- The option that an argument names. -/
def given? (arg : String) : Option String :=
  match Shape.of arg with
  | .long name _ => some name
  | _ => none

section Given

variable {arg name : String} {value : Option String} {ws ws' : List Wish} {args args' : List String}

theorem given?_longText (value : Option String)
    (hname : name = "headless" ∨ ∃ s : Setting, name = s.name) :
    given? (longText name value) = some name := by
  have hshape : Shape.of (longText name value) = .long name value := by
    rcases hname with rfl | ⟨s, rfl⟩
    · exact Shape.of_longText (by decide) (by decide)
    · exact Setting.of_longText s value
  rw [given?, hshape]

theorem given?_plain (h : Plain arg) : given? arg = none := by
  rw [given?, Shape.of_eq_plain_iff.mpr h]

theorem Written.append_iff :
    Written (ws ++ ws') args ↔
      ∃ front rest, args = front ++ rest ∧ Written ws front ∧ Written ws' rest := by
  constructor
  · intro h
    induction ws generalizing args with
    | nil => exact ⟨[], args, rfl, .nil, h⟩
    | cons w ws ih =>
        cases h with
        | program hne hplain h =>
            obtain ⟨front, rest, rfl, hfront, hrest⟩ := ih h
            exact ⟨_ :: front, rest, rfl, .program hne hplain hfront, hrest⟩
        | apart hn h =>
            obtain ⟨front, rest, rfl, hfront, hrest⟩ := ih h
            exact ⟨_ :: _ :: front, rest, rfl, .apart hn hfront, hrest⟩
        | joined hn h =>
            obtain ⟨front, rest, rfl, hfront, hrest⟩ := ih h
            exact ⟨_ :: front, rest, rfl, .joined hn hfront, hrest⟩
        | headless h =>
            obtain ⟨front, rest, rfl, hfront, hrest⟩ := ih h
            exact ⟨_ :: front, rest, rfl, .headless hfront, hrest⟩
  · rintro ⟨front, rest, rfl, hfront, hrest⟩
    induction hfront with
    | nil => exact hrest
    | program hne hplain h ih => exact .program hne hplain ih
    | apart hn h ih => exact .apart hn ih
    | joined hn h ih => exact .joined hn ih
    | headless h ih => exact .headless ih

/-- The arguments name the options of the wishes that they are written for. -/
theorem Written.given (h : Written ws args) : args.filterMap given? = ws.filterMap Wish.name? := by
  induction h with
  | nil => rfl
  | program hne hplain h ih =>
      rw [List.filterMap_cons_none (given?_plain hplain), ih]
      rfl
  | @apart s text n ws args hn h ih =>
      have hgiven : given? ("--" ++ s.name) = some s.name :=
        given?_longText none (.inr ⟨s, rfl⟩)
      rw [List.filterMap_cons_some hgiven, List.filterMap_cons_none (given?_plain hn.plain), ih]
      rfl
  | @joined s text n ws args hn h ih =>
      have hgiven : given? ("--" ++ s.name ++ "=" ++ text) = some s.name :=
        given?_longText (some text) (.inr ⟨s, rfl⟩)
      rw [List.filterMap_cons_some hgiven, ih]
      rfl
  | headless h ih =>
      have hgiven : given? "--headless" = some "headless" :=
        given?_longText none (.inl rfl)
      rw [List.filterMap_cons_some hgiven, ih]
      rfl

/-! ## What stands among the arguments of wishes -/

theorem not_plain_longText : ¬Plain (longText name value) := by
  rw [Plain, ← String.toList_inj]
  cases value <;> simp [longText]

theorem Setting.longText_inj {s s' : Setting} {value' : Option String}
    (h : longText s.name value = longText s'.name value') : value = value' := by
  have hshape := Setting.of_longText s value
  rw [h, Setting.of_longText] at hshape
  exact (Shape.long.inj hshape).2.symm

theorem Setting.longText_ne_headless (s : Setting) :
    longText s.name value ≠ longText "headless" none := by
  intro h
  have hshape := Setting.of_longText s value
  rw [h, Shape.of_longText (by decide) (by decide)] at hshape
  exact s.name_ne_headless (Shape.long.inj hshape).1.symm

/-- An argument is of one of four kinds. -/
theorem Written.cases_mem (h : Written ws args) (harg : arg ∈ args) :
    Plain arg ∨ (∃ s : Setting, arg = longText s.name none) ∨
      (∃ (s : Setting) (text : String) (n : Nat),
        arg = longText s.name (some text) ∧ SpellsWord text n) ∨
      arg = longText "headless" none := by
  induction h with
  | nil => cases harg
  | program hne hplain h ih =>
      rcases List.mem_cons.mp harg with rfl | harg
      · exact .inl hplain
      · exact ih harg
  | apart hn h ih =>
      rcases List.mem_cons.mp harg with rfl | harg
      · exact .inr (.inl ⟨_, rfl⟩)
      · rcases List.mem_cons.mp harg with rfl | harg
        · exact .inl hn.plain
        · exact ih harg
  | joined hn h ih =>
      rcases List.mem_cons.mp harg with rfl | harg
      · exact .inr (.inr (.inl ⟨_, _, _, rfl, hn⟩))
      · exact ih harg
  | headless h ih =>
      rcases List.mem_cons.mp harg with rfl | harg
      · exact .inr (.inr (.inr rfl))
      · exact ih harg

theorem Written.dashes_not_mem (h : Written ws args) : "--" ∉ args := by
  intro hmem
  have hshape : Shape.of "--" = .endOfOptions := Shape.of_eq_endOfOptions_iff.mpr rfl
  rcases h.cases_mem hmem with hplain | ⟨s, harg⟩ | ⟨s, text, n, harg, -⟩ | harg
  · rw [Shape.of_eq_plain_iff.mpr hplain] at hshape
    cases hshape
  · rw [harg, Setting.of_longText] at hshape
    cases hshape
  · rw [harg, Setting.of_longText] at hshape
    cases hshape
  · exact absurd harg (by decide)

theorem Written.spells_of_joined {s : Setting} {text : String} (h : Written ws args)
    (hmem : longText s.name (some text) ∈ args) : ∃ n, SpellsWord text n := by
  rcases h.cases_mem hmem with hplain | ⟨s', harg⟩ | ⟨s', text', n, harg, hn⟩ | harg
  · exact absurd hplain not_plain_longText
  · cases Setting.longText_inj harg
  · cases Setting.longText_inj harg
    exact ⟨n, hn⟩
  · exact absurd harg s.longText_ne_headless

/-- An option without an equals sign has its value behind it. -/
theorem Written.spells_of_apart {s : Setting} {before after : List String} (h : Written ws args)
    (hargs : args = before ++ longText s.name none :: after) :
    ∃ text ∈ after.head?, ∃ n, SpellsWord text n := by
  induction h generalizing before with
  | nil => simp at hargs
  | program hne hplain h ih =>
      rcases before with _ | ⟨arg, before⟩
      · rw [(List.cons.inj hargs).1] at hplain
        exact absurd hplain not_plain_longText
      · exact ih (List.cons.inj hargs).2
  | apart hn h ih =>
      rcases before with _ | ⟨arg, _ | ⟨arg', before⟩⟩
      · obtain ⟨-, rfl⟩ := List.cons.inj hargs
        exact ⟨_, rfl, _, hn⟩
      · have hplain := hn.plain
        rw [(List.cons.inj (List.cons.inj hargs).2).1] at hplain
        exact absurd hplain not_plain_longText
      · exact ih (List.cons.inj (List.cons.inj hargs).2).2
  | @joined s' text n ws args hn h ih =>
      rcases before with _ | ⟨arg, before⟩
      · have harg : longText s'.name (some text) = longText s.name none := (List.cons.inj hargs).1
        cases Setting.longText_inj harg
      · exact ih (List.cons.inj hargs).2
  | headless h ih =>
      rcases before with _ | ⟨arg, before⟩
      · exact absurd (List.cons.inj hargs).1.symm s.longText_ne_headless
      · exact ih (List.cons.inj hargs).2

/-- The last argument of wishes is no option that lacks its value. -/
theorem Written.getLast?_ne (h : Written ws args) (s : Setting) :
    args.getLast? ≠ some (longText s.name none) := by
  intro hlast
  obtain ⟨before, rfl⟩ := List.getLast?_eq_some_iff.mp hlast
  obtain ⟨text, htext, -⟩ := h.spells_of_apart rfl
  cases htext

end Given

/-! ## What is accepted and what is not -/

section Whole

variable {args tail : List String} {ws ws' : List Wish} {c : Choice}

theorem optionPart_append (h : Written ws args) (hend : Ending ws' tail) :
    optionPart (args ++ tail) = args := by
  have hall : ∀ arg ∈ args, (arg != "--") = true := by
    intro arg harg
    rw [bne_iff_ne]
    rintro rfl
    exact h.dashes_not_mem harg
  have htail : tail.takeWhile (· != "--") = [] := by
    cases hend <;> rfl
  rw [optionPart, List.takeWhile_append_of_pos hall, htail, List.append_nil]

theorem nodup_given (h : (ws.map Wish.name?).Nodup) : (ws.filterMap Wish.name?).Nodup := by
  have hmap : ws.filterMap Wish.name? = (ws.map Wish.name?).filterMap id := by
    rw [List.filterMap_map]
    rfl
  rw [hmap]
  refine h.filterMap fun name name' given hname hname' => ?_
  exact (Option.mem_def.mp hname).trans (Option.mem_def.mp hname').symm

/-- The wishes behind the options are no options. -/
theorem Ending.eq_program (h : Ending ws tail) {w : Wish} (hw : w ∈ ws) :
    ∃ path, w = .program path ∧ tail = ["--", path] := by
  cases h with
  | none => cases hw
  | dashes => cases hw
  | program hne => exact ⟨_, List.mem_singleton.mp hw, rfl⟩

theorem Written.headless_mem (h : Written ws args) (hw : .headless ∈ ws) :
    "--headless" ∈ args := by
  obtain ⟨before, after, rfl⟩ := List.append_of_mem hw
  obtain ⟨front, rest, rfl, -, hrest⟩ := Written.append_iff.mp h
  cases hrest with
  | headless h => simp

theorem Gives.namesProgram (h : Gives args c) : NamesProgram args := by
  obtain ⟨hwritten, hending, hws⟩ := h
  rcases List.mem_append.mp (hws.mem_iff.mpr List.mem_cons_self) with hw | hw
  · obtain ⟨before, after, rfl⟩ := List.append_of_mem hw
    obtain ⟨front, rest, rfl, hfront, hrest⟩ := Written.append_iff.mp hwritten
    cases hrest with
    | program hne hplain h =>
        exact ⟨front, c.program, _, List.append_assoc _ _ _, .inr ⟨hplain, hfront.getLast?_ne⟩⟩
  · obtain ⟨path, -, rfl⟩ := hending.eq_program hw
    exact ⟨_, path, [], (List.append_assoc _ ["--"] [path]).symm, .inl (by simp)⟩

/-- An option that stands in front of the two dashes stands among the wishes. -/
theorem eq_append_of_front {s : Setting} {before after : List String} (hend : Ending ws tail)
    (h : args ++ tail = before ++ longText s.name none :: after) (hbefore : "--" ∉ before) :
    ∃ after', args = before ++ longText s.name none :: after' ∧ after = after' ++ tail := by
  have hhead : ∀ arg rest, tail = arg :: rest → arg = "--" := by
    intro arg rest htail
    cases hend <;> cases htail <;> rfl
  have hdashes : longText s.name none ≠ "--" := by
    cases s <;> decide
  rcases List.append_eq_append_iff.mp h with ⟨between, rfl, htail⟩ | ⟨between, rfl, hafter⟩
  · cases between with
    | nil => exact absurd (hhead _ _ htail) hdashes
    | cons arg between =>
        exact absurd (by simp [hhead _ _ htail]) hbefore
  · cases between with
    | nil => exact absurd (hhead _ _ hafter.symm) hdashes
    | cons arg between =>
        obtain ⟨rfl, rfl⟩ := List.cons.inj hafter
        exact ⟨between, rfl, rfl⟩

/-- A command line that gives a choice that is allowed has no fault. -/
theorem Gives.not_faulty (h : Gives args c) (hallowed : c.Allowed) : ¬Faulty args := by
  intro hfaulty
  have hnames := h.namesProgram
  obtain ⟨hwritten, hending, hws⟩ := h
  cases hfaulty with
  | @repeated name first second hname hfirst hsecond h =>
      rw [optionPart_append hwritten hending] at h
      obtain ⟨value, rfl⟩ := hfirst
      obtain ⟨value', rfl⟩ := hsecond
      have hgiven := h.filterMap given?
      rw [hwritten.given, List.filterMap_cons_some (given?_longText _ hname),
        List.filterMap_cons_some (given?_longText _ hname)] at hgiven
      have hnodup := (hws.map Wish.name?).nodup_iff.mpr c.nodup_names
      rw [List.map_append] at hnodup
      exact List.nodup_iff_sublist.mp (nodup_given hnodup.of_append_left) name hgiven
  | @limited arg hlimit h hheadless =>
      rw [optionPart_append hwritten hending] at h hheadless
      obtain ⟨value, rfl⟩ := hlimit
      have hgiven := List.mem_filterMap.mpr
        ⟨_, h, given?_longText value (.inr ⟨.maxSteps, rfl⟩)⟩
      rw [hwritten.given] at hgiven
      obtain ⟨w, hw, hname⟩ := List.mem_filterMap.mp hgiven
      -- The limit is among the wishes, so the run without a window has to be as well.
      have hmaxSteps : c.maxSteps.isSome = true := by
        have hmem := hws.mem_iff.mp (List.mem_append_left _ hw)
        rcases w with path | ⟨s, n⟩ | _
        · cases hname
        · have hs : s.name = Setting.maxSteps.name := Option.some.inj hname
          obtain rfl := Setting.name_injective hs
          rw [Option.isSome_iff_exists]
          exact ⟨n, Choice.mem_wishes_iff.mp ((List.mem_cons.mp hmem).resolve_left nofun)⟩
        · exact absurd (Option.some.inj hname).symm (Setting.name_ne_headless .maxSteps)
      have hmem := hws.mem_iff.mpr
        (List.mem_cons_of_mem _ ((Choice.mem_wishes_iff (w := .headless)).mpr (hallowed hmaxSteps)))
      rcases List.mem_append.mp hmem with hfront | hbehind
      · exact hheadless (hwritten.headless_mem hfront)
      · obtain ⟨path, hpath, -⟩ := hending.eq_program hbehind
        cases hpath
  | nameless h => exact h hnames
  | joined h htext =>
      rw [optionPart_append hwritten hending] at h
      obtain ⟨n, hn⟩ := hwritten.spells_of_joined h
      exact htext n hn
  | apart h hbefore htext =>
      obtain ⟨after, rfl, rfl⟩ := eq_append_of_front hending h hbefore
      obtain ⟨text, htext', n, hn⟩ := hwritten.spells_of_apart rfl
      refine htext text ?_ n hn
      rw [List.head?_append, Option.mem_def.mp htext']
      rfl

/-- However a choice is written, it is what the command line is taken for, and nothing is taken for
a choice that was not written as one. In particular no command line with a fault is taken for
anything. -/
theorem taken_for_what_is_given (args : List String) :
    (∀ c, Gives args c → c.Allowed → parse args = .ok c.options) ∧
      (∀ o, parse args = .ok o → ∃ c, Gives args c ∧ c.Allowed ∧ c.options = o) ∧
      (Faulty args → ∀ o, parse args ≠ .ok o) := by
  refine ⟨?_, ?_, ?_⟩
  · intro c hgives hallowed
    exact parse_eq_ok_iff.mpr ⟨c, hgives, hallowed, rfl⟩
  · intro o h
    exact parse_eq_ok_iff.mp h
  · intro hfaulty o h
    obtain ⟨c, hgives, hallowed, -⟩ := parse_eq_ok_iff.mp h
    exact hgives.not_faulty hallowed hfaulty

/-- A single dash as the program, a plus sign and zeros in front of numbers, and the two dashes with
nothing behind them; and a setting given twice, a limit in a window, a number just too large. -/
theorem taken_for_what_is_given_dash :
    parse ["--seed=+007", "-", "--max-steps", "18446744073709551615", "--headless", "--"] =
        .ok ⟨"-", 30, some 7, true, some (2 ^ 64 - 1)⟩ ∧
      (∃ c, Gives ["p", "--delay-ms", "5"] c ∧ c.Allowed ∧
        c.options = ⟨"p", 5, none, false, none⟩) ∧
      (∀ o, parse ["--seed", "1", "p", "--seed=1"] ≠ .ok o) ∧
      (∀ o, parse ["--max-steps", "5", "--", "--headless"] ≠ .ok o) ∧
      ∀ o, parse ["--seed", "18446744073709551616", "p"] ≠ .ok o := by
  have hseed : SpellsWord "+007" 7 := number?_eq_some_iff.mp (by decide)
  have hmaxSteps : SpellsWord "18446744073709551615" (2 ^ 64 - 1) :=
    number?_eq_some_iff.mp (by decide)
  have hwritten := Written.joined (s := .seed) hseed (.program (by decide) (.inl rfl)
    (.apart (s := .maxSteps) hmaxSteps (.headless .nil)))
  refine ⟨?_, ?_, ?_, ?_, ?_⟩
  · exact (taken_for_what_is_given _).1 ⟨"-", none, some 7, some (2 ^ 64 - 1), true⟩
      (.mk hwritten .dashes (by decide)) fun _ => rfl
  · exact (taken_for_what_is_given _).2.1 _ (by decide)
  · exact (taken_for_what_is_given _).2.2
      (.repeated (.inr ⟨.seed, rfl⟩) ⟨none, rfl⟩ ⟨some "1", rfl⟩ (by decide))
  · exact (taken_for_what_is_given _).2.2 (.limited ⟨none, rfl⟩ (by decide) (by decide))
  · have hargs : ["--seed", "18446744073709551616", "p"] =
        [] ++ ("--" ++ Setting.seed.name) :: ["18446744073709551616", "p"] := by decide
    have hnone : number? "18446744073709551616" = none := by decide
    refine (taken_for_what_is_given _).2.2 (.apart hargs List.not_mem_nil ?_)
    intro text htext n hn
    cases htext
    rw [number?_eq_some_iff.mpr hn] at hnone
    cases hnone

end Whole

end Funge93.CommandLine
