import Funge93.CommandLine
import Funge93.Proofs.Numerals

/-!
# What arguments give

A command line gives wishes: a program, numbers for some settings, or that no window be opened.
`Written` says how wishes are written as arguments, one after the other, and is all that has to
be believed about the command line. It knows nothing of how arguments are read. A number goes
behind an equals sign or is an argument of its own, and it may be spelled with leading zeros and
a plus sign. `Ending` is what may stand behind them, two dashes with or without the program. `Gives`
puts a whole command line together: its wishes come in any order, each of them once.

What an argument looks like from outside (`Shape`) is decided by its first characters alone. The
lemmas on shapes go both ways, from an argument to its shape and back, since a command line that
was read has to be taken apart into the wishes that were written.
-/

namespace Funge93.CommandLine

/-! ## Numbers -/

/-- Digits, with as many zeros in front as one likes, and a plus sign in front of all or none. -/
def Spells (text : String) (n : Nat) : Prop :=
  ∃ (plus : Bool) (ds : List (Fin 10)), ds ≠ [] ∧
    text.toList = (if plus then ['+'] else []) ++ Numeral.spelled ds ∧
    Nat.ofDigits 10 (ds.reverse.map Fin.val) = n

/-- A number that fits into 64 bits, in one of its spellings. -/
def SpellsWord (text : String) (n : Nat) : Prop :=
  Spells text n ∧ n < 2 ^ 64

section Number

variable {text : String} {digits : List Char}

theorem number?_of_unsigned
    (h : text.toList = '+' :: digits ∨ text.toList = digits ∧ digits.head? ≠ some '+') :
    number? text =
      if digits.isEmpty || !digits.all Char.isDigit ||
        18446744073709551616 ≤ Nat.ofDigitChars 10 digits 0 then none
      else some (Nat.ofDigitChars 10 digits 0) := by
  rcases h with h | ⟨h, hsign⟩
  · rw [number?, h]
    rfl
  · rw [number?, h]
    cases digits with
    | nil => rfl
    | cons c rest =>
        split
        · next hplus =>
            rw [(List.cons.inj hplus).1] at hsign
            exact absurd rfl hsign
        · rfl

theorem number?_eq_some_iff_unsigned {n : Nat}
    (h : text.toList = '+' :: digits ∨ text.toList = digits ∧ digits.head? ≠ some '+') :
    number? text = some n ↔
      digits ≠ [] ∧ (∀ c ∈ digits, c.isDigit = true) ∧ Nat.ofDigitChars 10 digits 0 = n ∧
        n < 2 ^ 64 := by
  rw [number?_of_unsigned h]
  split
  · next hbad =>
      refine iff_of_false nofun ?_
      rintro ⟨hne, hall, rfl, hlt⟩
      have hempty : digits.isEmpty = false := List.isEmpty_eq_false_iff.mpr hne
      have hdigits : digits.all Char.isDigit = true := List.all_eq_true.mpr hall
      rw [hempty, hdigits] at hbad
      simp at hbad
      omega
  · next hgood =>
      simp only [Bool.or_eq_true, not_or, Bool.not_eq_true, List.isEmpty_eq_false_iff,
        Bool.not_eq_false', List.all_eq_true, decide_eq_false_iff_not, Nat.not_le] at hgood
      obtain ⟨⟨hne, hall⟩, hlt⟩ := hgood
      constructor
      · intro hn
        cases hn
        exact ⟨hne, hall, rfl, hlt⟩
      · rintro ⟨-, -, rfl, -⟩
        rfl

/-- Digits do not begin with anything else. -/
theorem head?_spelled_ne {c : Char} (hc : c.isDigit = false) (ds : List (Fin 10)) :
    (Numeral.spelled ds).head? ≠ some c := by
  cases ds with
  | nil => nofun
  | cons d ds =>
      intro h
      rw [← Option.some.inj h, Numeral.isDigit_digit] at hc
      cases hc

/-- What is read as a number is what spells one of 64 bits. -/
theorem number?_eq_some_iff {n : Nat} : number? text = some n ↔ SpellsWord text n := by
  constructor
  · intro h
    -- A plus sign is told from the digits by looking at it.
    obtain ⟨plus, digits, htext, hsplit⟩ : ∃ (plus : Bool) (digits : List Char),
        text.toList = (if plus then ['+'] else []) ++ digits ∧
          (text.toList = '+' :: digits ∨ text.toList = digits ∧ digits.head? ≠ some '+') := by
      by_cases hplus : text.toList.head? = some '+'
      · obtain ⟨digits, hdigits⟩ := List.head?_eq_some_iff.mp hplus
        exact ⟨true, digits, hdigits, .inl hdigits⟩
      · exact ⟨false, text.toList, rfl, .inr ⟨rfl, hplus⟩⟩
    obtain ⟨hne, hall, hvalue, hlt⟩ := (number?_eq_some_iff_unsigned hsplit).mp h
    obtain ⟨ds, rfl⟩ := Numeral.exists_spelled hall
    refine ⟨⟨plus, ds, ?_, htext, (Numeral.ofDigitChars_spelled ds).symm.trans hvalue⟩, hlt⟩
    rintro rfl
    exact hne rfl
  · rintro ⟨⟨plus, ds, hne, htext, hvalue⟩, hlt⟩
    have hsplit : text.toList = '+' :: Numeral.spelled ds ∨
        text.toList = Numeral.spelled ds ∧ (Numeral.spelled ds).head? ≠ some '+' := by
      cases plus with
      | true => exact .inl htext
      | false => exact .inr ⟨htext, head?_spelled_ne (by decide) ds⟩
    refine (number?_eq_some_iff_unsigned hsplit).mpr
      ⟨?_, ?_, (Numeral.ofDigitChars_spelled _).trans hvalue, hlt⟩
    · exact mt List.map_eq_nil_iff.mp hne
    · intro c hc
      obtain ⟨d, -, rfl⟩ := List.mem_map.mp hc
      exact Numeral.isDigit_digit d

end Number

/-! ## Looks -/

/-- An argument that does not look like an option. A single dash does not. -/
def Plain (arg : String) : Prop :=
  arg = "-" ∨ arg.toList.head? ≠ some '-'

/-- An option as it is written: its name behind two dashes, and perhaps a value behind an equals
sign. -/
def longText (name : String) : Option String → String
  | none => "--" ++ name
  | some value => "--" ++ name ++ "=" ++ value

namespace Shape

variable {arg name : String} {value : Option String}

theorem of_eq_plain_iff : Shape.of arg = .plain ↔ Plain arg := by
  rw [Shape.of, Plain, ← String.toList_inj]
  split
  · next h => simp [h]
  · next h =>
      rw [h, ofLong]
      refine iff_of_false ?_ (by simp)
      split <;> nofun
  · next h => simp [h]
  · next hlong hshort =>
      refine iff_of_true rfl ?_
      cases hargs : arg.toList with
      | nil => exact .inr nofun
      | cons c rest =>
          by_cases hc : c = '-'
          · subst hc
            cases rest with
            | nil => exact .inl rfl
            | cons letter more => exact absurd hargs (hshort letter more)
          · exact .inr fun h => hc (Option.some.inj h)

theorem of_eq_endOfOptions_iff : Shape.of arg = .endOfOptions ↔ arg = "--" := by
  rw [Shape.of, ← String.toList_inj]
  split
  · next h => exact iff_of_true rfl h
  · next text hmore h =>
      rw [ofLong]
      refine iff_of_false ?_ fun hend => hmore ?_
      · split <;> nofun
      · rw [h] at hend
        simpa using hend
  · next hsingle h =>
      refine iff_of_false nofun fun hend => hsingle ?_
      rw [h] at hend
      exact (List.cons.inj (List.cons.inj hend).2).1
  · next hend hlong hshort => exact iff_of_false nofun hend

theorem ofLong_eq (hname : '=' ∉ name.toList) :
    ofLong (name.toList ++ (value.elim [] fun v => '=' :: v.toList)) = .long name value := by
  have hall : ∀ c ∈ name.toList, (c != '=') = true := by
    intro c hc
    rw [bne_iff_ne]
    rintro rfl
    exact hname hc
  rw [ofLong, List.takeWhile_append_of_pos hall, List.dropWhile_append_of_pos hall]
  cases value <;> simp

theorem of_dashes {text : List Char} (h : arg.toList = '-' :: '-' :: text) (hne : text ≠ []) :
    Shape.of arg = ofLong text := by
  obtain ⟨c, rest, rfl⟩ := List.exists_cons_of_ne_nil hne
  rw [Shape.of, h]
  rfl

/-- An option that is written looks like one. -/
theorem of_longText (hname : '=' ∉ name.toList) (hne : name ≠ "") :
    Shape.of (longText name value) = .long name value := by
  rw [of_dashes ?_ ?_, ofLong_eq hname]
  · cases value <;> simp [longText]
  · simp [hne]

/-- What looks like an option is written as one. -/
theorem eq_longText (h : Shape.of arg = .long name value) : arg = longText name value := by
  rw [Shape.of] at h
  split at h
  · cases h
  · next text hmore htext =>
      rw [← String.toList_inj, htext]
      have hsplit : text.takeWhile (· != '=') ++ text.dropWhile (· != '=') = text :=
        List.takeWhile_append_dropWhile
      have hstop := List.head?_dropWhile_not (· != '=') text
      rw [ofLong] at h
      split at h
      · next hrest =>
          cases h
          rw [hrest, List.append_nil] at hsplit
          simp [longText, hsplit]
      · next c rest hrest =>
          cases h
          rw [hrest] at hsplit hstop
          obtain rfl : c = '=' := by simpa using hstop
          simpa [longText] using hsplit.symm
  · cases h
  · cases h

end Shape

/-! ## Wishes -/

/-- What a command line may ask for. -/
inductive Wish where
  | program (path : String)
  | setting (s : Setting) (n : Nat)
  | headless
deriving DecidableEq

/-- The option that a wish is given by. A program is given by none. -/
def Wish.name? : Wish → Option String
  | program _ => none
  | setting s _ => some s.name
  | headless => some "headless"

/-- Wishes, and the arguments that they are written as. -/
inductive Written : List Wish → List String → Prop where
  | nil : Written [] []
  | program {path : String} {ws : List Wish} {args : List String} (hne : path ≠ "")
      (hplain : Plain path) (h : Written ws args) :
      Written (.program path :: ws) (path :: args)
  | apart {s : Setting} {text : String} {n : Nat} {ws : List Wish} {args : List String}
      (hn : SpellsWord text n) (h : Written ws args) :
      Written (.setting s n :: ws) (("--" ++ s.name) :: text :: args)
  | joined {s : Setting} {text : String} {n : Nat} {ws : List Wish} {args : List String}
      (hn : SpellsWord text n) (h : Written ws args) :
      Written (.setting s n :: ws) (("--" ++ s.name ++ "=" ++ text) :: args)
  | headless {ws : List Wish} {args : List String} (h : Written ws args) :
      Written (.headless :: ws) ("--headless" :: args)

/-- All that a command line asks for. -/
structure Choice where
  program : String
  delay : Option Nat
  seed : Option Nat
  maxSteps : Option Nat
  headless : Bool

namespace Choice

/-- The wishes of a choice besides its program. -/
def wishes (c : Choice) : List Wish :=
  (c.delay.map (Wish.setting .delay)).toList ++ (c.seed.map (Wish.setting .seed)).toList ++
    (c.maxSteps.map (Wish.setting .maxSteps)).toList ++ if c.headless then [.headless] else []

/-- A limit on the steps is for runs without a window only. -/
def Allowed (c : Choice) : Prop :=
  c.maxSteps.isSome = true → c.headless = true

/-- A choice with what goes without saying: a delay of 30 milliseconds. -/
def options (c : Choice) : Options where
  program := c.program
  delay := c.delay.getD 30
  seed := c.seed
  headless := c.headless
  maxSteps := c.maxSteps

end Choice

/-- What may stand behind the options: nothing, or two dashes and perhaps a program, which may
look like an option there. -/
inductive Ending : List Wish → List String → Prop where
  | none : Ending [] []
  | dashes : Ending [] ["--"]
  | program {path : String} (hne : path ≠ "") : Ending [.program path] ["--", path]

/-- A command line gives a choice: its program and its wishes, each of them once and in any
order. -/
inductive Gives : List String → Choice → Prop where
  | mk {c : Choice} {front behind : List Wish} {args tail : List String} (h : Written front args)
      (hend : Ending behind tail)
      (hws : (front ++ behind).Perm (.program c.program :: c.wishes)) : Gives (args ++ tail) c

/-! What wishes look like. -/

namespace Setting

theorem name_injective {s s' : Setting} (h : s.name = s'.name) : s = s' := by
  revert h
  cases s <;> cases s' <;> decide

theorem name_ne_headless (s : Setting) : s.name ≠ "headless" := by
  cases s <;> decide

theorem ofName?_name (s : Setting) : ofName? s.name = some s := by
  cases s <;> decide

theorem eq_name_of_ofName? {name : String} {s : Setting} (h : ofName? name = some s) :
    name = s.name :=
  (eq_of_beq (List.find?_some (p := fun s : Setting => s.name == name) h)).symm

theorem of_longText (s : Setting) (value : Option String) :
    Shape.of (longText s.name value) = .long s.name value := by
  refine Shape.of_longText ?_ ?_ <;> cases s <;> decide

end Setting

theorem Shape.of_headless : Shape.of "--headless" = .long "headless" none := by
  decide

theorem SpellsWord.plain {text : String} {n : Nat} (h : SpellsWord text n) : Plain text := by
  obtain ⟨⟨plus, ds, -, htext, -⟩, -⟩ := h
  refine .inr ?_
  rw [htext]
  cases plus with
  | true => nofun
  | false => exact head?_spelled_ne (by decide) ds

theorem Choice.mem_wishes_iff {c : Choice} {w : Wish} :
    w ∈ c.wishes ↔
      match w with
      | .program _ => False
      | .setting .delay n => c.delay = some n
      | .setting .seed n => c.seed = some n
      | .setting .maxSteps n => c.maxSteps = some n
      | .headless => c.headless = true := by
  obtain ⟨path, delay, seed, maxSteps, headless⟩ := c
  rcases w with path | ⟨s, n⟩ | _
  · cases headless <;> simp [wishes]
  · cases s <;> cases headless <;> simp [wishes]
  · cases headless <;> simp [wishes]

/-- No two wishes of a choice are given by the same option. -/
theorem Choice.nodup_names (c : Choice) :
    ((Wish.program c.program :: c.wishes).map Wish.name?).Nodup := by
  obtain ⟨path, delay, seed, maxSteps, headless⟩ := c
  cases delay <;> cases seed <;> cases maxSteps <;> cases headless <;>
    simp [wishes, Wish.name?, Setting.name]

end Funge93.CommandLine
