import Funge93.Proofs.Numerals
import Funge93.Proofs.Reference

/-!
# What is printed can be read back

A run without a window prints numbers as numerals with a space behind them, and characters by
their bytes. What it has printed may be given to a program as a line, and the program then gets
the value that was printed.

For numbers this holds of every word. A numeral has no blank characters in it, so the space goes
with whatever blank characters are put around it, and no numeral of a word is too large for one.
For characters it holds of the words that are the code of one. Any other word is printed as the
replacement character, and all that can be read back of it is the code of that.
-/

namespace Funge93

/-! ## Numbers -/

theorem Text.isDigit_of_mem_digits {n : Nat} {c : Char} (h : c ∈ digits n) : c.isDigit = true :=
  Nat.isDigit_of_mem_toDigits (by decide) (by decide) h

namespace Numeral

open Text

/-- The numeral of a sign and the digits of a natural number. -/
theorem exists_digits (negative? : Option Bool) (n : Nat) :
    ∃ numeral : Numeral, numeral.negative? = negative? ∧
      numeral.text = signText negative? ++ Text.digits n ∧ numeral.size = n := by
  obtain ⟨ds, hds⟩ := exists_spelled fun c (hc : c ∈ Text.digits n) => isDigit_of_mem_digits hc
  have hfilled : ds ≠ [] := by
    rintro rfl
    exact Nat.toDigits_ne_nil hds.symm
  refine ⟨⟨negative?, [ds], List.cons_ne_nil _ _, ?_⟩, rfl, ?_, ?_⟩
  · exact List.forall_mem_singleton.mpr hfilled
  · rw [← hds]
    exact congrArg (signText negative? ++ ·) (List.intercalate_singleton)
  · rw [Numeral.size, Numeral.digits, List.flatten_singleton, ← ofDigitChars_spelled, hds]
    exact Nat.ofDigitChars_ten_toDigits

/-- An integer is shown as a numeral. -/
theorem exists_decimal (n : Int) :
    ∃ numeral : Numeral, numeral.text = (decimal n).toList ∧ numeral.value = n := by
  by_cases hn : n < 0
  · obtain ⟨numeral, hsign, htext, hsize⟩ := exists_digits (some true) n.natAbs
    refine ⟨numeral, ?_, ?_⟩
    · rw [htext, decimal, if_pos hn, String.toList_ofList]
      rfl
    · rw [Numeral.value, if_pos hsign, hsize]
      omega
  · obtain ⟨numeral, hsign, htext, hsize⟩ := exists_digits none n.natAbs
    have hpositive : ¬numeral.negative? = some true := by
      rw [hsign]
      decide
    refine ⟨numeral, ?_, ?_⟩
    · rw [htext, decimal, if_neg hn, String.toList_ofList]
      rfl
    · rw [Numeral.value, if_neg hpositive, hsize]
      omega

end Numeral

namespace Text

theorem not_mem_blanks_of_isDigit {c : Char} (h : c.isDigit = true) : c ∉ blanks := by
  intro hmem
  have hnone : blanks.all (fun c => !c.isDigit) = true := by decide
  have hc := List.all_eq_true.mp hnone c hmem
  rw [h] at hc
  cases hc

theorem not_mem_blanks_of_mem_decimal {n : Int} {c : Char} (h : c ∈ (decimal n).toList) :
    c ∉ blanks := by
  have hdigits : ∀ c ∈ digits n.natAbs, c ∉ blanks := fun c hc =>
    not_mem_blanks_of_isDigit (isDigit_of_mem_digits hc)
  rw [decimal] at h
  split at h <;> rw [String.toList_ofList] at h
  · rcases List.mem_cons.mp h with rfl | h
    · decide
    · exact hdigits c h
  · exact hdigits c h

/-- The text of a printed number with blank characters around it, without them. -/
theorem trimmed_printed (n : Int) {before after : String}
    (hbefore : ∀ c ∈ before.toList, c ∈ blanks) (hafter : ∀ c ∈ after.toList, c ∈ blanks) :
    Trimmed (before ++ (decimal n ++ " ") ++ after).toList (decimal n).toList where
  bared := by
    refine ⟨before.toList, ' ' :: after.toList, ?_, hbefore, ?_⟩
    · simp only [String.toList_append, List.append_assoc]
      rfl
    · exact List.forall_mem_cons.mpr ⟨by decide, hafter⟩
  first c hc := not_mem_blanks_of_mem_decimal (List.mem_of_mem_head? hc)
  last c hc := not_mem_blanks_of_mem_decimal (List.mem_of_mem_getLast? hc)

end Text

theorem Input.readInteger_printed (w : Word) {before after : String}
    (hbefore : ∀ c ∈ before.toList, c ∈ Text.blanks)
    (hafter : ∀ c ∈ after.toList, c ∈ Text.blanks) :
    readInteger (before ++ (Text.decimal w.toInt ++ " ") ++ after) = w := by
  obtain ⟨numeral, htext, hvalue⟩ := Numeral.exists_decimal w.toInt
  have hfits : numeral.Fits := by
    rw [Numeral.Fits, hvalue]
    exact ⟨w.le_toInt, Int.le_sub_one_of_lt w.toInt_lt⟩
  rw [readInteger, ← (Text.trimmed_printed w.toInt hbefore hafter).eq_trim, ← htext, numeral?_text,
    Option.bind_some, word?_of_fits hfits, Option.getD_some, hvalue, Int64.ofInt_toInt]

/-! ## Characters -/

namespace Word

/-- Whether a word is the code of a character: not negative, not among the surrogates, and not
beyond the last one. -/
def IsScalar (w : Word) : Prop :=
  0 ≤ w.toInt ∧ w.toInt < 0xD800 ∨ 0xE000 ≤ w.toInt ∧ w.toInt ≤ 0x10FFFF

instance (w : Word) : Decidable w.IsScalar :=
  inferInstanceAs (Decidable (_ ∨ _))

theorem isScalar_iff {w : Word} : w.IsScalar ↔ 0 ≤ w.toInt ∧ w.toInt.toNat.isValidChar := by
  rw [IsScalar, Nat.isValidChar]
  omega

theorem toChar_of_toInt_eq {w : Word} {c : Char} (h : w.toInt = c.toNat) : w.toChar = c := by
  have hcode : w.toInt.toNat = c.toNat := by
    rw [h]
    exact Int.toNat_natCast _
  have hvalid : 0 ≤ w.toInt ∧ w.toInt.toNat.isValidChar :=
    ⟨by omega, by rw [hcode]; exact c.valid⟩
  rw [toChar, if_pos hvalid, hcode, Char.ofNat_toNat]

theorem toChar_of_not_isScalar {w : Word} (h : ¬w.IsScalar) : w.toChar = '\ufffd' :=
  if_neg (mt isScalar_iff.mpr h)

theorem ofChar_eq_of_toInt_eq {w : Word} {c : Char} (h : w.toInt = c.toNat) : ofChar c = w := by
  rw [ofChar, ← h, Int64.ofInt_toInt]

end Word

theorem Input.readCharacter_singleton_append (c : Char) (further : String) :
    readCharacter (String.singleton c ++ further) = Word.ofChar c := by
  rw [readCharacter, String.toList_append, String.toList_singleton]
  rfl

/-! ## Printing and reading back -/

/-- A session gets a value from a line: the value is pushed, which completes the instruction
that has asked. -/
def Session.Gets (s : Session) (line : String) (w : Word) : Prop :=
  ∃ s', s.supply line = (.ok (.did (.pushed w)), s') ∧
    s'.machine = ({ s.machine with status := .running }.push w).finish

theorem Session.gets_of_awaiting {s : Session} {input : Input}
    (h : s.machine.status = .awaiting input) {line : String} {w : Word}
    (hread : input.read line = w) : s.Gets line w := by
  subst hread
  exact ⟨_, s.supply_of_awaiting h line, rfl⟩

namespace Headless

namespace Drive

/-- The next round of a drive executes a character, and its sink has room for whatever is
printed. -/
structure Executes (d : Drive) (c : Char) : Prop where
  live : d.result = none
  below : atLimit d.limit d.session = false
  machine : d.session.machine.Executes
  cell : d.session.machine.cell = c
  unlimited : d.sink.capacity = none

/-- The value on top of the stack. -/
def top (d : Drive) : Word :=
  d.session.machine.stack.peek

theorem Executes.printed {d : Drive} {c : Char} (h : d.Executes c) {text : String}
    (hprints : Reaction.ofOutcome (d.session.machine.execute d.session.source
      (Instruction.ofChar c)).outcome = .print text) :
    Printed d d.turn text := by
  have hattempt : (attempt d.limit d.session).1 =
      (d.session.machine.execute d.session.source (Instruction.ofChar c)).outcome := by
    rw [attempt, h.below, ← h.cell, ← Machine.step_of_executes h.machine]
    rfl
  have hturn : d.turn = { d with session := (attempt d.limit d.session).2 }.print text := by
    simp only [turn, h.live, react, hattempt, hprints]
  rw [hturn]
  obtain ⟨hbytes, hunlimited, hresult⟩ := print_of_unlimited
    (d := { d with session := (attempt d.limit d.session).2 }) text h.unlimited
  exact ⟨hbytes, hunlimited, hresult⟩

end Drive

open Drive

/-- What is printed can be read back. The text printed for a word as a number, alone or with
any blank characters around it, is read as the word by whoever asks for an integer. The text
printed for the code of a character, with anything behind it, is read as the code by whoever
asks for a character. A word that is no such code is printed as the replacement character, and
that is what is read back. -/
theorem printed_is_read_back (d : Drive) :
    (d.Executes '.' → ∃ text, Printed d d.turn text ∧
      ∀ s : Session, s.machine.status = .awaiting .integer → ∀ before after : String,
        (∀ c ∈ before.toList, c ∈ Text.blanks) → (∀ c ∈ after.toList, c ∈ Text.blanks) →
          s.Gets (before ++ text ++ after) d.top) ∧
    (d.Executes ',' → ∀ c : Char, d.top.toInt = c.toNat → ∃ text, Printed d d.turn text ∧
      ∀ s : Session, s.machine.status = .awaiting .character → ∀ further : String,
        s.Gets (text ++ further) d.top) ∧
    (d.Executes ',' → ¬d.top.IsScalar → Printed d d.turn "\ufffd" ∧
      ∀ s : Session, s.machine.status = .awaiting .character → ∀ further : String,
        s.Gets ("\ufffd" ++ further) 65533) := by
  refine ⟨fun h => ⟨_, h.printed rfl, ?_⟩, fun h c hc => ⟨_, h.printed rfl, ?_⟩,
    fun h hnone => ⟨?_, ?_⟩⟩
  · intro s hs before after hbefore hafter
    exact Session.gets_of_awaiting hs (Input.readInteger_printed d.top hbefore hafter)
  · intro s hs further
    show s.Gets (String.singleton d.top.toChar ++ further) d.top
    rw [Word.toChar_of_toInt_eq hc]
    refine Session.gets_of_awaiting hs ?_
    exact (Input.readCharacter_singleton_append c further).trans (Word.ofChar_eq_of_toInt_eq hc)
  · have hprinted : Printed d d.turn (String.singleton d.top.toChar) := h.printed rfl
    rwa [Word.toChar_of_not_isScalar hnone] at hprinted
  · intro s hs further
    exact Session.gets_of_awaiting hs (Input.readCharacter_singleton_append '\ufffd' further)

/-- The least word as a number, a letter by its code, and a word that would be the code of a
letter if its upper half were left out. -/
theorem printed_is_read_back_least :
    let printing := fun (c : Char) (w : Word) =>
      let s := Session.start (Grid.ofLines [[c]]) (.seeded 0)
      Drive.start { s with machine := s.machine.push w } [] none none
    let asking := fun (c : Char) => (Session.start (Grid.ofLines [[c]]) (.seeded 0)).advance.2
    let number := printing '.' Int64.minValue
    let letter := printing ',' 955
    let wide := printing ',' 4294967361
    (number.Executes '.' ∧ ∃ text, Printed number number.turn text ∧
      (asking '&').Gets ("\u3000" ++ text ++ "\r") Int64.minValue) ∧
    (letter.Executes ',' ∧ letter.top.toInt = 'λ'.toNat ∧ ∃ text,
      Printed letter letter.turn text ∧ (asking '~').Gets (text ++ "1") 955) ∧
    (wide.Executes ',' ∧ ¬wide.top.IsScalar ∧ Printed wide wide.turn "\ufffd" ∧
      (asking '~').Gets ("\ufffd" ++ "1") 65533) := by
  intro printing asking number letter wide
  have hcell : ∀ c, (Grid.ofLines [[c]]).get Place.origin = c := by
    intro c
    rw [Grid.ofLines, Grid.get_tabulate]
    rfl
  have hexecutes : ∀ c w, (printing c w).Executes c := fun c w =>
    ⟨rfl, rfl, ⟨rfl, rfl, rfl⟩, hcell c, rfl⟩
  have hinteger : (asking '&').machine.status = .awaiting .integer := by decide +kernel
  have hcharacter : (asking '~').machine.status = .awaiting .character := by decide +kernel
  have hcode : letter.top.toInt = 'λ'.toNat := by decide
  have hwide : ¬wide.top.IsScalar := by decide
  obtain ⟨text, hprinted, hread⟩ := (printed_is_read_back number).1 (hexecutes _ _)
  obtain ⟨text', hprinted', hread'⟩ :=
    (printed_is_read_back letter).2.1 (hexecutes _ _) 'λ' hcode
  obtain ⟨hprinted'', hread''⟩ := (printed_is_read_back wide).2.2 (hexecutes _ _) hwide
  refine ⟨⟨hexecutes _ _, text, hprinted, ?_⟩, ⟨hexecutes _ _, hcode, text', hprinted', ?_⟩,
    hexecutes _ _, hwide, hprinted'', hread'' _ hcharacter "1"⟩
  · exact hread _ hinteger "\u3000" "\r" (List.forall_mem_singleton.mpr (by decide))
      (List.forall_mem_singleton.mpr (by decide))
  · exact hread' _ hcharacter "1"

end Headless

end Funge93
