import Funge93.Input
import Mathlib.Data.List.DropRight
import Mathlib.Data.Nat.Digits.Defs

/-!
# Numerals

What a line holds between its blank ends is read as an integer if it is a numeral: a sign
or none, and digits in groups that are joined by single underscores. A `Numeral` is given
by its parts and not by its text, so every numeral has a value, and what is left to show is
that reading goes back from the text to the value and finds none where there is no numeral.

The groups are read from the front with a flag for what came last. The flag says whether a
group has begun, so what may follow is the rest of that group, which can be empty only if
it has begun, and then any number of further groups (`groupedDigits?_eq_some_iff`). A sign
is told from the groups by its character, since no digit looks like one.

What the blank ends are is settled by the text alone: what remains begins and ends with
something else, so nothing more can be taken off and nothing less (`Trimmed.eq_trim`).
-/

namespace Funge93

namespace Text

/-- The characters with the property White_Space. -/
def blanks : List Char :=
  ['\t', '\n', '\x0b', '\x0c', '\r', ' ', '\u0085', '\u00a0', '\u1680', '\u2000', '\u2001',
   '\u2002', '\u2003', '\u2004', '\u2005', '\u2006', '\u2007', '\u2008', '\u2009', '\u200a',
   '\u2028', '\u2029', '\u202f', '\u205f', '\u3000']

theorem isBlank_iff {c : Char} : isBlank c = true ↔ c ∈ blanks := by
  constructor
  · intro h
    have hcode : c.toNat ∈ blanks.map Char.toNat := by
      simp only [isBlank, Bool.or_eq_true, Bool.and_eq_true, decide_eq_true_eq,
        beq_iff_eq] at h
      show c.toNat ∈ [9, 10, 11, 12, 13, 32, 133, 160, 5760, 8192, 8193, 8194, 8195, 8196,
        8197, 8198, 8199, 8200, 8201, 8202, 8232, 8233, 8239, 8287, 12288]
      simp only [List.mem_cons, List.not_mem_nil, or_false]
      omega
    obtain ⟨d, hmem, hcode⟩ := List.mem_map.mp hcode
    rwa [← Char.toNat_inj.mp hcode]
  · intro h
    have hall : blanks.all isBlank = true := by decide
    exact List.all_eq_true.mp hall c h

/-- A text and what is left of it when all blank characters are taken off its ends. -/
structure Trimmed (text inner : List Char) : Prop where
  bared : ∃ before after, text = before ++ inner ++ after ∧
    (∀ c ∈ before, c ∈ blanks) ∧ ∀ c ∈ after, c ∈ blanks
  first : ∀ c ∈ inner.head?, c ∉ blanks
  last : ∀ c ∈ inner.getLast?, c ∉ blanks

section Trim

variable {text inner : List Char}

theorem dropWhile_isBlank_eq_self (h : ∀ c ∈ text.head?, c ∉ blanks) :
    text.dropWhile isBlank = text := by
  cases text with
  | nil => rfl
  | cons c rest =>
      refine List.dropWhile_cons_of_neg ?_
      rw [isBlank_iff]
      exact h c rfl

theorem Trimmed.eq_trim (h : Trimmed text inner) : inner = trim text := by
  obtain ⟨before, after, rfl, hbefore, hafter⟩ := h.bared
  have hstart : (inner ++ after).dropWhile isBlank =
      inner ++ if inner = [] then [] else after := by
    split
    · next hinner =>
        rw [hinner]
        exact List.dropWhile_eq_nil_iff.mpr fun c hc => isBlank_iff.mpr (hafter c hc)
    · next hinner =>
        refine dropWhile_isBlank_eq_self ?_
        rw [List.head?_append_of_ne_nil _ hinner]
        exact h.first
  have hend : ∀ c ∈ (if inner = [] then [] else after).reverse, isBlank c = true := by
    intro c hc
    rw [List.mem_reverse] at hc
    split at hc
    · cases hc
    · exact isBlank_iff.mpr (hafter c hc)
  rw [trim, List.append_assoc,
    List.dropWhile_append_of_pos fun c hc => isBlank_iff.mpr (hbefore c hc), hstart, dropEnd,
    List.reverse_append, List.dropWhile_append_of_pos hend, dropWhile_isBlank_eq_self ?_,
    List.reverse_reverse]
  rw [List.head?_reverse]
  exact h.last

theorem trimmed_trim (text : List Char) : Trimmed text (trim text) where
  bared := by
    refine ⟨text.takeWhile isBlank, (text.dropWhile isBlank).rtakeWhile isBlank, ?_, ?_, ?_⟩
    · have hend : trim text ++ (text.dropWhile isBlank).rtakeWhile isBlank =
          text.dropWhile isBlank := List.rdropWhile_append_rtakeWhile
      rw [List.append_assoc, hend, List.takeWhile_append_dropWhile]
    · exact fun c hc => isBlank_iff.mp (List.mem_takeWhile_imp hc)
    · exact fun c hc => isBlank_iff.mp (List.mem_rtakeWhile_imp hc)
  first c hc := by
    obtain ⟨after, hsplit⟩ : trim text <+: text.dropWhile isBlank := List.rdropWhile_prefix _ _
    have hstop := List.head?_dropWhile_not isBlank text
    rw [← hsplit, List.head?_append, Option.mem_def.mp hc] at hstop
    rw [← isBlank_iff]
    exact Bool.eq_false_iff.mp hstop
  last c hc := by
    obtain ⟨hne, rfl⟩ := List.mem_getLast?_eq_getLast hc
    rw [← isBlank_iff]
    exact List.rdropWhile_last_not isBlank _ hne

end Trim

end Text

/-! ## Numerals and their texts -/

/-- A numeral by its parts: a sign or none, and groups of digits. There is a group, and no
group is empty. -/
structure Numeral where
  /-- Whether there is a minus sign, if there is a sign. -/
  negative? : Option Bool
  groups : List (List (Fin 10))
  grouped : groups ≠ []
  filled : ∀ group ∈ groups, group ≠ []

namespace Numeral

def digit (d : Fin 10) : Char :=
  d.val.digitChar

def spelled (ds : List (Fin 10)) : List Char :=
  ds.map digit

def signText : Option Bool → List Char
  | none => []
  | some false => ['+']
  | some true => ['-']

/-- The digits of all groups, the most significant first. -/
def digits (n : Numeral) : List (Fin 10) :=
  n.groups.flatten

def text (n : Numeral) : List Char :=
  signText n.negative? ++ ['_'].intercalate (n.groups.map spelled)

def size (n : Numeral) : Nat :=
  Nat.ofDigits 10 (n.digits.reverse.map Fin.val)

def value (n : Numeral) : Int :=
  if n.negative? = some true then -n.size else n.size

/-- Whether the value of a numeral is a number of 64 bits with a sign. -/
def Fits (n : Numeral) : Prop :=
  -2 ^ 63 ≤ n.value ∧ n.value ≤ 2 ^ 63 - 1

/-! ## Digits -/

theorem toNat_digit (d : Fin 10) : (digit d).toNat = d.val + 48 := by
  rw [digit, Nat.toNat_digitChar_of_lt_ten d.isLt]
  exact Nat.add_comm _ _

theorem isDigit_digit : ∀ d : Fin 10, (digit d).isDigit = true := by
  decide

/-- What has the look of a digit is one. -/
theorem exists_digit_of_isDigit {c : Char} (h : c.isDigit = true) : ∃ d, c = digit d := by
  have hcode : 48 ≤ c.toNat ∧ c.toNat ≤ 57 := by
    simp only [Char.isDigit, Bool.and_eq_true, decide_eq_true_eq] at h
    exact h
  refine ⟨⟨c.toNat - 48, by omega⟩, Char.toNat_inj.mp ?_⟩
  rw [toNat_digit]
  exact (Nat.sub_add_cancel hcode.1).symm

theorem exists_spelled {text : List Char} (h : ∀ c ∈ text, c.isDigit = true) :
    ∃ ds, spelled ds = text := by
  induction text with
  | nil => exact ⟨[], rfl⟩
  | cons c rest ih =>
      obtain ⟨hc, hrest⟩ := List.forall_mem_cons.mp h
      obtain ⟨d, rfl⟩ := exists_digit_of_isDigit hc
      obtain ⟨ds, rfl⟩ := ih hrest
      exact ⟨d :: ds, rfl⟩

theorem ofDigitChars_spelled (ds : List (Fin 10)) :
    Nat.ofDigitChars 10 (spelled ds) 0 = Nat.ofDigits 10 (ds.reverse.map Fin.val) := by
  induction ds using List.reverseRecOn with
  | nil => rfl
  | append_singleton ds d ih =>
      have hcode : (digit d).toNat - '0'.toNat = d.val := by
        rw [toNat_digit]
        exact Nat.add_sub_cancel _ _
      rw [spelled, List.map_append, Nat.ofDigitChars_append, List.map_singleton,
        Nat.ofDigitChars_cons, Nat.ofDigitChars_nil, hcode, ← spelled, ih, List.reverse_concat,
        List.map_cons, Nat.ofDigits_cons]
      exact Nat.add_comm _ _

/-! ## Groups -/

/-- The text of a group and of further groups behind it. -/
def joined (group : List (Fin 10)) (more : List (List (Fin 10))) : List Char :=
  spelled group ++ more.flatMap fun g => '_' :: spelled g

theorem intercalate_spelled (group : List (Fin 10)) (more : List (List (Fin 10))) :
    ['_'].intercalate ((group :: more).map spelled) = joined group more := by
  induction more generalizing group with
  | nil => simp [joined]
  | cons next more ih =>
      rw [List.map_cons, List.map_cons, List.intercalate_cons_cons, ← List.map_cons, ih,
        List.append_assoc]
      rfl

theorem joined_eq_nil {group : List (Fin 10)} {more : List (List (Fin 10))}
    (h : joined group more = []) : group = [] ∧ more = [] := by
  obtain ⟨hgroup, hmore⟩ := List.append_eq_nil_iff.mp h
  refine ⟨List.map_eq_nil_iff.mp hgroup, ?_⟩
  cases more with
  | nil => rfl
  | cons next more => cases hmore

/-- What grouped digits begin with: a digit of the first group, or the underscore behind it. -/
theorem joined_eq_cons {group : List (Fin 10)} {more : List (List (Fin 10))} {c : Char}
    {rest : List Char} (h : joined group more = c :: rest) :
    (∃ d group', group = d :: group' ∧ c = digit d ∧ rest = joined group' more) ∨
      ∃ next more', group = [] ∧ more = next :: more' ∧ c = '_' ∧ rest = joined next more' := by
  cases group with
  | cons d group' =>
      obtain ⟨hc, hrest⟩ := List.cons.inj h
      exact .inl ⟨d, group', rfl, hc.symm, hrest.symm⟩
  | nil =>
      cases more with
      | nil => cases h
      | cons next more' =>
          obtain ⟨hc, hrest⟩ := List.cons.inj h
          exact .inr ⟨next, more', rfl, rfl, hc.symm, hrest.symm⟩

end Numeral

namespace Input

open Numeral

variable {text ds : List Char}

/-- What is read as grouped digits: the rest of a group, which is missing only if the group
has begun, and further groups. -/
theorem groupedDigits?_eq_some_iff {afterDigit : Bool} :
    groupedDigits? afterDigit text = some ds ↔
      ∃ group more, (afterDigit = false → group ≠ []) ∧ (∀ g ∈ more, g ≠ []) ∧
        joined group more = text ∧ ds = spelled (group ++ more.flatten) := by
  induction text generalizing afterDigit ds with
  | nil =>
      rw [groupedDigits?]
      constructor
      · intro h
        split at h
        · next hbegun =>
            cases h
            exact ⟨[], [], fun hfresh => absurd hbegun (Bool.eq_false_iff.mp hfresh), nofun,
              rfl, rfl⟩
        · cases h
      · rintro ⟨group, more, hgroup, -, htext, rfl⟩
        obtain ⟨rfl, rfl⟩ := joined_eq_nil htext
        rw [if_pos (Bool.of_not_eq_false fun hfresh => hgroup hfresh rfl)]
        rfl
  | cons c rest ih =>
      rw [groupedDigits?]
      split
      · next hdigit =>
          rw [Option.map_eq_some_iff]
          constructor
          · rintro ⟨ds, hds, rfl⟩
            obtain ⟨d, rfl⟩ := exists_digit_of_isDigit hdigit
            obtain ⟨group, more, -, hmore, rfl, rfl⟩ := ih.mp hds
            exact ⟨d :: group, more, fun _ => List.cons_ne_nil _ _, hmore, rfl, rfl⟩
          · rintro ⟨group, more, -, hmore, htext, rfl⟩
            obtain ⟨d, group, rfl, rfl, rfl⟩ | ⟨next, more, rfl, rfl, rfl, rfl⟩ :=
              joined_eq_cons htext
            · exact ⟨_, ih.mpr ⟨group, more, nofun, hmore, rfl, rfl⟩, rfl⟩
            · cases hdigit
      · next hdigit =>
          split
          · next hunderscore =>
              obtain ⟨rfl, hbegun⟩ := hunderscore
              rw [ih]
              constructor
              · rintro ⟨group, more, hgroup, hmore, rfl, rfl⟩
                refine ⟨[], group :: more, fun hfresh => ?_, ?_, rfl, rfl⟩
                · exact absurd hbegun (Bool.eq_false_iff.mp hfresh)
                · exact List.forall_mem_cons.mpr ⟨hgroup rfl, hmore⟩
              · rintro ⟨group, more, -, hmore, htext, rfl⟩
                obtain ⟨d, group, rfl, hd, rfl⟩ | ⟨next, more, rfl, rfl, -, rfl⟩ :=
                  joined_eq_cons htext
                · exact absurd (hd ▸ isDigit_digit d) hdigit
                · obtain ⟨hnext, hmore⟩ := List.forall_mem_cons.mp hmore
                  exact ⟨next, more, fun _ => hnext, hmore, rfl, rfl⟩
          · next hother =>
              -- Neither a digit nor an underscore behind one can begin grouped digits.
              refine iff_of_false nofun ?_
              rintro ⟨group, more, hgroup, -, htext, -⟩
              obtain ⟨d, group, rfl, rfl, -⟩ | ⟨next, more, rfl, -, rfl, -⟩ :=
                joined_eq_cons htext
              · exact hdigit (isDigit_digit d)
              · exact hother ⟨rfl, Bool.of_not_eq_false fun hfresh => hgroup hfresh rfl⟩

theorem natural?_eq_some_iff {size : Nat} :
    natural? text = some size ↔
      ∃ n : Numeral, n.negative? = none ∧ n.text = text ∧ n.size = size := by
  rw [natural?, Option.map_eq_some_iff]
  constructor
  · rintro ⟨ds, hds, rfl⟩
    obtain ⟨group, more, hgroup, hmore, rfl, rfl⟩ := groupedDigits?_eq_some_iff.mp hds
    refine ⟨⟨none, group :: more, List.cons_ne_nil _ _, ?_⟩, rfl, ?_, ?_⟩
    · exact List.forall_mem_cons.mpr ⟨hgroup rfl, hmore⟩
    · exact intercalate_spelled group more
    · exact (ofDigitChars_spelled _).symm
  · rintro ⟨⟨negative?, groups, hgrouped, hfilled⟩, rfl, rfl, rfl⟩
    obtain ⟨group, more, rfl⟩ := List.exists_cons_of_ne_nil hgrouped
    obtain ⟨hgroup, hmore⟩ := List.forall_mem_cons.mp hfilled
    refine ⟨spelled (group ++ more.flatten), ?_, ofDigitChars_spelled _⟩
    exact groupedDigits?_eq_some_iff.mpr
      ⟨group, more, fun _ => hgroup, hmore, (intercalate_spelled group more).symm, rfl⟩

/-! ## Signs -/

/-- The reading of a text that begins with a digit looks for no sign. -/
theorem numeral?_digit (d : Fin 10) (rest : List Char) :
    numeral? (digit d :: rest) = (natural? (digit d :: rest)).map Int.ofNat := by
  have hdigit := isDigit_digit d
  rw [numeral?.eq_def]
  split
  · next hplus =>
      rw [(List.cons.inj hplus).1] at hdigit
      cases hdigit
  · next hminus =>
      rw [(List.cons.inj hminus).1] at hdigit
      cases hdigit
  · rfl

theorem numeral?_text (n : Numeral) : numeral? n.text = some n.value := by
  obtain ⟨negative?, groups, hgrouped, hfilled⟩ := n
  have hsize : natural? (['_'].intercalate (groups.map spelled)) =
      some (Numeral.mk none groups hgrouped hfilled).size :=
    natural?_eq_some_iff.mpr ⟨⟨none, groups, hgrouped, hfilled⟩, rfl, rfl, rfl⟩
  rcases negative? with _ | _ | _
  · obtain ⟨group, more, rfl⟩ := List.exists_cons_of_ne_nil hgrouped
    obtain ⟨d, ds, rfl⟩ := List.exists_cons_of_ne_nil (hfilled group List.mem_cons_self)
    rw [intercalate_spelled] at hsize
    show numeral? (['_'].intercalate _) = _
    rw [intercalate_spelled]
    exact (numeral?_digit d _).trans (congrArg (Option.map Int.ofNat) hsize)
  · exact congrArg (Option.map Int.ofNat) hsize
  · exact congrArg (Option.map fun size => -Int.ofNat size) hsize

theorem exists_numeral {v : Int} (h : numeral? text = some v) :
    ∃ n : Numeral, n.text = text ∧ n.value = v := by
  rw [numeral?.eq_def] at h
  split at h
  · obtain ⟨size, hsize, rfl⟩ := Option.map_eq_some_iff.mp h
    obtain ⟨n, hsign, rfl, rfl⟩ := natural?_eq_some_iff.mp hsize
    refine ⟨{ n with negative? := some false }, ?_, rfl⟩
    rw [Numeral.text, Numeral.text, hsign]
    rfl
  · obtain ⟨size, hsize, rfl⟩ := Option.map_eq_some_iff.mp h
    obtain ⟨n, hsign, rfl, rfl⟩ := natural?_eq_some_iff.mp hsize
    refine ⟨{ n with negative? := some true }, ?_, rfl⟩
    rw [Numeral.text, Numeral.text, hsign]
    rfl
  · obtain ⟨size, hsize, rfl⟩ := Option.map_eq_some_iff.mp h
    obtain ⟨n, hsign, rfl, rfl⟩ := natural?_eq_some_iff.mp hsize
    refine ⟨n, rfl, ?_⟩
    rw [Numeral.value, hsign, if_neg nofun]
    rfl

/-- A text that is the text of two numerals gives them one value. -/
theorem value_eq_of_text_eq {n n' : Numeral} (h : n.text = n'.text) : n.value = n'.value :=
  Option.some.inj ((numeral?_text n).symm.trans ((congrArg numeral? h).trans (numeral?_text n')))

/-! ## Words -/

theorem word?_of_fits {n : Numeral} (h : n.Fits) : word? n.value = some (Int64.ofInt n.value) := by
  rw [word?, Int64.toInt_minValue, Int64.toInt_maxValue]
  exact if_pos h

theorem word?_of_not_fits {n : Numeral} (h : ¬n.Fits) : word? n.value = none := by
  rw [word?, Int64.toInt_minValue, Int64.toInt_maxValue]
  exact if_neg h

/-- A line is read as the value of the numeral that stands between its blank ends, if there
is one and its value is a word. Otherwise it is read as zero. -/
theorem integer_is_value_of_numeral (line : String) :
    ∃ inner, Text.Trimmed line.toList inner ∧
      (∀ inner', Text.Trimmed line.toList inner' → inner' = inner) ∧
      (∀ n n' : Numeral, n.text = inner → n'.text = inner → n.value = n'.value) ∧
      (∀ n : Numeral, n.text = inner → n.Fits → (readInteger line).toInt = n.value) ∧
      ((∀ n : Numeral, n.text = inner → ¬n.Fits) → readInteger line = 0) := by
  refine ⟨Text.trim line.toList, Text.trimmed_trim _, fun _ h => h.eq_trim, ?_, ?_, ?_⟩
  · exact fun n n' htext htext' => value_eq_of_text_eq (htext.trans htext'.symm)
  · intro n htext hfits
    have hread : readInteger line = Int64.ofInt n.value := by
      rw [readInteger, ← htext, numeral?_text, Option.bind_some, word?_of_fits hfits]
      rfl
    rw [hread]
    exact Int64.toInt_ofInt_of_le hfits.1 (Int.lt_of_le_sub_one hfits.2)
  · intro hnone
    rw [readInteger]
    cases hnumeral : numeral? (Text.trim line.toList) with
    | none => rfl
    | some v =>
        obtain ⟨n, htext, rfl⟩ := exists_numeral hnumeral
        rw [Option.bind_some, word?_of_not_fits (hnone n htext)]
        rfl

/-- The least word, between blank characters of which neither is a space, and the same digits
with the other sign. -/
theorem integer_is_value_of_numeral_least :
    let groups : List (List (Fin 10)) :=
      [[0, 9], [2, 2, 3, 3, 7, 2, 0, 3, 6, 8, 5, 4, 7, 7, 5, 8, 0, 8]]
    let least : Numeral := ⟨some true, groups, by decide, by decide⟩
    let beyond : Numeral := ⟨some false, groups, by decide, by decide⟩
    least.text = "-09_223372036854775808".toList ∧ least.Fits ∧
      (readInteger "\u3000-09_223372036854775808\r").toInt = -2 ^ 63 ∧
      beyond.text = "+09_223372036854775808".toList ∧ ¬beyond.Fits ∧
      readInteger "+09_223372036854775808" = 0 := by
  intro groups least beyond
  have hvalue : least.value = -2 ^ 63 := by decide
  have hvalue' : beyond.value = 2 ^ 63 := by decide
  have hfits : least.Fits := by rw [Numeral.Fits, hvalue]; omega
  have hfits' : ¬beyond.Fits := by rw [Numeral.Fits, hvalue']; omega
  have htext : least.text = Text.trim "\u3000-09_223372036854775808\r".toList := by decide
  have htext' : beyond.text = Text.trim "+09_223372036854775808".toList := by decide
  obtain ⟨inner, -, honly, -, hread, -⟩ :=
    integer_is_value_of_numeral "\u3000-09_223372036854775808\r"
  obtain ⟨inner', -, honly', hsame, -, hzero⟩ :=
    integer_is_value_of_numeral "+09_223372036854775808"
  have hinner := htext.trans (honly _ (Text.trimmed_trim _))
  have hinner' := htext'.trans (honly' _ (Text.trimmed_trim _))
  refine ⟨by decide, hfits, ?_, by decide, hfits', hzero fun n hn => ?_⟩
  · rw [hread least hinner hfits, hvalue]
  · rw [Numeral.Fits, hsame n beyond hn hinner']
    exact hfits'

end Input

end Funge93
