import Funge93.Proofs.Rereading
import Funge93.Proofs.StatusLine

/-!
# A text tells its event

Whoever reads the texts of the events and nothing else still knows what every instruction
did. That takes two things.

The kind of an event is told by the words that its text opens with. No such opening is the
beginning of another one, so a text has one opening only, whatever comes behind it
(`opening_eq_of_text_eq`). Some of them are close: three begin with the same letter, and the
two kinds of output are the same up to the bracket.

Behind the opening each kind has a form of its own, and each form is read back part by part.
A numeral ends where something comes that is neither a digit nor a minus sign, so a column
and a row cannot run into each other. A quoted character stands last, so it may be anything,
a bracket or a quote among them. Its escapes are told from the characters that stand for
themselves by their length, and from each other by what comes behind the backslash. That a
character stands for itself is a matter of a table, but which table does not matter here.
-/

namespace Funge93

/-! ## Numerals -/

namespace Text

theorem decimal_inj {m n : Int} (h : decimal m = decimal n) : m = n := by
  obtain ⟨numeral, htext, hvalue⟩ := Numeral.exists_decimal m
  obtain ⟨numeral', htext', hvalue'⟩ := Numeral.exists_decimal n
  have hsame : numeral.text = numeral'.text := by rw [htext, htext', h]
  rw [← hvalue, ← hvalue', Input.value_eq_of_text_eq hsame]

theorem mem_decimal {n : Int} {c : Char} (h : c ∈ (decimal n).toList) :
    c = '-' ∨ c.isDigit = true := by
  rw [decimal] at h
  split at h <;> rw [String.toList_ofList] at h
  · rcases List.mem_cons.mp h with rfl | hdigit
    · exact .inl rfl
    · exact .inr (isDigit_of_mem_digits hdigit)
  · exact .inr (isDigit_of_mem_digits h)

/-- The text in front of a character that does not occur in it is settled, and so is the
text behind the character. -/
theorem append_cons_inj {c : Char} {xs xs' ys ys' : List Char} (hxs : c ∉ xs) (hxs' : c ∉ xs')
    (h : xs ++ c :: ys = xs' ++ c :: ys') : xs = xs' ∧ ys = ys' := by
  -- The character may come up again behind, so `List.append_cons_inj_of_notMem` does not do.
  have hfront : ∀ {zs : List Char} (ws : List Char), c ∉ zs →
      (zs ++ c :: ws).takeWhile (· != c) = zs := by
    intro zs ws hzs
    rw [List.takeWhile_append_of_pos]
    · simp
    · intro d hd
      rw [bne_iff_ne]
      rintro rfl
      exact hzs hd
  have hsame : xs = xs' := by
    rw [← hfront ys hxs, h, hfront ys' hxs']
  subst hsame
  exact ⟨rfl, (List.cons.inj (List.append_cancel_left h)).2⟩

/-- A numeral is told from what comes behind it by a character that is not part of one. -/
theorem decimal_append_inj {m n : Int} {c : Char} {ys ys' : List Char} (hsign : c ≠ '-')
    (hdigit : c.isDigit = false) (h : (decimal m).toList ++ c :: ys =
      (decimal n).toList ++ c :: ys') : m = n ∧ ys = ys' := by
  have hends : ∀ n : Int, c ∉ (decimal n).toList := by
    intro n hmem
    rcases mem_decimal hmem with hminus | hsome
    · exact hsign hminus
    · rw [hdigit] at hsome
      cases hsome
  obtain ⟨hfront, hbehind⟩ := append_cons_inj (hends m) (hends n) h
  exact ⟨decimal_inj (String.toList_inj.mp hfront), hbehind⟩

theorem digitChar_inj {a b : Nat} (ha : a < 16) (hb : b < 16) (h : a.digitChar = b.digitChar) :
    a = b := by
  have hall : ∀ a b : Fin 16, a.val.digitChar = b.val.digitChar → a = b := by decide
  exact Fin.mk.inj (hall ⟨a, ha⟩ ⟨b, hb⟩ h)

/-- A number is settled by its hexadecimal digits. -/
theorem hexDigits_inj {m n : Nat} (h : Nat.toDigits 16 m = Nat.toDigits 16 n) : m = n := by
  have hone : ∀ k < 16, Nat.toDigits 16 k = [k.digitChar] := fun k =>
    Nat.toDigits_of_lt_base
  have hmore : ∀ k, 16 ≤ k →
      Nat.toDigits 16 k = Nat.toDigits 16 (k / 16) ++ [(k % 16).digitChar] := by
    intro k hk
    rw [Nat.toDigits_eq_if (by decide), if_neg (Nat.not_lt.mpr hk)]
  have hlong : ∀ k, 16 ≤ k → 1 < (Nat.toDigits 16 k).length := by
    intro k hk
    rw [hmore k hk, List.length_append]
    exact Nat.lt_add_of_pos_left Nat.length_toDigits_pos
  induction m using Nat.strongRecOn generalizing n with
  | ind m ih =>
      rcases Nat.lt_or_ge m 16 with hm | hm <;> rcases Nat.lt_or_ge n 16 with hn | hn
      · rw [hone m hm, hone n hn] at h
        exact digitChar_inj hm hn (List.cons.inj h).1
      · have hlength := hlong n hn
        rw [← h, hone m hm] at hlength
        exact absurd hlength (by simp)
      · have hlength := hlong m hm
        rw [h, hone n hn] at hlength
        exact absurd hlength (by simp)
      · rw [hmore m hm, hmore n hn] at h
        obtain ⟨hupper, hlast⟩ := List.append_inj' h rfl
        have hquotient := ih (m / 16) (by omega) hupper
        have hrest := digitChar_inj (Nat.mod_lt m (by decide)) (Nat.mod_lt n (by decide))
          (List.cons.inj hlast).1
        omega

/-! ## Quoted characters -/

/-- The characters that have a short escape, each with the letter that it is escaped by. -/
def shortEscapes : List (Char × Char) :=
  [('\x00', '0'), ('\t', 't'), ('\n', 'n'), ('\r', 'r'), ('\x27', '\x27'), ('\\', '\\')]

theorem eq_of_shortEscapes {c d letter : Char} (hc : (c, letter) ∈ shortEscapes)
    (hd : (d, letter) ∈ shortEscapes) : c = d := by
  have hall : ∀ p ∈ shortEscapes, ∀ q ∈ shortEscapes, p.2 = q.2 → p.1 = q.1 := by decide
  exact hall _ hc _ hd rfl

theorem escaped_cases (c : Char) :
    escaped c = [c] ∨ (∃ letter, (c, letter) ∈ shortEscapes ∧ escaped c = ['\\', letter]) ∨
      escaped c = codeEscape c := by
  rw [escaped]
  repeat' split
  all_goals first
    | exact .inl rfl
    | exact .inr (.inr rfl)
    | (subst_vars
       exact .inr (.inl ⟨_, by decide, rfl⟩))

theorem codeEscape_inj {c d : Char} (h : codeEscape c = codeEscape d) : c = d := by
  rw [codeEscape, codeEscape] at h
  simp only [List.cons.injEq, true_and] at h
  exact Char.toNat_inj.mp (hexDigits_inj (List.append_cancel_right h))

theorem escaped_inj {c d : Char} (h : escaped c = escaped d) : c = d := by
  have hcode := length_codeEscape c
  have hcode' := length_codeEscape d
  have hlength := congrArg List.length h
  rcases escaped_cases c with hc | ⟨letter, hletter, hc⟩ | hc <;>
    rcases escaped_cases d with hd | ⟨letter', hletter', hd⟩ | hd <;>
    rw [hc, hd] at h hlength
  case inl.inl => exact (List.cons.inj h).1
  case inr.inl.inr.inl =>
    obtain rfl : letter = letter' := (List.cons.inj (List.cons.inj h).2).1
    exact eq_of_shortEscapes hletter hletter'
  case inr.inr.inr.inr => exact codeEscape_inj h
  -- Two kinds of escapes have not the same length.
  all_goals
    simp only [List.length_cons, List.length_nil] at hlength
    omega

theorem quoted_inj {c d : Char} (h : quoted c = quoted d) : c = d := by
  have hlists := congrArg String.toList h
  rw [quoted, quoted, String.toList_ofList, String.toList_ofList] at hlists
  exact escaped_inj (List.append_cancel_right (List.cons.inj hlists).2)

end Text

open Text

theorem Word.eq_of_decimal_eq {v w : Word} (h : decimal v.toInt = decimal w.toInt) : v = w :=
  Int64.toInt_inj.mp (decimal_inj h)

theorem Heading.text_inj {h h' : Heading} (htext : h.text = h'.text) : h = h' := by
  cases h <;> cases h' <;> first | rfl | exact absurd htext (by decide)

namespace Event

/-! ## The two parts of a text -/

/-- The words that the text of an event opens with. -/
def opening : Event → String
  | turned _ => "Direction: "
  | pushed _ => "Push: "
  | dropped _ => "Pop: "
  | stored _ _ => "Put: ("
  | printedInteger _ => "Output(int): "
  | printedCharacter _ => "Output(char): "
  | stringMode _ => "String mode: "
  | bridged => "Bridge"
  | idle => "Nop"

/-- What the text of an event goes on to tell. -/
def particulars : Event → String
  | turned heading => heading.text
  | pushed value => decimal value.toInt
  | dropped value => decimal value.toInt
  | stored place value =>
    decimal place.x.val ++ "," ++ decimal place.y.val ++ ") <- " ++ quoted value
  | printedInteger value => decimal value.toInt
  | printedCharacter value => quoted value
  | stringMode on => if on then "on" else "off"
  | bridged => ""
  | idle => ""

def openings : List String :=
  ["Direction: ", "Push: ", "Pop: ", "Put: (", "Output(int): ", "Output(char): ",
    "String mode: ", "Bridge", "Nop"]

variable {e f : Event}

theorem text_eq (e : Event) : e.text = e.opening ++ e.particulars := by
  cases e with
  | stored place value => simp only [text, opening, particulars, String.append_assoc]
  | _ => rfl

theorem opening_mem (e : Event) : e.opening ∈ openings := by
  cases e <;> simp [opening, openings]

/-- No opening is the beginning of another one. -/
theorem openings_apart : ∀ s ∈ openings, ∀ t ∈ openings, s.toList <+: t.toList → s = t := by
  decide +kernel

theorem opening_eq_of_text_eq (h : e.text = f.text) : e.opening = f.opening := by
  have hopens : ∀ e : Event, e.opening.toList <+: e.text.toList := by
    intro e
    rw [text_eq, String.toList_append]
    exact List.prefix_append _ _
  have hopens' := hopens e
  rw [h] at hopens'
  rcases List.prefix_or_prefix_of_prefix hopens' (hopens f) with hprefix | hprefix
  · exact openings_apart _ e.opening_mem _ f.opening_mem hprefix
  · exact (openings_apart _ f.opening_mem _ e.opening_mem hprefix).symm

theorem particulars_eq_of_text_eq (h : e.text = f.text) : e.particulars = f.particulars := by
  have hopening := opening_eq_of_text_eq h
  rw [text_eq, text_eq, hopening] at h
  exact (String.append_right_inj _).mp h

theorem stored_inj {p q : Place} {c d : Char}
    (h : (stored p c).particulars = (stored q d).particulars) : stored p c = stored q d := by
  have hlists := congrArg String.toList h
  simp only [particulars, String.toList_append, List.append_assoc] at hlists
  obtain ⟨hx, hbehind⟩ := decimal_append_inj (c := ',') (by decide) (by decide) hlists
  obtain ⟨hy, hbehind'⟩ := decimal_append_inj (c := ')') (by decide) (by decide) hbehind
  have hplace : p = q := by
    obtain ⟨px, py⟩ := p
    obtain ⟨qx, qy⟩ := q
    rw [Place.mk.injEq]
    exact ⟨Fin.ext (Int.ofNat.inj hx), Fin.ext (Int.ofNat.inj hy)⟩
  have hvalue : quoted c = quoted d :=
    String.toList_inj.mp (List.append_cancel_left hbehind')
  rw [hplace, quoted_inj hvalue]

/-- The text of an event tells which event it is. -/
theorem texts_tell_events_apart (e f : Event) : e.text = f.text ↔ e = f := by
  refine ⟨fun h => ?_, congrArg text⟩
  have hopening := opening_eq_of_text_eq h
  have hrest := particulars_eq_of_text_eq h
  cases e <;> cases f
  case turned.turned => exact congrArg turned (Heading.text_inj hrest)
  case pushed.pushed => exact congrArg pushed (Word.eq_of_decimal_eq hrest)
  case dropped.dropped => exact congrArg dropped (Word.eq_of_decimal_eq hrest)
  case stored.stored => exact stored_inj hrest
  case printedInteger.printedInteger =>
    exact congrArg printedInteger (Word.eq_of_decimal_eq hrest)
  case printedCharacter.printedCharacter => exact congrArg printedCharacter (quoted_inj hrest)
  case stringMode.stringMode on on' =>
    cases on <;> cases on' <;> first | rfl | exact absurd hrest (by decide)
  case bridged.bridged => rfl
  case idle.idle => rfl
  all_goals exact absurd hopening (by simp [opening])

end Event

end Funge93
