import Funge93.Grid
import Funge93.Proofs.SessionCalls
import Funge93.Session.Display
import Mathlib.Data.List.Infix

/-!
# What the status line shows

Three texts share the 80 columns of the status line: where the pointer stands and on what,
the end of the output, and a note while a string is read. The first is 27 columns wide and
the literal of the character under the pointer, which takes up to 12 more. So it is always
there in full, and of the other two whatever still fits.

A literal of more than four columns is one that spells its code. With any other there is
room for the last 40 characters of the output, but not for the note behind so many. No line
of 80 columns has room for all that (`literal_add_recent_le`), so what is shown is decided
by the order of the three. And the note is told by its text alone, so output that reads
like it is taken for it.
-/

namespace Funge93

/-! ## The width of a literal -/

namespace Text

theorem length_quoted (c : Char) : (quoted c).length = (escaped c).length + 2 := by
  rw [quoted, String.length_ofList, List.length_cons, List.length_append]
  rfl

theorem length_codeEscape (c : Char) :
    5 ≤ (codeEscape c).length ∧ (codeEscape c).length ≤ 10 := by
  have hcode : c.toNat < 16 ^ 6 := by
    have hvalid : c.toNat.isValidChar := c.valid
    rcases hvalid with hlow | ⟨-, hhigh⟩ <;> omega
  have hpos : 0 < (Nat.toDigits 16 c.toNat).length := Nat.length_toDigits_pos
  have hshort : (Nat.toDigits 16 c.toNat).length ≤ 6 :=
    (Nat.length_toDigits_le_iff (by decide) (by decide)).mpr hcode
  simp only [codeEscape, List.length_cons, List.length_append, List.length_nil]
  omega

/-- What stands between the quotes is the character, a short escape or its code. -/
theorem length_escaped (c : Char) :
    (escaped c).length = 1 ∨ (escaped c).length = 2 ∨ escaped c = codeEscape c := by
  rw [escaped]
  repeat' split
  all_goals first
    | exact .inl rfl
    | exact .inr (.inl rfl)
    | exact .inr (.inr rfl)

/-- A literal takes 3 to 12 columns, and more than 4 only if it spells the code. -/
theorem quoted_bounds (c : Char) :
    3 ≤ (quoted c).length ∧ (quoted c).length ≤ 12 ∧
      (escaped c ≠ codeEscape c → (quoted c).length ≤ 4) := by
  have hcode := length_codeEscape c
  rw [length_quoted]
  obtain hone | htwo | hspelled := length_escaped c
  · omega
  · omega
  · rw [hspelled]
    exact ⟨by omega, by omega, fun hne => absurd rfl hne⟩

end Text

/-! ## The parts of the line -/

/-- A number below a hundred in two columns, with a space in front if it has one digit. -/
def twoColumns (n : Nat) : List Char :=
  [if n < 10 then ' ' else (n / 10).digitChar, (n % 10).digitChar]

theorem padLeft_decimal : ∀ n : Fin Torus.width,
    Text.padLeft 2 (Text.decimal n.val) = String.ofList (twoColumns n.val) := by
  decide +kernel

/-- A heading as the move that it stands for. -/
def Heading.move : Heading → List Char
  | east => "(+1,+0)".toList
  | west => "(-1,+0)".toList
  | south => "(+0,+1)".toList
  | north => "(+0,-1)".toList

theorem Heading.length_move (h : Heading) : h.move.length = 7 := by
  cases h <;> rfl

theorem Heading.text_eq (h : Heading) : h.text = String.ofList h.move := by
  cases h <;> decide

namespace Machine

variable (m : Machine)

/-- Where the pointer stands, which way it faces and what it stands on. -/
def standing : List Char :=
  "IP:(".toList ++ twoColumns m.place.x.val ++ ",".toList ++ twoColumns m.place.y.val ++
    ") Dir:".toList ++ m.heading.move ++ " Cmd:".toList ++ (Text.quoted m.cell).toList

/-- The last characters printed, 40 of them if there are as many, each control character as a
space. -/
def recent : List Char :=
  (m.output.toList.drop (m.output.length - 40)).map fun c => if Text.isControl c then ' ' else c

def outputLabel : List Char :=
  " Output: ".toList

def stringNote : List Char :=
  " (string mode)".toList

/-- What there is to tell about the output, however long. -/
def told : List Char :=
  if m.output = "" then [] else outputLabel ++ m.recent

/-- A line that shows everything: no longer than a row, it begins with the whereabouts, holds
the end of the output, and ends in the note exactly while a string is read. -/
structure Tells (m : Machine) (line : List Char) : Prop where
  short : line.length ≤ 80
  standing : m.standing <+: line
  output : m.output ≠ "" → outputLabel ++ m.recent <:+: line
  note : stringNote <:+ line ↔ m.stringMode = true

theorem length_standing : m.standing.length = 27 + (Text.quoted m.cell).length := by
  have hliteral : (Text.quoted m.cell).toList.length = (Text.quoted m.cell).length :=
    String.length_toList
  unfold standing
  simp only [List.length_append, m.heading.length_move, hliteral]
  rfl

theorem length_recent : m.recent.length = min 40 m.output.length := by
  rw [recent, List.length_map, List.length_drop, String.length_toList]
  omega

theorem toList_whereabouts : (Session.whereabouts m).toList = m.standing := by
  have hx : Text.padLeft 2 (Text.decimal m.place.x.val) =
      String.ofList (twoColumns m.place.x.val) := padLeft_decimal m.place.x
  have hy : Text.padLeft 2 (Text.decimal m.place.y.val) =
      String.ofList (twoColumns m.place.y.val) := padLeft_decimal (m.place.y.castLE (by decide))
  unfold Session.whereabouts standing
  rw [hx, hy, m.heading.text_eq]
  simp only [String.toList_append, String.toList_ofList]

theorem toList_recentOutput : (Session.recentOutput m).toList = m.told := by
  have hlast : lastOf Session.outputTail m.output.toList =
      m.output.toList.drop (m.output.length - 40) := by
    rw [lastOf, String.length_toList]
    rfl
  unfold Session.recentOutput told
  by_cases hnone : m.output = ""
  · rw [if_pos hnone, if_pos (String.isEmpty_iff.mpr hnone)]
    rfl
  · rw [if_neg hnone, if_neg (mt String.isEmpty_iff.mp hnone), String.toList_append, hlast]
    exact congrArg (outputLabel ++ ·) String.toList_ofList

theorem toList_modeNote :
    (Session.modeNote m).toList = if m.stringMode then stringNote else [] := by
  rw [Session.modeNote]
  split <;> rfl

/-- The whereabouts end in the quote behind the literal. -/
theorem exists_standing_eq : ∃ front, m.standing = front ++ ['\x27'] := by
  have hliteral : (Text.quoted m.cell).toList =
      ('\x27' :: Text.escaped m.cell) ++ ['\x27'] := String.toList_ofList
  unfold standing
  rw [hliteral]
  exact ⟨_, (List.append_assoc _ _ _).symm⟩

end Machine

/-- A text at the end of another lies behind a character that it does not hold. -/
theorem suffix_of_not_mem {text front back : List Char} {c : Char} (hc : c ∉ text)
    (h : text <:+ front ++ c :: back) : text <:+ back := by
  rcases List.suffix_or_suffix_of_suffix h (List.suffix_append front (c :: back)) with
    hinner | houter
  · rcases List.suffix_cons_iff.mp hinner with rfl | hback
    · exact absurd List.mem_cons_self hc
    · exact hback
  · exact absurd (houter.subset List.mem_cons_self) hc

/-- A text at the end of another lies behind a part without its first character. -/
theorem suffix_of_head_not_mem {text front back : List Char} {c : Char} (hc : c ∉ front)
    (h : c :: text <:+ front ++ back) : c :: text <:+ back := by
  induction front with
  | nil => exact h
  | cons d front ih =>
      obtain ⟨hne, hrest⟩ := not_or.mp (mt List.mem_cons.mpr hc)
      rcases List.suffix_cons_iff.mp h with hwhole | hinner
      · exact absurd (List.cons.inj hwhole).1 hne
      · exact ih hrest hinner

/-! ## The room that everything takes -/

namespace Machine.Tells

variable {m : Machine} {line : List Char}

/-- The end of the output stands behind the whereabouts if the letter that its label begins
with is not found in them. -/
theorem exists_eq (h : m.Tells line) (hsome : m.output ≠ "") (hinitial : 'O' ∉ m.standing) :
    ∃ between after, line = m.standing ++ (between ++ (outputLabel ++ m.recent ++ after)) := by
  obtain ⟨rest, hrest⟩ := h.standing
  obtain ⟨before, after, hsplit⟩ := h.output hsome
  rw [← hrest, List.append_assoc] at hsplit
  rcases List.append_eq_append_iff.mp hsplit with
    ⟨overlap, hstanding, hbehind⟩ | ⟨between, -, hbehind⟩
  · -- The label would begin within the whereabouts, whose last character is a quote.
    rcases overlap with _ | ⟨c, _ | ⟨d, overlap⟩⟩
    · exact ⟨[], after, by rw [← hrest, List.nil_append, hbehind, List.nil_append]⟩
    · obtain ⟨front, hfront⟩ := m.exists_standing_eq
      have hquote : c = '\x27' := by
        have hlast := congrArg List.getLast? (hstanding.symm.trans hfront)
        rw [List.getLast?_concat, List.getLast?_concat] at hlast
        exact Option.some.inj hlast
      cases hquote.symm.trans (List.cons.inj hbehind).1.symm
    · have hd : d = 'O' := ((List.cons.inj (List.cons.inj hbehind).2).1).symm
      refine absurd ?_ hinitial
      rw [hstanding, hd]
      exact List.mem_append_right _ (List.mem_cons_of_mem _ List.mem_cons_self)
  · exact ⟨between, after, by rw [← hrest, hbehind]⟩

theorem literal_add_recent_le (h : m.Tells line) (hsome : m.output ≠ "")
    (hinitial : 'O' ∉ m.standing) : (Text.quoted m.cell).length + m.recent.length ≤ 44 := by
  have hshort := h.short
  have hlabel : outputLabel.length = 9 := rfl
  obtain ⟨between, after, rfl⟩ := h.exists_eq hsome hinitial
  simp only [List.length_append, m.length_standing, hlabel] at hshort
  omega

/-- At best the note shares its first character, a space, with the output. -/
theorem literal_add_recent_le_of_stringMode (h : m.Tells line) (hsome : m.output ≠ "")
    (hinitial : 'O' ∉ m.standing) (hbracket : '(' ∉ m.recent) (hmode : m.stringMode = true) :
    (Text.quoted m.cell).length + m.recent.length ≤ 31 := by
  have hshort := h.short
  have hnote := h.note.mpr hmode
  have hlabel : outputLabel.length = 9 := rfl
  obtain ⟨between, after, rfl⟩ := h.exists_eq hsome hinitial
  simp only [List.length_append, m.length_standing, hlabel] at hshort
  have hline : m.standing ++ (between ++ (outputLabel ++ m.recent ++ after)) =
      m.standing ++ between ++ [' '] ++ 'O' :: ("utput: ".toList ++ m.recent ++ after) := by
    have hcons : outputLabel = ' ' :: 'O' :: "utput: ".toList := by decide
    simp only [hcons, List.append_assoc, List.cons_append, List.nil_append]
  rw [hline] at hnote
  have htext : '(' :: "string mode)".toList <:+ stringNote := ⟨[' '], by decide⟩
  have hbehind := suffix_of_not_mem (by decide) (htext.trans hnote)
  have hnone : '(' ∉ "utput: ".toList ++ m.recent := by
    rw [List.mem_append, not_or]
    exact ⟨by decide, hbracket⟩
  have hafter := (suffix_of_head_not_mem hnone hbehind).length_le
  have hlong : ('(' :: "string mode)".toList).length = 13 := rfl
  omega

end Machine.Tells

namespace Session

variable (s : Session)

theorem toList_statusLine :
    s.statusLine.toList = (s.machine.standing ++ s.machine.told ++
      if s.machine.stringMode then Machine.stringNote else []).take 80 := by
  simp only [statusLine, String.toList_ofList, String.toList_append,
    Machine.toList_whereabouts, Machine.toList_recentOutput, Machine.toList_modeNote]

theorem standing_prefix_statusLine : s.machine.standing <+: s.statusLine.toList := by
  have hliteral := Text.quoted_bounds s.machine.cell
  rw [s.toList_statusLine, List.prefix_take_iff, List.append_assoc, s.machine.length_standing]
  exact ⟨List.prefix_append _ _, by omega⟩

/-- Of the output that is shown there is as much as the literal leaves room for. -/
theorem output_prefix_statusLine (hsome : s.machine.output ≠ "") :
    s.machine.standing ++ Machine.outputLabel ++
        s.machine.recent.take (44 - (Text.quoted s.machine.cell).length) <+:
      s.statusLine.toList := by
  have hliteral := Text.quoted_bounds s.machine.cell
  have hlabel : Machine.outputLabel.length = 9 := rfl
  have htold : s.machine.told = Machine.outputLabel ++ s.machine.recent := if_neg hsome
  rw [s.toList_statusLine, htold, ← List.append_assoc, List.append_assoc _ s.machine.recent,
    List.prefix_take_iff]
  constructor
  · rw [List.prefix_append_right_inj]
    exact (List.take_prefix _ _).trans (List.prefix_append _ _)
  · rw [List.length_append, List.length_append, s.machine.length_standing, hlabel,
      List.length_take]
    omega

theorem note_suffix_statusLine (hmode : s.machine.stringMode = true)
    (hroom : (Text.quoted s.machine.cell).length + s.machine.told.length ≤ 39) :
    Machine.stringNote <:+ s.statusLine.toList := by
  have hnote : Machine.stringNote.length = 14 := rfl
  rw [s.toList_statusLine, hmode, if_pos rfl, List.take_of_length_le]
  · exact List.suffix_append _ _
  · rw [List.length_append, List.length_append, s.machine.length_standing, hnote]
    omega

/-- Outside a string, only output that reads like the note can make the line end in it. -/
theorem note_of_output (hmode : s.machine.stringMode = false)
    (h : Machine.stringNote <:+ s.statusLine.toList) :
    ∃ part, part <+: s.machine.recent ∧ Machine.stringNote <:+ ' ' :: part := by
  have hliteral := Text.quoted_bounds s.machine.cell
  rw [s.toList_statusLine, hmode, if_neg Bool.false_ne_true, List.append_nil] at h
  by_cases hnone : s.machine.output = ""
  · obtain ⟨front, hfront⟩ := s.machine.exists_standing_eq
    have htold : s.machine.told = [] := if_pos hnone
    rw [htold, List.append_nil, List.take_of_length_le, hfront] at h
    · have hbehind := suffix_of_not_mem (by decide) h
      exact absurd (List.suffix_nil.mp hbehind) (by decide)
    · rw [s.machine.length_standing]
      omega
  · have htold : s.machine.told = " Output".toList ++ ':' :: ' ' :: s.machine.recent :=
      if_neg hnone
    have hfront : (s.machine.standing ++ " Output".toList).length ≤ 46 := by
      have hlabel : " Output".toList.length = 7 := rfl
      rw [List.length_append, s.machine.length_standing, hlabel]
      omega
    obtain ⟨more, hmore⟩ : ∃ more,
        80 - (s.machine.standing ++ " Output".toList).length = more + 2 :=
      ⟨80 - (s.machine.standing ++ " Output".toList).length - 2, by omega⟩
    rw [htold, ← List.append_assoc, List.take_append, List.take_of_length_le (by omega), hmore,
      List.take_succ_cons] at h
    exact ⟨_, List.take_prefix more _, suffix_of_not_mem (by decide) h⟩

/-- A status line is no longer than a row and begins with the whereabouts. The end of the
output stands behind them as far as the literal leaves room for it, which is in full for each
that does not spell a code. The note ends the line while a string is read, if it fits, and otherwise
it is not found there unless the output reads like it. -/
theorem status_line_tells_what_fits (s : Session) :
    let m := s.machine
    let line := s.statusLine.toList
    let literal := (Text.quoted m.cell).length
    (line.length ≤ 80 ∧ m.standing <+: line) ∧
      (3 ≤ literal ∧ literal ≤ 12 ∧
        (Text.escaped m.cell ≠ Text.codeEscape m.cell → literal ≤ 4)) ∧
      (m.recent.length = min 40 m.output.length ∧
        (m.output ≠ "" →
          m.standing ++ Machine.outputLabel ++ m.recent.take (44 - literal) <+: line ∧
            (literal + m.recent.length ≤ 44 →
              m.standing ++ Machine.outputLabel ++ m.recent <+: line))) ∧
      (m.stringMode = true → literal + m.told.length ≤ 39 → Machine.stringNote <:+ line) ∧
      (m.stringMode = false → Machine.stringNote <:+ line →
        ∃ part, part <+: m.recent ∧ Machine.stringNote <:+ ' ' :: part) := by
  intro m line literal
  refine ⟨⟨?_, s.standing_prefix_statusLine⟩, Text.quoted_bounds m.cell, ⟨m.length_recent, ?_⟩,
    s.note_suffix_statusLine, s.note_of_output⟩
  · show s.statusLine.toList.length ≤ 80
    rw [s.toList_statusLine]
    exact List.length_take_le _ _
  · intro hsome
    have hpart := s.output_prefix_statusLine hsome
    refine ⟨hpart, fun hroom => ?_⟩
    rwa [List.take_of_length_le (Nat.le_sub_of_add_le' hroom)] at hpart

end Session

/-- Not every line tells everything, and none could. Beside a literal of twelve columns there
is no room for 33 characters of output, and behind 29 of them none for the note. And output
may read like the note. -/
theorem no_line_tells :
    let after := fun (row : List Char) (n : Nat) =>
      ((Session.start (Grid.ofLines [row]) (.seeded 1)).perform (List.replicate n .step)).2
    let beside := after (List.replicate 33 ',' ++ [Char.ofNat 0x10ffff]) 33
    let reading := after (List.replicate 29 ',' ++ ['\x22']) 30
    let imitated := after "\x22)edom gnirts( \x22,,,,,,,,,,,,,,@".toList 30
    (∀ line, ¬beside.machine.Tells line) ∧ (∀ line, ¬reading.machine.Tells line) ∧
      ¬imitated.machine.Tells imitated.statusLine.toList := by
  intro after beside reading imitated
  refine ⟨fun line h => ?_, fun line h => ?_, fun h => ?_⟩
  · have hroom := h.literal_add_recent_le (by decide +kernel) (by decide +kernel)
    revert hroom
    decide +kernel
  · have hroom := h.literal_add_recent_le_of_stringMode (by decide +kernel) (by decide +kernel)
      (by decide +kernel) (by decide +kernel)
    revert hroom
    decide +kernel
  · have hmode : imitated.machine.stringMode = false := by decide +kernel
    have hline : imitated.statusLine =
        "IP:(30, 0) Dir:(+1,+0) Cmd:'@' Output:  (string mode)" := by decide +kernel
    have hnote : Machine.stringNote <:+ imitated.statusLine.toList := by
      rw [hline]
      decide
    exact Bool.false_ne_true (hmode.symm.trans (h.note.mp hnote))

end Funge93
