import Funge93.Proofs.Splitting
import Mathlib.Data.List.Basic

/-!
# Cutting a text into pieces

A text can be cut into pieces, each a line and what ends it, in just one way. Where a line
ends is settled by its characters, since none of them is a terminator and the next one is.
What ends it is settled but for one case: a carriage return could be taken with the line
feed behind it or without. It may not be taken without, and that is all that is needed. The
last piece need not be ended, but then it has a line, so nothing can be cut off an empty
text.

`Cut` says this of a whole text, and `cut_cons_iff` of its first piece and the rest. The
lines of a text are those of its pieces because cutting off one line and its terminator
leaves what follows the first piece (`Fits.first`). And the pieces of two texts in a row
are those of the one and of the other, unless the first text breaks off in a line, or
between a carriage return and a line feed.
-/

namespace Funge93.Text

/-- A line of a text with what ends it. -/
structure Piece where
  line : List Char
  ending : List Char
deriving DecidableEq

def Piece.text (p : Piece) : List Char :=
  p.line ++ p.ending

/-- The text that pieces make up. -/
def textOf (pieces : List Piece) : List Char :=
  pieces.flatMap Piece.text

/-- One terminator, or a carriage return and a line feed together. -/
def IsEnding (ending : List Char) : Prop :=
  ending = ['\r', '\n'] ∨ ∃ c ∈ terminators, ending = [c]

/-- A text cut into pieces: no line holds a terminator, each is ended by one, and a carriage
return is not parted from a line feed. The last piece may have no ending if it has a line. -/
structure Cut (text : List Char) (pieces : List Piece) : Prop where
  whole : textOf pieces = text
  unbroken : ∀ p ∈ pieces, ∀ c ∈ p.line, c ∉ terminators
  ended : ∀ p rest, p :: rest <:+ pieces →
    IsEnding p.ending ∨ p.ending = [] ∧ rest = [] ∧ p.line ≠ []
  together : ∀ p rest, p :: rest <:+ pieces →
    p.ending = ['\r'] → (textOf rest).head? ≠ some '\n'

/-- Whether a piece may be cut off in front of a text. -/
structure Fits (p : Piece) (after : List Char) : Prop where
  unbroken : ∀ c ∈ p.line, c ∉ terminators
  ended : IsEnding p.ending ∨ p.ending = [] ∧ after = [] ∧ p.line ≠ []
  together : p.ending = ['\r'] → after.head? ≠ some '\n'

variable {p : Piece} {pieces rest others : List Piece} {text after more : List Char}

theorem IsEnding.ne_nil {ending : List Char} (h : IsEnding ending) : ending ≠ [] := by
  rcases h with rfl | ⟨c, -, rfl⟩
  · exact List.cons_ne_nil _ _
  · exact List.cons_ne_nil _ _

/-! ## The first piece -/

namespace Fits

theorem ne_nil (h : Fits p after) : p.text ++ after ≠ [] := by
  rw [Piece.text]
  rcases h.ended with hending | ⟨-, -, hline⟩
  · simp [hending.ne_nil]
  · simp [hline]

theorem plain (h : Fits p after) : ∀ c ∈ p.line, (!isTerminator c) = true := by
  intro c hc
  rw [Bool.not_eq_true', ← Bool.not_eq_true, isTerminator_iff]
  exact h.unbroken c hc

/-- What stands behind the line of a piece begins with a terminator, if there is anything,
and what follows the terminator is what follows the piece. -/
theorem behind (h : Fits p after) :
    (p.ending ++ after).takeWhile (fun c => !isTerminator c) = [] ∧
      dropTerminator ((p.ending ++ after).dropWhile fun c => !isTerminator c) = after := by
  rcases h.ended with (hboth | ⟨c, hc, hone⟩) | ⟨hnone, rfl, -⟩
  · rw [hboth]
    exact ⟨rfl, rfl⟩
  · have hstop : ¬(!isTerminator c) = true := by
      rw [isTerminator_iff.mpr hc]
      exact Bool.false_ne_true
    rw [hone, List.singleton_append,
      List.takeWhile_cons_of_neg (p := fun c => !isTerminator c) hstop,
      List.dropWhile_cons_of_neg (p := fun c => !isTerminator c) hstop]
    refine ⟨rfl, ?_⟩
    rw [dropTerminator.eq_def]
    split
    · next tail heq =>
        -- A line feed would have been taken along.
        obtain ⟨rfl, rfl⟩ := List.cons.inj heq
        exact absurd rfl (h.together hone)
    · next heq => exact (List.cons.inj heq).2.symm
    · next heq => cases heq
  · rw [hnone]
    exact ⟨rfl, rfl⟩

/-- The line of the first piece is what is read up to a terminator, and what follows the
piece is what is left behind that line. -/
theorem first (h : Fits p after) :
    ((p.text ++ after).takeWhile fun c => !isTerminator c) = p.line ∧
      behindLine (p.text ++ after) = after := by
  obtain ⟨hstop, hrest⟩ := h.behind
  rw [behindLine, Piece.text, List.append_assoc, List.takeWhile_append_of_pos h.plain,
    List.dropWhile_append_of_pos h.plain, hstop, List.append_nil]
  exact ⟨rfl, hrest⟩

end Fits

theorem Cut.eq_nil (h : Cut [] pieces) : pieces = [] := by
  cases pieces with
  | nil => rfl
  | cons p rest =>
      have hwhole := h.whole
      rw [textOf, List.flatMap_cons, Piece.text, List.append_assoc] at hwhole
      simp only [List.append_eq_nil_iff] at hwhole
      rcases h.ended p rest (List.suffix_refl _) with hending | ⟨-, -, hline⟩
      · exact absurd hwhole.2.1 hending.ne_nil
      · exact absurd hwhole.1 hline

theorem cut_nil : Cut [] [] where
  whole := rfl
  unbroken := nofun
  ended _ _ h := absurd (List.suffix_nil.mp h) nofun
  together _ _ h := absurd (List.suffix_nil.mp h) nofun

theorem cut_cons_iff :
    Cut text (p :: rest) ↔ ∃ after, text = p.text ++ after ∧ Fits p after ∧ Cut after rest := by
  constructor
  · intro h
    have hself : p :: rest <:+ p :: rest := List.suffix_refl _
    have htail : rest <:+ p :: rest := List.suffix_cons _ _
    refine ⟨textOf rest, h.whole.symm, ?_, rfl, ?_, ?_, ?_⟩
    · refine ⟨h.unbroken p List.mem_cons_self, ?_, h.together p rest hself⟩
      rcases h.ended p rest hself with hending | ⟨hnone, rfl, hline⟩
      · exact .inl hending
      · exact .inr ⟨hnone, rfl, hline⟩
    · exact fun q hq => h.unbroken q (List.mem_cons_of_mem _ hq)
    · exact fun q tail hq => h.ended q tail (hq.trans htail)
    · exact fun q tail hq => h.together q tail (hq.trans htail)
  · rintro ⟨after, rfl, hfits, hcut⟩
    refine ⟨congrArg (p.text ++ ·) hcut.whole, ?_, ?_, ?_⟩
    · intro q hq
      rcases List.mem_cons.mp hq with rfl | hmem
      · exact hfits.unbroken
      · exact hcut.unbroken q hmem
    · intro q tail hq
      rcases List.suffix_cons_iff.mp hq with heq | hsuffix
      · obtain ⟨rfl, rfl⟩ := List.cons.inj heq
        rcases hfits.ended with hending | ⟨hnone, rfl, hline⟩
        · exact .inl hending
        · exact .inr ⟨hnone, hcut.eq_nil, hline⟩
      · exact hcut.ended q tail hsuffix
    · intro q tail hq
      rcases List.suffix_cons_iff.mp hq with heq | hsuffix
      · obtain ⟨rfl, rfl⟩ := List.cons.inj heq
        rw [hcut.whole]
        exact hfits.together
      · exact hcut.together q tail hsuffix

/-! ## One way to cut, and the lines that it gives -/

theorem Cut.unique (h : Cut text pieces) (h' : Cut text others) : others = pieces := by
  induction pieces generalizing text others with
  | nil =>
      obtain rfl : [] = text := h.whole
      exact h'.eq_nil
  | cons p rest ih =>
      obtain ⟨after, rfl, hfits, hcut⟩ := cut_cons_iff.mp h
      cases others with
      | nil => exact absurd h'.whole.symm hfits.ne_nil
      | cons q tail =>
          obtain ⟨after', htext, hfits', hcut'⟩ := cut_cons_iff.mp h'
          obtain ⟨hline, hafter⟩ := hfits.first
          obtain ⟨hline', hafter'⟩ := hfits'.first
          rw [← htext] at hline' hafter'
          obtain rfl : after = after' := hafter.symm.trans hafter'
          have hsame : q.line = p.line := hline'.symm.trans hline
          have hending : q.ending = p.ending := by
            rw [Piece.text, Piece.text, hsame, List.append_assoc, List.append_assoc] at htext
            exact (List.append_cancel_right (List.append_cancel_left htext)).symm
          have hpiece : q = p := by
            obtain ⟨line, ending⟩ := p
            obtain ⟨line', ending'⟩ := q
            rw [Piece.mk.injEq]
            exact ⟨hsame, hending⟩
          rw [hpiece, ih hcut hcut']

theorem exists_fits (h : text ≠ []) : ∃ p after, text = p.text ++ after ∧ Fits p after := by
  let line := text.takeWhile fun c => !isTerminator c
  have hline : ∀ c ∈ line, c ∉ terminators := by
    intro c hc
    rw [← isTerminator_iff, Bool.not_eq_true, ← Bool.not_eq_true']
    exact List.mem_takeWhile_imp (p := fun c => !isTerminator c) hc
  have hsplit : line ++ text.dropWhile (fun c => !isTerminator c) = text :=
    List.takeWhile_append_dropWhile
  cases hrest : text.dropWhile fun c => !isTerminator c with
  | nil =>
      rw [hrest, List.append_nil] at hsplit
      refine ⟨⟨line, []⟩, [], ?_, hline, .inr ⟨rfl, rfl, ?_⟩, nofun⟩
      · rw [Piece.text, List.append_nil, List.append_nil, hsplit]
      · rw [hsplit]
        exact h
  | cons c tail =>
      rw [hrest] at hsplit
      have hstop := List.head?_dropWhile_not (fun c => !isTerminator c) text
      rw [hrest] at hstop
      have hc : c ∈ terminators := by
        rw [← isTerminator_iff]
        simpa using hstop
      by_cases hboth : c = '\r' ∧ tail.head? = some '\n'
      · obtain ⟨rfl, hhead⟩ := hboth
        obtain ⟨tail, rfl⟩ := List.head?_eq_some_iff.mp hhead
        refine ⟨⟨line, ['\r', '\n']⟩, tail, ?_, hline, .inl (.inl rfl), nofun⟩
        rw [Piece.text, List.append_assoc]
        exact hsplit.symm
      · refine ⟨⟨line, [c]⟩, tail, ?_, hline, .inl (.inr ⟨c, hc, rfl⟩), ?_⟩
        · rw [Piece.text, List.append_assoc]
          exact hsplit.symm
        · intro hreturn hhead
          exact hboth ⟨List.singleton_inj.mp hreturn, hhead⟩

theorem exists_cut (text : List Char) : ∃ pieces, Cut text pieces := by
  by_cases htext : text = []
  · rw [htext]
    exact ⟨[], cut_nil⟩
  · obtain ⟨p, after, heq, hfits⟩ := exists_fits htext
    have hshort : after.length < text.length := by
      have h := length_behindLine_lt htext
      rwa [heq, hfits.first.2, ← heq] at h
    obtain ⟨pieces, hcut⟩ := exists_cut after
    exact ⟨p :: pieces, cut_cons_iff.mpr ⟨after, heq, hfits, hcut⟩⟩
termination_by text.length

theorem Cut.lines_eq (h : Cut text pieces) (limit : Nat) :
    lines limit text = (pieces.map Piece.line).take limit := by
  induction pieces generalizing text limit with
  | nil =>
      obtain rfl : [] = text := h.whole
      rw [lines_nil, List.map_nil, List.take_nil]
  | cons p rest ih =>
      obtain ⟨after, rfl, hfits, hcut⟩ := cut_cons_iff.mp h
      cases limit with
      | zero => rfl
      | succ limit =>
          obtain ⟨hline, hafter⟩ := hfits.first
          rw [lines_succ limit hfits.ne_nil, hline, hafter, ih hcut, List.map_cons,
            List.take_succ_cons]

/-! ## Texts in a row -/

/-- Whether a text is empty or ends in a terminator, and the next text does not take it up
between a carriage return and a line feed. -/
structure Closed (text more : List Char) : Prop where
  terminated : ∀ c ∈ text.getLast?, c ∈ terminators
  apart : ¬(text.getLast? = some '\r' ∧ more.head? = some '\n')

theorem Fits.append (h : Fits p after) (hclosed : Closed (p.text ++ after) more) :
    Fits p (after ++ more) ∧ Closed after more := by
  obtain ⟨hterminated, hapart⟩ := hclosed
  by_cases hafter : after = []
  · -- The text is the piece, so it is the piece that must be ended.
    subst hafter
    rw [List.append_nil] at hterminated hapart
    refine ⟨⟨h.unbroken, ?_, ?_⟩, nofun, nofun⟩
    · rcases h.ended with hending | ⟨hnone, -, hline⟩
      · exact .inl hending
      · rw [Piece.text, hnone, List.append_nil] at hterminated
        have hlast := List.getLast?_eq_some_getLast hline
        exact absurd (hterminated _ hlast) (h.unbroken _ (List.getLast_mem hline))
    · intro hreturn hhead
      refine hapart ⟨?_, hhead⟩
      rw [Piece.text, hreturn, List.getLast?_concat]
  · rw [List.getLast?_append_of_ne_nil _ hafter] at hterminated hapart
    refine ⟨⟨h.unbroken, ?_, ?_⟩, hterminated, hapart⟩
    · exact .inl (h.ended.resolve_right fun hopen => hafter hopen.2.1)
    · rw [List.head?_append_of_ne_nil _ hafter]
      exact h.together

theorem Cut.append (h : Cut text pieces) (h' : Cut more others) (hclosed : Closed text more) :
    Cut (text ++ more) (pieces ++ others) := by
  induction pieces generalizing text with
  | nil =>
      obtain rfl : [] = text := h.whole
      exact h'
  | cons p rest ih =>
      obtain ⟨after, rfl, hfits, hcut⟩ := cut_cons_iff.mp h
      obtain ⟨hfits', hclosed'⟩ := hfits.append hclosed
      exact cut_cons_iff.mpr
        ⟨after ++ more, List.append_assoc _ _ _, hfits', ih hcut hclosed'⟩

/-- A text can be cut into pieces in one way and no other, and its lines are the first of
theirs, as many as wanted or as there are. If it is closed, the pieces of a text that begins
with it are its pieces and then those of the rest. -/
theorem lines_are_first_of_only_cut (text : List Char) :
    ∃ pieces, Cut text pieces ∧ (∀ others, Cut text others → others = pieces) ∧
      (∀ limit, lines limit text = (pieces.map Piece.line).take limit) ∧
      ∀ more others, Cut more others → Closed text more →
        Cut (text ++ more) (pieces ++ others) := by
  obtain ⟨pieces, hcut⟩ := exists_cut text
  refine ⟨pieces, hcut, fun others h => hcut.unique h, hcut.lines_eq, ?_⟩
  intro more others hmore hclosed
  exact hcut.append hmore hclosed

/-- Two carriage returns and a line feed are two terminators. A line feed that comes after
another terminator is one of its own, even at the beginning of the next text. -/
theorem lines_are_first_of_only_cut_returns :
    let text := ['\r', '\r', '\n', 'a', '\u2028']
    let more := ['\n', 'b']
    let pieces : List Piece := [⟨[], ['\r']⟩, ⟨[], ['\r', '\n']⟩, ⟨['a'], ['\u2028']⟩]
    let others : List Piece := [⟨[], ['\n']⟩, ⟨['b'], []⟩]
    Cut text pieces ∧ Cut more others ∧ Closed text more ∧ lines 2 text = [[], []] ∧
      Cut (text ++ more) (pieces ++ others) := by
  intro text more pieces others
  have hpieces : Cut text pieces := by
    refine cut_cons_iff.mpr ⟨['\r', '\n', 'a', '\u2028'], rfl, ⟨nofun, ?_, by decide⟩, ?_⟩
    · exact .inl (.inr ⟨'\r', by decide, rfl⟩)
    refine cut_cons_iff.mpr ⟨['a', '\u2028'], rfl, ⟨nofun, .inl (.inl rfl), nofun⟩, ?_⟩
    refine cut_cons_iff.mpr
      ⟨[], rfl, ⟨List.forall_mem_singleton.mpr (by decide), ?_, nofun⟩, cut_nil⟩
    exact .inl (.inr ⟨'\u2028', by decide, rfl⟩)
  have hothers : Cut more others := by
    refine cut_cons_iff.mpr ⟨['b'], rfl, ⟨nofun, ?_, nofun⟩, ?_⟩
    · exact .inl (.inr ⟨'\n', by decide, rfl⟩)
    exact cut_cons_iff.mpr ⟨[], rfl,
      ⟨List.forall_mem_singleton.mpr (by decide), .inr ⟨rfl, rfl, nofun⟩, nofun⟩, cut_nil⟩
  have hclosed : Closed text more := by
    refine ⟨?_, by decide⟩
    rintro c ⟨⟩
    decide
  obtain ⟨cut, hcut, honly, hlines, happend⟩ := lines_are_first_of_only_cut text
  obtain rfl : pieces = cut := honly pieces hpieces
  exact ⟨hcut, hothers, hclosed, hlines 2, happend more others hothers hclosed⟩

end Funge93.Text
