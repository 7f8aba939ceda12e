import Funge93.Proofs.RandomTurns
import Mathlib.Data.Rat.Defs
import Mathlib.Data.Set.Card
import Mathlib.Order.Interval.Finset.Nat
import Mathlib.Tactic.Linarith
import Mathlib.Tactic.Ring

/-!
# What a random word is worth

A random turn is a draw with weights: the word is read as a fraction, and the heading is
found by counting the sums of weights that do not exceed it. The weights are doubles and
are added up as doubles, so the sums are not the decimal fractions that they are written
as. What they are exactly is computed here once (`value?_sums`), and the cuts by which a
word decides are these numbers in a smaller unit.

A word has only 52 bits to decide with, and each heading gets an unbroken run of the
numbers that these can be. How many it gets is its weight times `2 ^ 52`, rounded to the
nearest whole number (`share`), so the rounding of the doubles does no harm: it moves no
cut past a number. Each of these numbers stands for `2 ^ 12` words, of which a rounding by
a half is half as many, and the error stays below that.
-/

namespace Funge93.Random

/-! ## The draw as it is made with doubles -/

/-- The weight of a heading as a double. -/
def weight (h : Heading) : Float :=
  .ofScientific (tenths h) true 1

/-- The sums that come up while weights are added to a total, but for the last. -/
def sumsFrom (total : Float) : List Float → List Float
  | [] => []
  | w :: rest => total :: sumsFrom (total + w) rest

/-- The sums of the weights of the first heading, of the first two, and so on. -/
def sums : List Float :=
  match Heading.all.map weight with
  | [] => []
  | first :: rest => sumsFrom first rest

/-- The number that a double stands for, if it stands for one. -/
def value? (x : Float) : Option ℚ :=
  match x.toModel.unpack with
  | .finite sign mantissa exponent _ => some (sign.apply mantissa * 2 ^ exponent)
  | .zero _ => some 0
  | _ => none

/-- The upper bits of a word, which decide. -/
def upper (w : UInt64) : Nat :=
  (w >>> 12).toNat

/-- The fraction in a word. -/
def fraction (w : UInt64) : ℚ :=
  upper w / 2 ^ 52

/-- Whether a word draws a heading: the heading has as many before it as there are sums
that do not exceed the fraction in the word. -/
def Draws (w : UInt64) (h : Heading) : Prop :=
  ∃ values : List ℚ, sums.map value? = values.map some ∧
    Heading.all[values.countP fun v => v ≤ fraction w]? = some h

/-- Where a cut lies in the unit interval. -/
def position (cut : Nat) : ℚ :=
  cut / 2 ^ 54

/-- The cuts lie at the sums of the weights, as doubles round them. -/
theorem value?_sums : sums.map value? = (cuts.map position).map some := by
  decide +kernel

theorem position_le_fraction (cut : Nat) (w : UInt64) :
    position cut ≤ fraction w ↔ cut ≤ 4 * upper w := by
  have hunit : fraction w = position (4 * upper w) := by
    rw [fraction, position]
    push_cast
    ring
  rw [hunit, position, position, div_le_div_iff_of_pos_right (by positivity), Nat.cast_le]

theorem all_part (w : UInt64) : Heading.all[part w]? = some (heading w) := by
  have hle : part w ≤ 3 := List.countP_le_length
  rw [heading]
  split
  · next hpart => rw [hpart]; rfl
  · next hpart => rw [hpart]; rfl
  · next hpart => rw [hpart]; rfl
  · next hzero hone htwo =>
      have hpart : part w = 3 := by grind
      rw [hpart]
      rfl

/-- The heading that a word decides on is the one that it draws. -/
theorem draws_iff (w : UInt64) (h : Heading) : Draws w h ↔ heading w = h := by
  have hcount : (cuts.map position).countP (fun v => v ≤ fraction w) = part w := by
    rw [List.countP_map, part]
    refine List.countP_congr fun cut _ => ?_
    simp only [Function.comp_apply, decide_eq_true_eq]
    exact position_le_fraction cut w
  constructor
  · rintro ⟨values, hvalues, hdrawn⟩
    rw [value?_sums] at hvalues
    have hsame := List.map_injective_iff.mpr (Option.some_injective ℚ) hvalues
    rw [← hsame, hcount, all_part] at hdrawn
    exact Option.some.inj hdrawn
  · rintro rfl
    refine ⟨_, value?_sums, ?_⟩
    rw [hcount, all_part]

/-! ## The runs of words -/

/-- The place of a heading in the order of the headings. -/
def rank (h : Heading) : Nat :=
  Heading.all.idxOf h

/-- How many of the numbers below `2 ^ 52` a heading gets. -/
def share (h : Heading) : Nat :=
  (tenths h * 2 ^ 52 + 5) / 10

/-- The first of the numbers that a heading gets. -/
def first (h : Heading) : Nat :=
  ((Heading.all.take (rank h)).map share).sum

theorem upper_eq (w : UInt64) : upper w = w.toNat / 2 ^ 12 := by
  rw [upper, UInt64.toNat_shiftRight, Nat.shiftRight_eq_div_pow]
  rfl

theorem rank_inj {h h' : Heading} : rank h = rank h' ↔ h = h' := by
  cases h <;> cases h' <;> decide

theorem rank_heading (w : UInt64) : rank (heading w) = part w := by
  have hmem : heading w ∈ Heading.all := List.mem_of_getElem? (all_part w)
  have hrank : Heading.all[rank (heading w)]? = Heading.all[part w]? := by
    rw [all_part, rank, List.getElem?_idxOf hmem]
  exact (List.getElem?_inj (List.idxOf_lt_length_of_mem hmem) (by decide)).mp hrank

/-- A greater word never decides on an earlier heading. -/
theorem rank_heading_mono {w w' : UInt64} (h : w ≤ w') :
    rank (heading w) ≤ rank (heading w') := by
  rw [rank_heading, rank_heading]
  refine List.countP_mono_left fun cut _ hcut => ?_
  have hupper : upper w ≤ upper w' := by
    rw [upper_eq, upper_eq]
    exact Nat.div_le_div_right (UInt64.le_iff_toNat_le.mp h)
  rw [decide_eq_true_eq] at hcut ⊢
  exact hcut.trans (Nat.mul_le_mul_left 4 hupper)

/-- Of the numbers that a word decides with, each cut falls just in front of the first that
the next heading gets. -/
theorem part_eq (w : UInt64) :
    part w = (Heading.all.tail.map first).countP fun n => n ≤ upper w := by
  have hcuts : Heading.all.tail.map first = cuts.map fun cut => (cut + 3) / 4 := by decide
  rw [hcuts, List.countP_map, part]
  refine List.countP_congr fun cut _ => ?_
  simp only [Function.comp_apply, decide_eq_true_eq]
  show cut ≤ 4 * upper w ↔ _
  omega

/-- A heading gets the numbers from its first to that of the next heading. -/
theorem heading_eq_iff (w : UInt64) (h : Heading) :
    heading w = h ↔ first h ≤ upper w ∧ upper w < first h + share h := by
  have hupper : upper w < 2 ^ 52 := by
    rw [upper_eq]
    have hword := w.toNat_lt
    omega
  have hfirsts : first .east = 0 ∧ first .west = first .east + share .east ∧
      first .south = first .west + share .west ∧
      first .north = first .south + share .south ∧ first .north + share .north = 2 ^ 52 := by
    decide
  have hranks : rank .east = 0 ∧ rank .west = 1 ∧ rank .south = 2 ∧ rank .north = 3 := by
    decide
  rw [← rank_inj, rank_heading, part_eq]
  simp only [Heading.all, List.tail_cons, List.map_cons, List.map_nil, List.countP_cons,
    List.countP_nil, decide_eq_true_eq]
  -- The shares lie behind each other, so the number of firsts in reach tells the heading.
  cases h
  all_goals
    repeat' split
    all_goals omega

/-- The words that decide on a heading follow each other without a gap. -/
theorem toNat_image_words (h : Heading) :
    UInt64.toNat '' {w | heading w = h} =
      Finset.Ico (2 ^ 12 * first h) (2 ^ 12 * (first h + share h)) := by
  have hend : first h + share h ≤ 2 ^ 52 := by cases h <;> decide
  ext n
  simp only [Set.mem_image, Set.mem_ofPred_eq, Finset.coe_Ico, Set.mem_Ico, heading_eq_iff,
    upper_eq]
  constructor
  · rintro ⟨w, hw, rfl⟩
    omega
  · intro hn
    have hword : n < UInt64.size := by
      show n < 2 ^ 64
      omega
    refine ⟨.ofNatLT n hword, ?_, UInt64.toNat_ofNatLT⟩
    rw [UInt64.toNat_ofNatLT]
    omega

theorem ncard_words (h : Heading) : {w | heading w = h}.ncard = 2 ^ 12 * share h := by
  have hinj : Function.Injective UInt64.toNat := fun _ _ => UInt64.toNat_inj.mp
  rw [← Set.ncard_image_of_injective _ hinj, toNat_image_words, Set.ncard_coe_finset,
    Nat.card_Ico]
  omega

theorem exists_word (h : Heading) : ∃ w, heading w = h := by
  have hsome : 0 < share h := by cases h <;> decide
  have hcount : {w | heading w = h}.ncard ≠ 0 := by
    rw [ncard_words]
    omega
  exact Set.nonempty_of_ncard_ne_zero hcount

/-- A share is the weight times `2 ^ 52` but for a half. -/
theorem share_close (h : Heading) : |(share h : ℚ) - tenths h / 10 * 2 ^ 52| ≤ 1 / 2 := by
  have hlower : tenths h * 2 ^ 52 ≤ 10 * share h + 5 := by
    rw [share]
    omega
  have hupper : 10 * share h ≤ tenths h * 2 ^ 52 + 5 := by
    rw [share]
    omega
  have hlower' : (tenths h * 2 ^ 52 : ℚ) ≤ 10 * share h + 5 := by exact_mod_cast hlower
  have hupper' : (10 * share h : ℚ) ≤ tenths h * 2 ^ 52 + 5 := by exact_mod_cast hupper
  rw [abs_le]
  constructor <;> linarith

/-- A heading gets its weight of all words, but for less than as many as agree in their
upper bits. -/
theorem ncard_words_close (h : Heading) :
    |({w | heading w = h}.ncard : ℚ) - tenths h / 10 * 2 ^ 64| < 2 ^ 12 := by
  have hclose := abs_le.mp (share_close h)
  rw [ncard_words, abs_lt]
  push_cast
  constructor <;> linarith

/-! ## The weights of random turns -/

/-- A source of words decides each answer by one word, and by nothing but that word, so the
random turns of a run go through the words one by one. What a word decides on is what it
draws with the weights as doubles. From the least word to the greatest, the headings come
up in their order, each of them, and none comes up again after the next one did. And the
words for a heading are as many as its weight tells, but for less than `2 ^ 12` of the
`2 ^ 64`. -/
theorem words_share_headings_by_weight (words : Nat → UInt64) (grid : Grid) :
    let source := Source.ofWords words
    let e := Engine.start grid source
    (∀ n, (source.skip n).draw = ⟨heading (words n), false⟩ ∧
        (source.skip n).rest = source.skip (n + 1)) ∧
      (∀ commands,
        let turns := e.randomTurns (e.callsOfAll commands)
        turns = (List.range turns.length).map (fun n => heading (words n)) ∧
          (e.carryOutAll commands).2.source = source.skip turns.length) ∧
      (∀ w h, Draws w h ↔ heading w = h) ∧
      (∀ w w', w ≤ w' → rank (heading w) ≤ rank (heading w')) ∧
      ∀ h, (∃ w, heading w = h) ∧
        |({w | heading w = h}.ncard : ℚ) - tenths h / 10 * 2 ^ 64| < 2 ^ 12 := by
  intro source e
  refine ⟨fun n => ⟨?_, rfl⟩, fun commands => ⟨?_, e.source_carryOutAll commands⟩, draws_iff,
    fun w w' => rank_heading_mono, fun h => ⟨exists_word h, ncard_words_close h⟩⟩
  · have hanswer : (source.skip n).draw = source.answers (0 + n) := rfl
    rw [hanswer, Nat.zero_add]
    rfl
  · have hheadings := e.randomTurns_eq_headings (e.callsOfAll commands)
    have hanswers : ∀ k, e.source.headings k =
        (List.range k).map fun n => heading (words n) := by
      intro k
      refine List.map_congr_left fun n _ => ?_
      show heading (words (0 + n)) = _
      rw [Nat.zero_add]
    rw [hanswers] at hheadings
    exact hheadings

/-- The last word for east, and the first for west, turn a run to the one and to the other. -/
theorem words_share_headings_by_weight_at_first_cut :
    let last : UInt64 := 5534023222112866303
    let next : UInt64 := 5534023222112866304
    let e := Engine.start (Grid.ofLines [['?', '?']])
      (Source.ofWords fun n => if n = 0 then last else next)
    last ≤ next ∧ e.randomTurns (e.callsOfAll [.run 1]) = [.east, .west] ∧
      (e.carryOutAll [.run 1]).2.source = e.source.skip 2 ∧ Draws last .east ∧
      Draws next .west ∧ rank .east ≤ rank .west := by
  intro last next e
  obtain ⟨-, hrun, hdraws, hmono, -⟩ := words_share_headings_by_weight
    (fun n => if n = 0 then last else next) (Grid.ofLines [['?', '?']])
  have hle : last ≤ next := by decide
  have hturns : e.randomTurns (e.callsOfAll [.run 1]) = [.east, .west] := by decide +kernel
  have hsource := (hrun [.run 1]).2
  have hlast : heading last = .east := by decide
  have hnext : heading next = .west := by decide
  have hranks := hmono last next hle
  rw [hturns] at hsource
  rw [hlast, hnext] at hranks
  exact ⟨hle, hturns, hsource, (hdraws _ _).mpr hlast, (hdraws _ _).mpr hnext, hranks⟩

end Funge93.Random
