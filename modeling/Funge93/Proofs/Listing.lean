import Funge93.Grid
import Funge93.Proofs.Splitting
import Mathlib.Data.List.DropRight

/-!
# Loading and listing

A program space is loaded from a text and listed as rows. Neither loses anything of a
program space that a text can describe, which is one without terminators: its rows,
joined by line feeds, load to the very same one, whether they are given in full or
without the spaces that end them and the empty rows at the bottom. The spaces and rows
that are missing come back because whatever a text does not cover is a space, and no
row is lost in joining, since the last one is not empty.

The other way round, a text is not told by what it loads to, but all that counts of it
is its window: the first 80 characters of each of the first 25 lines, with spaces where
there are none.
-/

namespace Funge93

namespace Text

/-- The text whose lines are these rows. -/
def joined (rows : List (List Char)) : String :=
  String.ofList (['\n'].intercalate rows)

/-- The first characters of a line, so many of them, and spaces for those missing. -/
def padded (n : Nat) (line : List Char) : List Char :=
  (line.take n).rightpad n ' '

/-- The upper left corner of a text, of a width and a height, filled up with spaces. -/
def window (width height : Nat) (text : List Char) : List (List Char) :=
  (((allLines text).take height).rightpad height []).map (padded width)

/-- Nothing is lost with what ends a list if that is what is read beyond its end. -/
theorem getD_rdropWhile {α : Type} {p : α → Bool} {d : α} (h : ∀ x, p x = true → x = d)
    (xs : List α) (i : Nat) : (xs.rdropWhile p)[i]?.getD d = xs[i]?.getD d := by
  have hsplit : xs.rdropWhile p ++ xs.rtakeWhile p = xs := List.rdropWhile_append_rtakeWhile
  conv => rhs; rw [← hsplit]
  by_cases hi : i < (xs.rdropWhile p).length
  · rw [List.getElem?_append_left hi]
  · rw [List.getElem?_append_right (Nat.le_of_not_lt hi),
      List.getElem?_eq_none (Nat.le_of_not_lt hi)]
    cases hx : (xs.rtakeWhile p)[i - (xs.rdropWhile p).length]? with
    | none => rfl
    | some x => exact (h x (List.mem_rtakeWhile_imp (List.mem_of_getElem? hx))).symm

theorem getD_rightpad {α : Type} {n i : Nat} (hi : i < n) (d : α) (xs : List α) :
    (xs.rightpad n d)[i]? = some (xs[i]?.getD d) := by
  rw [List.rightpad]
  by_cases hxs : i < xs.length
  · rw [List.getElem?_append_left hxs, List.getElem?_eq_getElem hxs, Option.getD_some]
  · rw [List.getElem?_append_right (Nat.le_of_not_lt hxs), List.getElem?_eq_none
      (Nat.le_of_not_lt hxs), List.getElem?_replicate, if_pos (by omega), Option.getD_none]

theorem getElem?_padded {n i : Nat} (hi : i < n) (text : List Char) :
    (padded n text)[i]? = some (text[i]?.getD ' ') := by
  rw [padded, getD_rightpad hi, List.getElem?_take_of_lt hi]

theorem getElem?_window {width height y : Nat} (hy : y < height) (text : List Char) :
    (window width height text)[y]? =
      some (padded width ((allLines text)[y]?.getD [])) := by
  rw [window, List.getElem?_map, getD_rightpad hy, List.getElem?_take_of_lt hy]
  rfl

end Text

namespace Grid

open Text

variable (g : Grid)

theorem ext_get {g g' : Grid} (h : ∀ p, g.get p = g'.get p) : g = g' := by
  obtain ⟨rows⟩ := g
  obtain ⟨rows'⟩ := g'
  refine congrArg Grid.mk (Vector.ext fun y hy => Vector.ext fun x hx => ?_)
  exact h ⟨⟨x, hx⟩, ⟨y, hy⟩⟩

/-- The character in a row and a column of a list of rows, a space beyond them. -/
def charAt (rows : List (List Char)) (p : Place) : Char :=
  ((rows[p.y.val]?.getD [])[p.x.val]?).getD ' '

theorem get_ofLines (rows : List (List Char)) (p : Place) :
    (ofLines rows).get p = charAt rows p :=
  get_tabulate _ p

theorem getElem?_toRows (p : Place) :
    (g.toRows[p.y.val]?.getD [])[p.x.val]? = some (g.get p) := by
  have hrow : g.toRows[p.y.val]? = some (g.rows[p.y]).toList := by
    rw [toRows, List.getElem?_map]
    simp
  rw [hrow, Option.getD_some]
  simp [get]

theorem charAt_toRows (p : Place) : charAt g.toRows p = g.get p := by
  rw [charAt, g.getElem?_toRows p, Option.getD_some]

theorem charAt_listing (p : Place) : charAt g.listing p = g.get p := by
  have hrow : g.listing[p.y.val]?.getD [] =
      (g.toRows.map (dropEnd (· == ' ')))[p.y.val]?.getD [] :=
    getD_rdropWhile (fun row h => List.isEmpty_iff.mp h) _ _
  have hspace : dropEnd (· == ' ') [] = [] := rfl
  rw [charAt, hrow, List.getElem?_map, ← charAt_toRows, charAt]
  cases g.toRows[p.y.val]? with
  | none => rfl
  | some row => exact getD_rdropWhile (fun c h => eq_of_beq h) row _

theorem toRows_ofLines {rows : List (List Char)} (hheight : rows.length = 25)
    (hwidth : ∀ row ∈ rows, row.length = 80) : (ofLines rows).toRows = rows := by
  refine List.ext_getElem (by simp [toRows, hheight]) ?_
  intro y hy hy'
  refine List.ext_getElem ?_ ?_
  · rw [hwidth _ (List.getElem_mem hy')]
    simp [toRows]
  · intro x hx hx'
    simp [toRows, ofLines, tabulate, hy', hx']

/-- All that counts of a text is its window. -/
theorem load_eq_ofLines_window (text : String) :
    load text = ofLines (window 80 25 text.toList) := by
  refine ext_get fun p => ?_
  rw [load, lines_eq_take, get_ofLines, get_ofLines, charAt, charAt,
    getElem?_window p.y.isLt, Option.getD_some, getElem?_padded p.x.isLt,
    List.getElem?_take_of_lt p.y.isLt]
  rfl

theorem toRows_load (text : String) : (load text).toRows = window 80 25 text.toList := by
  rw [load_eq_ofLines_window]
  refine toRows_ofLines ?_ ?_
  · rw [window, List.length_map, List.length_rightpad, List.length_take]
    omega
  · intro row hrow
    simp only [window, List.mem_map] at hrow
    obtain ⟨line, -, rfl⟩ := hrow
    rw [padded, List.length_rightpad, List.length_take]
    omega

theorem get_load_not_mem (text : String) (p : Place) :
    (load text).get p ∉ terminators := by
  rw [← isTerminator_iff, Bool.not_eq_true, load, get_ofLines, charAt]
  cases hrow : (lines Torus.height text.toList)[p.y.val]? with
  | none => rfl
  | some row =>
      rw [Option.getD_some]
      cases hc : row[p.x.val]? with
      | none => rfl
      | some c =>
          exact unbroken_of_mem_lines _ (List.mem_of_getElem? hrow) c
            (List.mem_of_getElem? hc)

/-! ## Rows that are joined and loaded -/

theorem load_joined {rows : List (List Char)} (hrows : ∀ row ∈ rows, Unbroken row)
    (hlast : rows.getLast? ≠ some []) (hheight : rows.length ≤ 25) :
    load (joined rows) = ofLines rows := by
  rw [load, joined, String.toList_ofList, lines_intercalate _ hrows hlast,
    List.take_of_length_le hheight]

variable {g}

theorem unbroken_of_mem_toRows (h : ∀ p, g.get p ∉ terminators) {row : List Char}
    (hrow : row ∈ g.toRows) : Unbroken row := by
  intro c hc
  obtain ⟨cells, hcells, rfl⟩ := List.mem_map.mp hrow
  obtain ⟨y, hy, rfl⟩ := List.mem_iff_getElem.mp hcells
  obtain ⟨x, hx, rfl⟩ := List.mem_iff_getElem.mp hc
  rw [Vector.length_toList] at hy hx
  rw [← Bool.not_eq_true, isTerminator_iff]
  exact h ⟨⟨x, hx⟩, ⟨y, hy⟩⟩

theorem load_joined_toRows (h : ∀ p, g.get p ∉ terminators) :
    load (joined g.toRows) = g := by
  have hheight : g.toRows.length = 25 := by simp [toRows]
  have hwidth : ∀ row ∈ g.toRows, row ≠ [] := by
    intro row hrow hnil
    obtain ⟨cells, -, hcells⟩ := List.mem_map.mp hrow
    have hlength := congrArg List.length (hcells.trans hnil)
    rw [Vector.length_toList] at hlength
    cases hlength
  rw [load_joined (fun _ => unbroken_of_mem_toRows h)
    (fun hlast => hwidth _ (List.mem_of_getLast? hlast) rfl) hheight.le]
  refine ext_get fun p => ?_
  rw [get_ofLines, charAt_toRows]

theorem load_joined_listing (h : ∀ p, g.get p ∉ terminators) :
    load (joined g.listing) = g := by
  have hlisting : g.listing <+: g.toRows.map (dropEnd (· == ' ')) :=
    List.rdropWhile_prefix _ _
  have hrows : ∀ row ∈ g.listing, Unbroken row := by
    intro row hrow c hc
    obtain ⟨full, hfull, rfl⟩ := List.mem_map.mp (hlisting.subset hrow)
    exact unbroken_of_mem_toRows h hfull c ((List.rdropWhile_prefix _ _).subset hc)
  have hlast : g.listing.getLast? ≠ some [] := by
    intro hlast
    have hne : g.listing ≠ [] := fun hnil => by
      rw [hnil] at hlast
      cases hlast
    rw [List.getLast?_eq_some_getLast hne] at hlast
    refine List.rdropWhile_last_not List.isEmpty (g.toRows.map (dropEnd (· == ' '))) hne ?_
    exact List.isEmpty_iff.mpr (Option.some.inj hlast)
  have hheight : g.listing.length ≤ 25 := by
    refine hlisting.length_le.trans ?_
    simp [toRows]
  rw [load_joined hrows hlast hheight]
  refine ext_get fun p => ?_
  rw [get_ofLines, charAt_listing]

/-- A loaded program space holds no terminator. It comes back from its own rows, in full
or as they are listed, and so does every program space without terminators. Two texts
load to the same one exactly if they agree on the first 80 characters of each of their
first 25 lines, with spaces for what is missing. -/
theorem load_inverts_listing (g : Grid) (text other : String) :
    (∀ p, (load text).get p ∉ terminators) ∧
      (load (joined (load text).toRows) = load text ∧
        load (joined (load text).listing) = load text) ∧
      ((∀ p, g.get p ∉ terminators) →
        load (joined g.toRows) = g ∧ load (joined g.listing) = g) ∧
      (load text = load other ↔ window 80 25 text.toList = window 80 25 other.toList) := by
  have hloaded := get_load_not_mem text
  refine ⟨hloaded, ⟨load_joined_toRows hloaded, load_joined_listing hloaded⟩, ?_, ?_⟩
  · intro h
    exact ⟨load_joined_toRows h, load_joined_listing h⟩
  · constructor
    · intro h
      rw [← toRows_load, ← toRows_load, h]
    · intro h
      rw [load_eq_ofLines_window, load_eq_ofLines_window, h]

/-- Three lines, the second one empty, and a text that differs from them only in how its
lines end, by spaces, and beyond the right edge. -/
theorem load_inverts_listing_cut :
    let text := "a\r\n\nb"
    let other := joined [['a'] ++ List.replicate 79 ' ' ++ ['x'], [], ['b', ' '], []]
    load text = load other ∧ (load text).listing = [['a'], [], ['b']] ∧
      (∀ p, (load text).get p ∉ terminators) ∧
      load (joined [['a'], [], ['b']]) = load text := by
  intro text other
  have hwindow : window 80 25 text.toList = window 80 25 other.toList := by decide +kernel
  have hlisting : (load text).listing = [['a'], [], ['b']] := by
    rw [listing, toRows_load]
    decide +kernel
  obtain ⟨hloaded, -, hback, hsame⟩ := load_inverts_listing (load text) text other
  refine ⟨hsame.mpr hwindow, hlisting, hloaded, ?_⟩
  rw [← hlisting]
  exact (hback hloaded).2

end Grid

end Funge93
