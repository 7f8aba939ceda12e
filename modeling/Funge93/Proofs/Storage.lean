import Funge93.Proofs.Listing
import Funge93.Proofs.Refinement
import Mathlib.Data.List.Forall2

/-!
# Program space as a memory

A program may store a value at any column and row that are words, and get one from any. The
places are 2000, so each of them goes by a great many names, and what was stored under one name
is found under all the others. What is found is what was stored last, whatever the names; and
where nothing was stored, it is the character that was there from the beginning.

A value is stored as the character of its residue modulo 256, which is never negative, so
nothing of the sign is left. That two writes to different places do not see each other is the
same fact as that a read is not disturbed by them, seen from the other side
(`Grid.store_store`).
-/

namespace Funge93

theorem Place.wrap_eq_wrap_iff {x y x' y' : Int} :
    wrap x y = wrap x' y' ↔ x % 80 = x' % 80 ∧ y % 25 = y' % 25 := by
  rw [eq_wrap_iff, wrap_x, wrap_y]
  omega

/-- A value with the column and the row that it is to be stored at. -/
structure Write where
  x : Word
  y : Word
  value : Word
deriving DecidableEq

namespace Write

/-- Whether a write goes to the place that a column and a row name. -/
def Reaches (w : Write) (x y : Word) : Prop :=
  w.x.toInt % 80 = x.toInt % 80 ∧ w.y.toInt % 25 = y.toInt % 25

instance (w : Write) (x y : Word) : Decidable (w.Reaches x y) :=
  inferInstanceAs (Decidable (_ ∧ _))

/-- What a write has to say: the place with the residues of its column and its row, and the
character with the residue of its value. -/
def Reports (w : Write) (event : Event) : Prop :=
  ∃ (p : Place) (c : Char), event = .stored p c ∧ (p.x.val : Int) = w.x.toInt % 80 ∧
    (p.y.val : Int) = w.y.toInt % 25 ∧ (c.toNat : Int) = w.value.toInt % 256

def place (w : Write) : Place :=
  .wrap w.x.toInt w.y.toInt

def char (w : Write) : Char :=
  w.value.toByteChar

theorem reaches_iff {w : Write} {x y : Word} :
    w.Reaches x y ↔ w.place = .wrap x.toInt y.toInt :=
  Place.wrap_eq_wrap_iff.symm

theorem reports_stored (w : Write) : w.Reports (.stored w.place w.char) :=
  ⟨w.place, w.char, rfl, Place.wrap_x _ _, Place.wrap_y _ _, Word.toNat_toByteChar _⟩

end Write

/-! ## Program space after some writes -/

namespace Grid

def store (g : Grid) (w : Write) : Grid :=
  g.set w.place w.char

variable {g : Grid} {p : Place}

theorem get_store (g : Grid) (w : Write) (p : Place) :
    (g.store w).get p = if p = w.place then w.char else g.get p :=
  g.get_set w.place p w.char

/-- A place that nothing is stored at keeps its character. -/
theorem get_foldl_store_of_forall_ne {writes : List Write} (h : ∀ w ∈ writes, w.place ≠ p) :
    (writes.foldl store g).get p = g.get p := by
  induction writes generalizing g with
  | nil => rfl
  | cons w rest ih =>
      obtain ⟨hw, hrest⟩ := List.forall_mem_cons.mp h
      rw [List.foldl_cons, ih hrest, get_store, if_neg (Ne.symm hw)]

theorem get_foldl_store_of_last (before : List Write) (w : Write) {later : List Write}
    (h : ∀ w' ∈ later, w'.place ≠ w.place) :
    ((before ++ w :: later).foldl store g).get w.place = w.char := by
  rw [List.foldl_append, List.foldl_cons, get_foldl_store_of_forall_ne h, get_store, if_pos rfl]

theorem store_store {a b : Write} (h : a.place ≠ b.place) :
    (g.store a).store b = (g.store b).store a := by
  refine ext_get fun p => ?_
  rw [get_store, get_store, get_store, get_store]
  split
  · next hb =>
      -- The place is the one of `b`, so it is not the one of `a`.
      subst hb
      rw [if_neg (Ne.symm h)]
  · rfl

end Grid

/-! ## A machine that stores -/

namespace Machine

/-- The machine after some writes, one after the other, and the events that they came with. -/
def storingAll (m : Machine) : List Write → List Event × Machine
  | [] => ([], m)
  | w :: rest =>
    let done := m.storing w.x w.y w.value
    let after := done.2.storingAll rest
    (done.1 :: after.1, after.2)

/-- To store is to change program space and nothing else. -/
theorem storingAll_eq (m : Machine) (writes : List Write) :
    m.storingAll writes =
      (writes.map fun w => .stored w.place w.char,
        { m with grid := writes.foldl Grid.store m.grid }) := by
  induction writes generalizing m with
  | nil => rfl
  | cons w rest ih =>
      rw [storingAll, ih]
      rfl

theorem reports_storingAll (m : Machine) (writes : List Write) :
    List.Forall₂ Write.Reports writes (m.storingAll writes).1 := by
  rw [storingAll_eq]
  exact List.forall₂_map_right_iff.mpr (List.forall₂_same.mpr fun w _ => w.reports_stored)

/-- Program space remembers. Whatever was stored, and whichever names were used for it, the
character at a column and a row is that of the last value stored there: there, if the two
columns agree modulo 80 and the two rows modulo 25. If nothing was stored there it is the
character from before. Each write tells its place and its character, and two writes in a row
that go to different places may change their order. -/
theorem program_space_remembers_last_write (m : Machine) (writes : List Write) :
    let after := (m.storingAll writes).2
    (∀ x y : Word,
      let found := after.grid.get (.wrap x.toInt y.toInt)
      (∀ before w later, writes = before ++ w :: later → w.Reaches x y →
        (∀ w' ∈ later, ¬w'.Reaches x y) → (found.toNat : Int) = w.value.toInt % 256) ∧
      ((∀ w ∈ writes, ¬w.Reaches x y) →
        ∀ p : Place, (p.x.val : Int) = x.toInt % 80 → (p.y.val : Int) = y.toInt % 25 →
          found = m.grid.get p)) ∧
    List.Forall₂ Write.Reports writes (m.storingAll writes).1 ∧
    ∀ before a b later, writes = before ++ a :: b :: later → ¬a.Reaches b.x b.y →
      (m.storingAll (before ++ b :: a :: later)).2 = after := by
  intro after
  refine ⟨fun x y => ⟨?_, ?_⟩, m.reports_storingAll writes, ?_⟩
  · intro before w later hwrites hreaches hlater
    have hplace : w.place = .wrap x.toInt y.toInt := Write.reaches_iff.mp hreaches
    have hother : ∀ w' ∈ later, w'.place ≠ w.place := by
      intro w' hmem
      rw [hplace]
      exact mt Write.reaches_iff.mpr (hlater w' hmem)
    rw [← hplace, show after = _ from congrArg Prod.snd (m.storingAll_eq writes), hwrites,
      Grid.get_foldl_store_of_last before w hother]
    exact Word.toNat_toByteChar w.value
  · intro hnone p hx hy
    have hp : Place.wrap x.toInt y.toInt = p := by
      refine ((p.eq_wrap_iff _ _).mpr ?_).symm
      omega
    rw [hp, show after = _ from congrArg Prod.snd (m.storingAll_eq writes)]
    refine Grid.get_foldl_store_of_forall_ne fun w hmem => ?_
    rw [← hp]
    exact mt Write.reaches_iff.mpr (hnone w hmem)
  · rintro before a b later rfl hapart
    have hplaces : a.place ≠ b.place := mt Write.reaches_iff.mpr hapart
    show _ = (m.storingAll _).2
    rw [storingAll_eq, storingAll_eq]
    simp only [List.foldl_append, List.foldl_cons, Grid.store_store hplaces]

/-- A place under two of its names, of which one is as far off as a word can be, a place under
another name still, and one that nothing was stored at. -/
theorem program_space_remembers_last_write_far :
    let m := Machine.start (Grid.ofLines [['a']])
    let far : Write := ⟨Int64.maxValue, Int64.minValue, -1⟩
    let near : Write := ⟨-33, 67, -191⟩
    let other : Write := ⟨-1, -1, 256⟩
    let after := (m.storingAll [far, near, other]).2
    (near.Reaches 47 17 ∧ far.Reaches 47 17 ∧
      ((after.grid.get (.wrap 47 17)).toNat : Int) = 65) ∧
    (¬far.Reaches 0 0 ∧ after.grid.get (.wrap 0 0) = 'a') ∧
    (¬near.Reaches (-1) (-1) ∧ (m.storingAll [far, other, near]).2 = after) := by
  intro m far near other after
  have hreaches : near.Reaches 47 17 ∧ far.Reaches 47 17 := by decide
  have hother : ∀ w ∈ [other], ¬w.Reaches 47 17 := by decide
  have hnone : ∀ w ∈ [far, near, other], ¬w.Reaches 0 0 := by decide
  have hapart : ¬near.Reaches (-1) (-1) := by decide
  obtain ⟨hfound, -, hswap⟩ := program_space_remembers_last_write m [far, near, other]
  have hlast := (hfound 47 17).1 [far] near [other] rfl hreaches.1 hother
  have hfirst := (hfound 0 0).2 hnone Place.origin rfl rfl
  exact ⟨⟨hreaches.1, hreaches.2, hlast⟩, ⟨hnone far List.mem_cons_self, hfirst⟩, hapart,
    hswap [far] near other [] rfl hapart⟩

end Machine

end Funge93
