import Funge93.Viewer.Window
import Mathlib.Data.List.FinRange
import Mathlib.Data.List.Infix

/-!
# A frame pictures its scene

A frame tells of a session all that fits into a window, and nothing of it twice. It is given
here by what it has to contain. The places with a glyph are those without a space, listed
row by row, and that determines them. The lines of the log are its last ten, or all if there
are fewer. With these two lists at hand a frame is one list of items.

That nothing is drawn over anything else is a matter of order. The texts of a frame are
listed in the order in which a page is read, each below the one before it or to its right
(`precedes_origins`), and so no two begin at one point. The order holds because a row of
program space is one row of text: the first begins where the header ends and the last ends
where the status line begins.
-/

namespace Funge93

namespace Place

/-- Whether a place comes before another when program space is read row by row. -/
def Precedes (p q : Place) : Prop :=
  p.y < q.y ∨ p.y = q.y ∧ p.x < q.x

theorem mem_all (p : Place) : p ∈ all :=
  List.mem_flatMap.mpr
    ⟨p.y, List.mem_finRange p.y, List.mem_map.mpr ⟨p.x, List.mem_finRange p.x, rfl⟩⟩

theorem precedes_all : all.Pairwise Precedes := by
  refine List.pairwise_flatMap.mpr ⟨fun y _ => ?_, ?_⟩
  · refine List.pairwise_map.mpr ((List.pairwise_lt_finRange _).imp fun hx => ?_)
    exact .inr ⟨rfl, hx⟩
  · refine (List.pairwise_lt_finRange _).imp fun hy p hp q hq => ?_
    obtain ⟨x, -, rfl⟩ := List.mem_map.mp hp
    obtain ⟨x', -, rfl⟩ := List.mem_map.mp hq
    exact .inl hy

end Place

namespace Viewer

/-! ## The window as a page -/

namespace Layout

/-- Whether a point comes before another when a page is read. -/
def Point.Precedes (a b : Point) : Prop :=
  a.y < b.y ∨ a.y = b.y ∧ a.x < b.x

/-- Whether a rectangle lies between the header and the status line and within the
margins. -/
def InProgramSpace (origin : Point) (width height : Nat) : Prop :=
  (rowOrigin 0).y + cellHeight ≤ origin.y ∧ origin.y + height ≤ (rowOrigin statusRow).y ∧
    margin ≤ origin.x ∧ origin.x + width ≤ windowWidth - margin

theorem cellOrigin_inProgramSpace (p : Place) :
    InProgramSpace (cellOrigin p) cellWidth cellHeight := by
  have hx : p.x.val < 80 := p.x.isLt
  have hy : p.y.val < 25 := p.y.isLt
  simp only [InProgramSpace, cellOrigin, rowOrigin, gridTop, statusRow, windowWidth, margin,
    cellWidth, cellHeight]
  omega

theorem rowOrigin_lt {row : Nat} (h : row ≤ promptRow) :
    (rowOrigin row).x < windowWidth ∧ (rowOrigin row).y < windowHeight := by
  have hrow : row ≤ 37 := h
  have hwidth : windowWidth = 824 := rfl
  have hheight : windowHeight = 708 := rfl
  simp only [rowOrigin, margin, cellHeight]
  omega

theorem cellOrigin_lt (p : Place) :
    (cellOrigin p).x < windowWidth ∧ (cellOrigin p).y < windowHeight := by
  obtain ⟨-, hbelow, -, hright⟩ := cellOrigin_inProgramSpace p
  have hstatus : (rowOrigin statusRow).y < windowHeight := (rowOrigin_lt (by decide)).2
  simp only [cellWidth] at hright
  omega

theorem Point.Precedes.of_places {p q : Place} (h : p.Precedes q) :
    (cellOrigin p).Precedes (cellOrigin q) := by
  simp only [Place.Precedes, Fin.lt_def, Fin.ext_iff] at h
  simp only [Precedes, cellOrigin, gridTop, margin, cellWidth, cellHeight]
  omega

theorem Point.Precedes.of_rows {r r' : Nat} (h : r < r') :
    (rowOrigin r).Precedes (rowOrigin r') := by
  simp only [Precedes, rowOrigin, margin, cellHeight]
  omega

/-- The header comes before program space. -/
theorem Point.Precedes.of_header (p : Place) : (rowOrigin 0).Precedes (cellOrigin p) := by
  simp only [Precedes, cellOrigin, rowOrigin, gridTop, margin, cellHeight]
  omega

/-- The status line and what is below it come after program space. -/
theorem Point.Precedes.of_footer (p : Place) {r : Nat} (h : 26 ≤ r) :
    (cellOrigin p).Precedes (rowOrigin r) := by
  have hy : p.y.val < 25 := p.y.isLt
  simp only [Precedes, cellOrigin, rowOrigin, gridTop, margin, cellHeight]
  omega

theorem Point.Precedes.ne {a b : Point} (h : a.Precedes b) : a ≠ b := by
  rintro rfl
  simp only [Precedes] at h
  omega

end Layout

/-- Where a text begins. -/
def Item.origin? : Item → Option Layout.Point
  | text _ _ origin _ => some origin
  | marks _ => none

def Frame.origins (frame : Frame) : List Layout.Point :=
  frame.items.filterMap Item.origin?

/-! ## The parts of a frame -/

/-- The glyph of a place: its character, a middle dot for a control character, in the colour
of the background on the cell of the pointer. -/
def glyphAt (m : Machine) (p : Place) : Item :=
  .text (String.singleton (if Text.isControl (m.grid.get p) then '\u00b7' else m.grid.get p)) 16
    (Layout.cellOrigin p) (if p = m.place then .background else .text)

def lineAt (colour : Colour) (line : String × Nat) : Item :=
  .text line.1 16 (Layout.rowOrigin line.2) colour

/-- The cell of a place as a rectangle. -/
def markAt (style : Style) (colour : Colour) (p : Place) : Mark :=
  ⟨style, Layout.cellOrigin p, 10, 18, colour⟩

theorem filterMap_cellItem? (m : Machine) (ps : List Place) :
    ps.filterMap (Frame.cellItem? m) =
      (ps.filter fun p => m.grid.get p ≠ ' ').map (glyphAt m) := by
  induction ps with
  | nil => rfl
  | cons p ps ih =>
      rw [List.filterMap_cons, List.filter_cons, Frame.cellItem?]
      by_cases hspace : m.grid.get p = ' '
      · simp only [hspace, if_true, ne_eq, not_true_eq_false, decide_false, Bool.false_eq_true,
          if_false, ih]
      · simp only [hspace, if_false, ne_eq, not_false_eq_true, decide_true, if_true,
          List.map_cons, ih]
        rfl

theorem lines_eq_map (row : Nat) (contents : List String) (colour : Colour) :
    Frame.lines row contents colour = (contents.zipIdx row).map (lineAt colour) := by
  induction contents generalizing row with
  | nil => rfl
  | cons content rest ih =>
      rw [Frame.lines, ih, List.zipIdx_cons, List.map_cons]
      rfl

/-- What a frame of a scene is, given the places with a glyph and the lines of the log. -/
structure Pictures (s : Scene) (places : List Place) (recent : List String) : Prop where
  occupied : ∀ p, p ∈ places ↔ s.session.machine.grid.get p ≠ ' '
  ordered : places.Pairwise Place.Precedes
  newest : recent <:+ s.session.log.toList
  enough : recent.length = min 10 s.session.log.toList.length
  items : s.frame.items =
    .text s.session.header 16 (Layout.rowOrigin 0) .text
      :: .marks (markAt .filled .pointer s.session.machine.place
        :: (s.session.lastWrite.map (markAt .outlined .written)).toList)
      :: (places.map (glyphAt s.session.machine)
        ++ .text s.session.statusLine 16 (Layout.rowOrigin 26) .text
        :: ((recent.zipIdx 27).map (lineAt .dim)
          ++ [.text s.prompt.1 16 (Layout.rowOrigin 37) s.prompt.2]))

variable {s : Scene} {places : List Place} {recent : List String}

theorem exists_pictures (s : Scene) : ∃ places recent, Pictures s places recent := by
  refine ⟨Place.all.filter fun p => s.session.machine.grid.get p ≠ ' ', s.session.log.tail 10,
    ?_, ?_, ?_, ?_, ?_⟩
  · intro p
    rw [List.mem_filter, decide_eq_true_eq]
    exact and_iff_right p.mem_all
  · exact Place.precedes_all.filter _
  · rw [Log.tail_eq]
    exact List.drop_suffix _ _
  · rw [Log.tail_eq, lastOf, List.length_drop]
    omega
  · rw [← filterMap_cellItem?, ← lines_eq_map]
    rfl

namespace Pictures

theorem length_recent_le (h : Pictures s places recent) : recent.length ≤ 10 :=
  h.enough ▸ Nat.min_le_left _ _

/-- The rows of text below program space. -/
def footer (recent : List String) : List Nat :=
  26 :: (List.range' 27 recent.length ++ [37])

theorem origins_eq (h : Pictures s places recent) :
    s.frame.origins =
      Layout.rowOrigin 0 ::
        (places.map Layout.cellOrigin ++ (footer recent).map Layout.rowOrigin) := by
  have hglyphs : (places.map (glyphAt s.session.machine)).filterMap Item.origin? =
      places.map Layout.cellOrigin := by
    rw [List.filterMap_map]
    exact congrFun List.filterMap_eq_map places
  have hlines : ((recent.zipIdx 27).map (lineAt .dim)).filterMap Item.origin? =
      (List.range' 27 recent.length).map Layout.rowOrigin := by
    rw [List.filterMap_map, ← List.zipIdx_map_snd, List.map_map]
    exact congrFun List.filterMap_eq_map (recent.zipIdx 27)
  rw [Frame.origins, h.items]
  simp only [List.filterMap_cons, List.filterMap_append, List.filterMap_nil, Item.origin?,
    hglyphs, hlines, footer, List.map_cons, List.map_append, List.map_nil]

theorem mem_footer (h : Pictures s places recent) {r : Nat} (hr : r ∈ footer recent) :
    26 ≤ r ∧ r ≤ 37 := by
  have hfew := h.length_recent_le
  simp only [footer, List.mem_cons, List.mem_append, List.mem_range'_1, List.not_mem_nil,
    or_false] at hr
  omega

theorem pairwise_footer (h : Pictures s places recent) : (footer recent).Pairwise (· < ·) := by
  have hfew := h.length_recent_le
  refine List.pairwise_cons.mpr ⟨fun r hr => ?_, List.pairwise_append.mpr
    ⟨List.pairwise_lt_range', List.pairwise_singleton _ _, fun r hr r' hr' => ?_⟩⟩
  · simp only [List.mem_append, List.mem_range'_1, List.mem_singleton] at hr
    omega
  · rw [List.mem_range'_1] at hr
    rw [List.mem_singleton] at hr'
    omega

/-- The texts of a frame are listed as they are read. -/
theorem precedes_origins (h : Pictures s places recent) :
    s.frame.origins.Pairwise Layout.Point.Precedes := by
  rw [h.origins_eq, List.pairwise_cons, List.pairwise_append]
  refine ⟨fun o ho => ?_, ?_, ?_, fun o ho o' ho' => ?_⟩
  · rcases List.mem_append.mp ho with hcell | hrow
    · obtain ⟨p, -, rfl⟩ := List.mem_map.mp hcell
      exact .of_header p
    · obtain ⟨r, hr, rfl⟩ := List.mem_map.mp hrow
      exact .of_rows (Nat.lt_of_lt_of_le (by decide) (h.mem_footer hr).1)
  · exact List.pairwise_map.mpr (h.ordered.imp .of_places)
  · exact List.pairwise_map.mpr (h.pairwise_footer.imp .of_rows)
  · obtain ⟨p, -, rfl⟩ := List.mem_map.mp ho
    obtain ⟨r, hr, rfl⟩ := List.mem_map.mp ho'
    exact .of_footer p (h.mem_footer hr).1

/-- Each text begins in the window. -/
theorem origin_lt (h : Pictures s places recent) {o : Layout.Point} (ho : o ∈ s.frame.origins) :
    o.x < Layout.windowWidth ∧ o.y < Layout.windowHeight := by
  rw [h.origins_eq] at ho
  simp only [List.mem_cons, List.mem_append, List.mem_map] at ho
  rcases ho with rfl | ⟨p, -, rfl⟩ | ⟨r, hr, rfl⟩
  · exact Layout.rowOrigin_lt (by decide)
  · exact Layout.cellOrigin_lt p
  · exact Layout.rowOrigin_lt (h.mem_footer hr).2

end Pictures

/-- Drawing changes nothing, and shows a scene as it is: the header, the marks of the pointer
and of a cell just written, the glyphs of all cells but those with a space, row by row, the
status line, the end of the log and the prompt. No two texts begin at one point, each begins
in the window, and glyphs and marks lie in program space, between header and status line. -/
theorem draw_pictures (w : Window) :
    w.handle .draw = .ok w ∧ ∃ places recent,
      Pictures w.scene places recent ∧ w.scene.frame.origins.Nodup ∧
      (∀ p ∈ places, Layout.InProgramSpace (Layout.cellOrigin p) 10 18) ∧
      (∀ mark ∈ Frame.marks w.scene.session,
        Layout.InProgramSpace mark.origin mark.width mark.height) ∧
      (Layout.windowWidth = 824 ∧ Layout.windowHeight = 708) ∧
      ∀ o ∈ w.scene.frame.origins, o.x < Layout.windowWidth ∧ o.y < Layout.windowHeight := by
  refine ⟨rfl, ?_⟩
  obtain ⟨places, recent, h⟩ := exists_pictures w.scene
  refine ⟨places, recent, h, ?_, fun p _ => Layout.cellOrigin_inProgramSpace p, ?_, ⟨rfl, rfl⟩,
    fun o ho => h.origin_lt ho⟩
  · exact h.precedes_origins.imp Layout.Point.Precedes.ne
  · intro mark hmark
    rcases List.mem_cons.mp hmark with rfl | hwritten
    · exact Layout.cellOrigin_inProgramSpace _
    · obtain ⟨p, -, rfl⟩ := Option.map_eq_some_iff.mp (Option.mem_toList.mp hwritten)
      exact Layout.cellOrigin_inProgramSpace p

end Viewer

end Funge93
