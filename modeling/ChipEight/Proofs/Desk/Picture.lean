import ChipEight.Desk.Control
import Mathlib.Data.List.FinRange

/-!
The picture on the screen is the presented frame, magnified. A cell's square covers
just the points whose coordinates, divided by the scale, are its column and its row
(`covers_square_iff`), so squares of different cells do not meet and none leaves the
screen. The squares come after the background, and a point keeps the color of the
last rectangle that covers it. So it is white if the cell under it is lit; otherwise
it is black as far as the canvas reaches, whatever was asked for before
(`colorAt_paint`).
-/

namespace ChipEight

namespace Request

/-- The request fills the point. -/
def Covers (px py : Nat) : Request → Prop
  | fill x y width height _ => (x ≤ px ∧ px < x + width) ∧ y ≤ py ∧ py < y + height
  | _ => False

instance (px py : Nat) (r : Request) : Decidable (r.Covers px py) := by
  cases r with
  | fill => exact inferInstanceAs (Decidable (_ ∧ _))
  | _ => exact inferInstanceAs (Decidable False)

/-- The color of the point after one more request. -/
def colorAfter (px py : Nat) (before : Option Color) (r : Request) : Option Color :=
  match r with
  | fill _ _ _ _ color => if r.Covers px py then some color else before
  | _ => before

/-- The color of the point after the requests. -/
def colorAt (px py : Nat) (requests : List Request) : Option Color :=
  requests.foldl (colorAfter px py) none

/-- No point is filled twice. -/
def Apart (r r' : Request) : Prop := ∀ px py, ¬(r.Covers px py ∧ r'.Covers px py)

end Request

/-- A point of a screen whose cells are magnified by the scale. -/
structure CanvasPoint (scale : Nat) where
  x : Fin (64 * scale)
  y : Fin (32 * scale)

namespace CanvasPoint

variable {scale : Nat}

theorem scale_pos (p : CanvasPoint scale) : 0 < scale := by
  have hx := p.x.isLt
  omega

theorem column_lt (p : CanvasPoint scale) : p.x.val / scale < 64 :=
  (Nat.div_lt_iff_lt_mul p.scale_pos).mpr p.x.isLt

theorem row_lt (p : CanvasPoint scale) : p.y.val / scale < 32 :=
  (Nat.div_lt_iff_lt_mul p.scale_pos).mpr p.y.isLt

/-- The cell under the point. -/
def cell (p : CanvasPoint scale) : Fin 2048 :=
  ⟨64 * (p.y.val / scale) + p.x.val / scale, by
    have hcolumn := p.column_lt
    have hrow := p.row_lt
    omega⟩

end CanvasPoint

theorem length_filter_finRange {n : Nat} (v : Vector Bool n) :
    ((List.finRange n).filter fun k => v[k]).length = v.toList.count true := by
  have hlist : v.toList = (List.finRange n).map fun k => v[k] := by
    rw [← List.ofFn_eq_map]
    apply List.ext_getElem <;> simp
  rw [hlist, List.count, List.countP_map, ← List.countP_eq_length_filter]
  simp [Function.comp_def]

theorem Screen.length_litCells (s : Screen) : s.litCells.length = s.litCount :=
  length_filter_finRange s.cells

theorem Screen.mem_litCells {s : Screen} {k : Fin 2048} : k ∈ s.litCells ↔ s.lit k = true := by
  simp [litCells]

theorem Screen.nodup_litCells (s : Screen) : s.litCells.Nodup :=
  (List.nodup_finRange 2048).filter s.lit

namespace Desk

theorem scale_pos_of_covers {scale px py : Nat} {k : Fin 2048}
    (h : (square scale k).Covers px py) : 0 < scale := by
  obtain ⟨⟨hleft, hright⟩, -⟩ := h
  omega

theorem covers_square_iff {scale : Nat} (hscale : 0 < scale) (k : Fin 2048) (px py : Nat) :
    (square scale k).Covers px py ↔ px / scale = k.val % 64 ∧ py / scale = k.val / 64 := by
  rw [Nat.div_eq_iff hscale, Nat.div_eq_iff hscale]
  simp only [square, Request.Covers]
  omega

theorem covers_square_iff_cell {scale : Nat} (p : CanvasPoint scale) (k : Fin 2048) :
    (square scale k).Covers p.x p.y ↔ k = p.cell := by
  have hcolumn := p.column_lt
  rw [covers_square_iff p.scale_pos, Fin.ext_iff]
  change _ ↔ k.val = 64 * (p.y.val / scale) + p.x.val / scale
  generalize p.x.val / scale = column at *
  generalize p.y.val / scale = row
  omega

theorem eq_of_covers {scale px py : Nat} {k k' : Fin 2048}
    (h : (square scale k).Covers px py) (h' : (square scale k').Covers px py) : k = k' := by
  have hscale := scale_pos_of_covers h
  rw [covers_square_iff hscale] at h h'
  omega

theorem inside_of_covers {scale px py : Nat} {k : Fin 2048}
    (h : (square scale k).Covers px py) : px < 64 * scale ∧ py < 32 * scale := by
  have hscale := scale_pos_of_covers h
  have hk := k.isLt
  rw [covers_square_iff hscale] at h
  rw [← Nat.div_lt_iff_lt_mul hscale, ← Nat.div_lt_iff_lt_mul hscale]
  omega

/-- Squares are white, so it does not matter which of them comes last. -/
theorem foldl_colorAfter_squares (scale px py : Nat) (cells : List (Fin 2048))
    (before : Option Color) :
    (cells.map (square scale)).foldl (Request.colorAfter px py) before =
      if ∃ k ∈ cells, (square scale k).Covers px py then some .white else before := by
  induction cells generalizing before with
  | nil => simp
  | cons k rest ih =>
      have hfirst : Request.colorAfter px py before (square scale k) =
          if (square scale k).Covers px py then some .white else before := rfl
      rw [List.map_cons, List.foldl_cons, ih, hfirst]
      by_cases hlater : ∃ k ∈ rest, (square scale k).Covers px py
      · simp [hlater]
      · simp [hlater]

theorem requests_paint (d : Desk) (width height : Nat) :
    (d.paint width height).requests.toList =
      d.requests.toList ++ .fill 0 0 width height .black ::
        d.frame.litCells.map (square d.scale) := by
  simp [paint]

theorem exists_square_covers_iff (d : Desk) (p : CanvasPoint d.scale) :
    (∃ k ∈ d.frame.litCells, (square d.scale k).Covers p.x p.y) ↔
      d.frame.lit p.cell = true := by
  simp only [covers_square_iff_cell, Screen.mem_litCells, exists_eq_right]

theorem covers_background_iff (px py width height : Nat) :
    (Request.fill 0 0 width height .black).Covers px py ↔ px < width ∧ py < height := by
  simp [Request.Covers]

theorem colorAt_paint (d : Desk) (width height : Nat) (p : CanvasPoint d.scale) :
    Request.colorAt p.x p.y (d.paint width height).requests.toList =
      if d.frame.lit p.cell then some .white
      else if p.x < width ∧ p.y < height then some .black
      else Request.colorAt p.x p.y d.requests.toList := by
  rw [requests_paint, Request.colorAt, List.foldl_append, List.foldl_cons,
    foldl_colorAfter_squares]
  simp only [exists_square_covers_iff, Request.colorAfter, covers_background_iff, Request.colorAt]

/-- A canvas of the size that it asks for reaches over the whole screen. -/
theorem colorAt_paint_canvasSize (d : Desk) (p : CanvasPoint d.scale) :
    Request.colorAt p.x p.y (d.paint (64 * d.scale) (32 * d.scale)).requests.toList =
      some (if d.frame.lit p.cell then .white else .black) := by
  rw [colorAt_paint, if_pos (⟨p.x.isLt, p.y.isLt⟩ : _ ∧ _)]
  split <;> rfl

/-- Painting a canvas fills the background, as far as the canvas reaches, and then one
square for each lit cell of the frame. The squares keep apart and within the screen, and
they cover a point just if the cell under it is lit. On a canvas of the size that it asks
for, every other point is black. -/
theorem picture_is_magnified_frame (d : Desk) (width height : Nat) :
    let s := d.scale
    d.canvasSize = (64 * s, 32 * s) ∧
    ∃ squares : List Request,
      (d.paint width height).requests.toList =
        d.requests.toList ++ .fill 0 0 width height .black :: squares ∧
      squares.length = d.frame.litCount ∧
      (∀ r, r ∈ squares ↔ ∃ k : Fin 2048, d.frame.lit k = true ∧
        r = .fill (k.val % 64 * s) (k.val / 64 * s) s s .white) ∧
      squares.Pairwise Request.Apart ∧
      (∀ r ∈ squares, ∀ px py, r.Covers px py → px < 64 * s ∧ py < 32 * s) ∧
      ∀ p : CanvasPoint s,
        ((∃ r ∈ squares, r.Covers p.x p.y) ↔ d.frame.lit p.cell = true) ∧
        (Request.colorAt p.x p.y (d.paint width height).requests.toList =
          if d.frame.lit p.cell then some .white
          else if p.x < width ∧ p.y < height then some .black
          else Request.colorAt p.x p.y d.requests.toList) ∧
        Request.colorAt p.x p.y (d.paint (64 * s) (32 * s)).requests.toList =
          some (if d.frame.lit p.cell then .white else .black) := by
  intro s
  refine ⟨rfl, d.frame.litCells.map (square s), d.requests_paint width height, ?_, ?_, ?_, ?_, ?_⟩
  · rw [List.length_map, Screen.length_litCells]
  · intro r
    simp only [List.mem_map, Screen.mem_litCells, square, eq_comm]
  · rw [List.pairwise_map]
    apply d.frame.nodup_litCells.imp
    rintro k k' hdifferent px py ⟨h, h'⟩
    exact hdifferent (eq_of_covers h h')
  · intro r hr px py hcovers
    obtain ⟨k, -, rfl⟩ := List.mem_map.mp hr
    exact inside_of_covers hcovers
  · intro p
    refine ⟨?_, d.colorAt_paint width height p, d.colorAt_paint_canvasSize p⟩
    rw [← exists_square_covers_iff]
    simp only [List.mem_map, exists_exists_and_eq_and]
    rfl

end Desk

end ChipEight
