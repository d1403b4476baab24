import ChipEight.Machine.Word

/-!
The screen: 32 rows of 64 cells, lit or dark, stored row after row as one ring
of 2048 cells. A sprite is a list of eight-cell rows; drawing flips the cells
under its set bits one after another and reports whether a lit cell was met.
A row that runs over the right edge goes on in the next row.
-/

namespace ChipEight

/-- The cells of the screen in row order; a lit cell is `true`. -/
structure Screen where
  cells : Vector Bool 2048
  deriving DecidableEq

namespace Screen

def blank : Screen := ⟨Vector.replicate 2048 false⟩

def cellAt (x y : Int) : Fin 2048 :=
  ⟨((64 * y + x) % 2048).toNat, by omega⟩

def lit (s : Screen) (k : Fin 2048) : Bool := s.cells[k]

def flip (s : Screen) (k : Fin 2048) : Screen :=
  ⟨s.cells.set k (!s.lit k)⟩

theorem lit_flip (s : Screen) (j k : Fin 2048) :
    (s.flip k).lit j = if k = j then !s.lit j else s.lit j := by
  simp only [lit, flip, Fin.getElem_fin, Vector.getElem_set, Fin.ext_iff]
  split
  · simp [*]
  · rfl

def setColumns (row : Int) : List Nat :=
  (List.range 8).filter fun column => (lowByte row).testBit (7 - column)

def targets (x y : Int) : List Int → List (Fin 2048)
  | [] => []
  | row :: rest =>
    (setColumns row).map (fun column : Nat => cellAt (x + column) y) ++ targets x (y + 1) rest

/-- Flips cells in order and reports whether one of them was lit when its turn
came. -/
def flipAll (s : Screen) (cells : List (Fin 2048)) : Screen × Bool :=
  cells.foldl (fun (s, hit) k => (s.flip k, hit || s.lit k)) (s, false)

def draw (s : Screen) (x y : Int) (rows : List Int) : Screen × Bool :=
  s.flipAll (targets x y rows)

def litCells (s : Screen) : List (Fin 2048) :=
  (List.finRange 2048).filter s.lit

def litCount (s : Screen) : Nat := s.cells.toList.count true

/-- The rows of the screen, each as its 64 cells read as one number with the
leftmost cell most significant. -/
def rowWords (s : Screen) : List Nat :=
  (List.range 32).map fun y : Nat =>
    (List.range 64).foldl (fun (n x : Nat) => 2 * n + (s.lit (cellAt x y)).toNat) 0

end Screen

end ChipEight
