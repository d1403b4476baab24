import ChipEight.Proofs.Machine.Flip
import Mathlib.Data.Int.Bitwise
import Mathlib.Data.List.Nodup

/-!
Drawing sprites. A sprite of up to 32 rows covers no cell twice, although its
rows run on over the right edge and over the bottom of the screen; so each cell
is combined with its bit by exclusive or, and a hit is a set bit over a cell
that was lit before (`draw_is_masked_xor`). A taller sprite comes back over
itself. Drawing is still the flipping of a list of cells, and what follows from
that alone holds for sprites of any height (`drawings_commute_and_cancel`).
-/

namespace ChipEight

theorem testBit_lowByte (n : Int) {i : Nat} (hi : i < 8) :
    (lowByte n).testBit i = n.testBit i := by
  cases n with
  | ofNat k =>
      have hlow : lowByte (Int.ofNat k) = k % 2 ^ 8 := by
        change ((k : Int) % 256).toNat = k % 2 ^ 8
        omega
      rw [hlow, Nat.testBit_mod_two_pow]
      simp [hi, Int.testBit]
  | negSucc k =>
      have hlow : lowByte (Int.negSucc k) = 2 ^ 8 - (k % 2 ^ 8 + 1) := by
        unfold lowByte
        omega
      rw [hlow, Nat.testBit_two_pow_sub_succ (Nat.mod_lt k (by decide)), Nat.testBit_mod_two_pow]
      simp [hi, Int.testBit]

namespace Screen

theorem val_cellAt (x y : Int) : ((cellAt x y).val : Int) = (64 * y + x) % 2048 := by
  simp only [cellAt]
  omega

theorem mem_setColumns {row : Int} {column : Nat} :
    column ∈ setColumns row ↔ column < 8 ∧ row.testBit (7 - column) = true := by
  rw [setColumns, List.mem_filter, List.mem_range]
  apply and_congr_right
  intro hcolumn
  rw [testBit_lowByte row (by omega)]

theorem mem_targets {x y : Int} {rows : List Int} {k : Fin 2048} :
    k ∈ targets x y rows ↔
      ∃ (r : Nat) (row : Int) (c : Nat), rows[r]? = some row ∧ c < 8 ∧
        row.testBit (7 - c) = true ∧ k = cellAt (x + c) (y + r) := by
  induction rows generalizing y with
  | nil => simp [targets]
  | cons first rest ih =>
      rw [targets, List.mem_append, List.mem_map, ih]
      constructor
      · rintro (⟨c, hc, rfl⟩ | ⟨r, row, c, hrow, hc, hbit, rfl⟩)
        · obtain ⟨hc, hbit⟩ := mem_setColumns.mp hc
          exact ⟨0, first, c, rfl, hc, hbit, by simp⟩
        · refine ⟨r + 1, row, c, hrow, hc, hbit, ?_⟩
          rw [Int.natCast_succ, Int.add_assoc, Int.add_comm 1]
      · rintro ⟨r, row, c, hrow, hc, hbit, rfl⟩
        cases r with
        | zero =>
            cases hrow
            exact Or.inl ⟨c, mem_setColumns.mpr ⟨hc, hbit⟩, by simp⟩
        | succ r =>
            refine Or.inr ⟨r, row, c, hrow, hc, hbit, ?_⟩
            rw [Int.natCast_succ, Int.add_assoc, Int.add_comm 1]

/-- Within 32 rows and 8 columns different places are different cells, wherever
the sprite is and over whichever edge it runs. -/
theorem cellAt_inj {x y : Int} {r r' c c' : Nat} (hr : r < 32) (hr' : r' < 32) (hc : c < 8)
    (hc' : c' < 8) (h : cellAt (x + c) (y + r) = cellAt (x + c') (y + r')) : r = r' ∧ c = c' := by
  have hval := congrArg (fun k : Fin 2048 => (k.val : Int)) h
  simp only [val_cellAt] at hval
  omega

theorem nodup_targets (x y : Int) {rows : List Int} (h : rows.length ≤ 32) :
    (targets x y rows).Nodup := by
  induction rows generalizing y with
  | nil => exact List.nodup_nil
  | cons first rest ih =>
      rw [List.length_cons] at h
      rw [targets, List.nodup_append]
      refine ⟨?_, ih (y + 1) (by omega), ?_⟩
      · apply List.Nodup.map_on
        · intro c hc c' hc' hsame
          obtain ⟨hc, -⟩ := mem_setColumns.mp hc
          obtain ⟨hc', -⟩ := mem_setColumns.mp hc'
          have hsame' : cellAt (x + c) (y + (0 : Nat)) = cellAt (x + c') (y + (0 : Nat)) := by
            simpa using hsame
          exact (cellAt_inj (by decide) (by decide) hc hc' hsame').2
        · exact List.nodup_range.filter _
      · -- A cell of the first row is no cell of a later one.
        rintro k hfirst k' hlater rfl
        obtain ⟨c, hc, rfl⟩ := List.mem_map.mp hfirst
        obtain ⟨hc, -⟩ := mem_setColumns.mp hc
        obtain ⟨r, row, c', hrow, hc', -, hsame⟩ := mem_targets.mp hlater
        obtain ⟨hr, -⟩ := List.getElem?_eq_some_iff.mp hrow
        have hsame' : cellAt (x + c) (y + (0 : Nat)) = cellAt (x + c') (y + (r + 1 : Nat)) := by
          rw [Int.natCast_succ, Int.add_comm (r : Int), ← Int.add_assoc]
          simpa using hsame
        cases (cellAt_inj (by decide) (by omega) hc hc' hsame').1

theorem lit_draw_of_mem (s : Screen) {x y : Int} {rows : List Int} (h : rows.length ≤ 32)
    {k : Fin 2048} (hk : k ∈ targets x y rows) : (s.draw x y rows).1.lit k = !s.lit k := by
  rw [draw, lit_flipAll, (nodup_targets x y h).count, if_pos hk]
  simp

theorem lit_draw_of_notMem (s : Screen) {x y : Int} {rows : List Int} {k : Fin 2048}
    (hk : k ∉ targets x y rows) : (s.draw x y rows).1.lit k = s.lit k := by
  rw [draw, lit_flipAll, List.count_eq_zero.mpr hk]
  simp

theorem draw_hit_iff (s : Screen) (x y : Int) {rows : List Int} (h : rows.length ≤ 32) :
    (s.draw x y rows).2 = true ↔ ∃ k ∈ targets x y rows, s.lit k = true :=
  flipAll_hit_of_nodup (nodup_targets x y h) s

theorem cellAt_mem_targets {x y : Int} {rows : List Int} (h : rows.length ≤ 32) {r c : Nat}
    {row : Int} (hrow : rows[r]? = some row) (hc : c < 8) :
    cellAt (x + c) (y + r) ∈ targets x y rows ↔ row.testBit (7 - c) = true := by
  rw [mem_targets]
  constructor
  · rintro ⟨r', row', c', hrow', hc', hbit, hsame⟩
    obtain ⟨hr, -⟩ := List.getElem?_eq_some_iff.mp hrow
    obtain ⟨hr', -⟩ := List.getElem?_eq_some_iff.mp hrow'
    obtain ⟨rfl, rfl⟩ := cellAt_inj (by omega) (by omega) hc hc' hsame
    rw [hrow] at hrow'
    rwa [Option.some.inj hrow']
  · intro hbit
    exact ⟨r, row, c, hrow, hc, hbit, rfl⟩

theorem lit_draw_under (s : Screen) {x y : Int} {rows : List Int} (h : rows.length ≤ 32)
    {r c : Nat} {row : Int} (hrow : rows[r]? = some row) (hc : c < 8) :
    (s.draw x y rows).1.lit (cellAt (x + c) (y + r)) =
      (s.lit (cellAt (x + c) (y + r)) ^^ row.testBit (7 - c)) := by
  have hcovered := cellAt_mem_targets (x := x) (y := y) h hrow hc
  cases hbit : row.testBit (7 - c) with
  | true =>
      rw [Bool.xor_true]
      exact lit_draw_of_mem s h (hcovered.mpr hbit)
  | false =>
      rw [Bool.xor_false]
      apply lit_draw_of_notMem
      rw [hcovered, hbit]
      exact Bool.false_ne_true

/-- Drawing a sprite of up to 32 rows combines each cell under it with its bit by
exclusive or, leaves every other cell as it was, and reports whether a set bit
fell on a cell that was lit before. -/
theorem draw_is_masked_xor (s : Screen) (x y : Int) (rows : List Int) (h : rows.length ≤ 32) :
    let drawn := s.draw x y rows
    (∀ (r : Nat) (row : Int) (c : Nat), rows[r]? = some row → c < 8 →
      drawn.1.lit (cellAt (x + c) (y + r)) =
        (s.lit (cellAt (x + c) (y + r)) ^^ row.testBit (7 - c))) ∧
    (∀ k : Fin 2048,
      (∀ r c : Nat, r < rows.length → c < 8 →
        (k.val : Int) ≠ (64 * (y + r) + x + c) % 2048) →
      drawn.1.lit k = s.lit k) ∧
    (drawn.2 = true ↔
      ∃ (r : Nat) (row : Int) (c : Nat), rows[r]? = some row ∧ c < 8 ∧
        row.testBit (7 - c) = true ∧ s.lit (cellAt (x + c) (y + r)) = true) := by
  intro drawn
  refine ⟨?_, ?_, ?_⟩
  · intro r row c hrow hc
    exact s.lit_draw_under h hrow hc
  · intro k hoff
    apply lit_draw_of_notMem
    intro hk
    obtain ⟨r, row, c, hrow, hc, -, rfl⟩ := mem_targets.mp hk
    obtain ⟨hr, -⟩ := List.getElem?_eq_some_iff.mp hrow
    apply hoff r c hr hc
    rw [val_cellAt, Int.add_assoc]
  · rw [draw_hit_iff s x y h]
    constructor
    · rintro ⟨k, hk, hlit⟩
      obtain ⟨r, row, c, hrow, hc, hbit, rfl⟩ := mem_targets.mp hk
      exact ⟨r, row, c, hrow, hc, hbit, hlit⟩
    · rintro ⟨r, row, c, hrow, hc, hbit, hlit⟩
      exact ⟨_, mem_targets.mpr ⟨r, row, c, hrow, hc, hbit, rfl⟩, hlit⟩

/-- A bar of six cells that begins in the last two cells of the screen meets the
one lit cell in the corner opposite. -/
theorem bar_over_corner :
    let s := blank.flip 0
    let drawn := s.draw 62 31 [0xFC]
    [(0xFC : Int)].length ≤ 32 ∧
      drawn.1.lit (cellAt (62 + (1 : Nat)) (31 + (0 : Nat))) = true ∧
      drawn.1.lit (cellAt (62 + (2 : Nat)) (31 + (0 : Nat))) = false ∧
      drawn.1.lit 100 = false ∧ drawn.2 = true := by
  intro s drawn
  have hfits : [(0xFC : Int)].length ≤ 32 := by decide
  have hdark (k : Fin 2048) (hk : k ≠ 0) : s.lit k = false := by
    rw [lit_flip, if_neg hk.symm]
    simp [blank, lit]
  have hcorner : s.lit 0 = true := by
    rw [lit_flip, if_pos rfl]
    simp [blank, lit]
  obtain ⟨hunder, hoff, hhit⟩ := draw_is_masked_xor s 62 31 [0xFC] hfits
  refine ⟨hfits, ?_, ?_, ?_, ?_⟩
  · rw [hunder 0 0xFC 1 rfl (by decide), hdark _ (by decide)]
    rfl
  · rw [hunder 0 0xFC 2 rfl (by decide), show cellAt (62 + (2 : Nat)) (31 + (0 : Nat)) = 0 from rfl,
      hcorner]
    rfl
  · rw [hoff 100 ?_, hdark _ (by decide)]
    intro r c hr hc
    simp only [List.length_singleton] at hr
    change (100 : Int) ≠ _
    omega
  · exact hhit.mpr ⟨0, 0xFC, 2, rfl, by decide, rfl, hcorner⟩

/-- A sprite and the place where it is drawn. -/
structure Drawing where
  x : Int
  y : Int
  rows : List Int

/-- Draws sprites one after another. -/
def drawAll (s : Screen) (drawings : List Drawing) : Screen :=
  drawings.foldl (fun s d => (s.draw d.x d.y d.rows).1) s

/-- The number of set bits among the low eight of every row. -/
def bitCount (rows : List Int) : Nat :=
  (rows.map fun row => (List.range 8).countP row.testBit).sum

theorem drawAll_eq_flipAll (s : Screen) (drawings : List Drawing) :
    s.drawAll drawings = (s.flipAll (drawings.flatMap fun d => targets d.x d.y d.rows)).1 := by
  induction drawings generalizing s with
  | nil => rfl
  | cons d rest ih =>
      rw [List.flatMap_cons, flipAll_append]
      exact ih (s.draw d.x d.y d.rows).1

theorem length_setColumns (row : Int) :
    (setColumns row).length = (List.range 8).countP row.testBit := by
  have hreverse : (List.range 8).map (7 - ·) = (List.range 8).reverse := by decide
  calc (setColumns row).length
      = (List.range 8).countP (fun column => (lowByte row).testBit (7 - column)) := by
        rw [setColumns, List.countP_eq_length_filter]
    _ = (List.range 8).countP (row.testBit ∘ (7 - ·)) := by
        apply List.countP_congr
        intro column _
        rw [testBit_lowByte row (by omega)]
        rfl
    _ = (List.range 8).countP row.testBit := by
        rw [← List.countP_map, hreverse, List.countP_reverse]

theorem length_targets (x y : Int) (rows : List Int) :
    (targets x y rows).length = bitCount rows := by
  induction rows generalizing y with
  | nil => rfl
  | cons row rest ih =>
      rw [targets, List.length_append, List.length_map, length_setColumns, ih]
      rfl

theorem targets_congr {x y x' y' : Int} (h : (64 * y + x) % 2048 = (64 * y' + x') % 2048)
    (rows : List Int) : targets x y rows = targets x' y' rows := by
  induction rows generalizing y y' with
  | nil => rfl
  | cons row rest ih =>
      have hcell (column : Nat) : cellAt (x + column) y = cellAt (x' + column) y' := by
        simp only [cellAt, Fin.mk.injEq]
        omega
      have hrest : (64 * (y + 1) + x) % 2048 = (64 * (y' + 1) + x') % 2048 := by omega
      simp only [targets, hcell, ih hrest]

/-- Drawings can be done in any order, and two equal ones cancel. A drawing
lights at most as many cells as it has set bits, and fewer exactly if it reports
a hit. Where it is drawn matters only through the cell of its corner. -/
theorem drawings_commute_and_cancel (s : Screen) :
    (∀ drawings drawings' : List Drawing, drawings.Perm drawings' →
      s.drawAll drawings = s.drawAll drawings') ∧
    (∀ (before between after : List Drawing) (d : Drawing),
      s.drawAll (before ++ d :: between ++ d :: after) =
        s.drawAll (before ++ between ++ after)) ∧
    (∀ (x y : Int) (rows : List Int),
      (s.draw x y rows).1.litCount ≤ s.litCount + bitCount rows ∧
      ((s.draw x y rows).2 = true ↔
        (s.draw x y rows).1.litCount < s.litCount + bitCount rows)) ∧
    (∀ (x y x' y' : Int) (rows : List Int),
      (64 * y + x) % 2048 = (64 * y' + x') % 2048 → s.draw x y rows = s.draw x' y' rows) := by
  refine ⟨?_, ?_, ?_, ?_⟩
  · intro drawings drawings' hperm
    rw [drawAll_eq_flipAll, drawAll_eq_flipAll]
    apply flipAll_congr
    intro k
    rw [(hperm.flatMap_right _).count_eq k]
  · intro before between after d
    rw [drawAll_eq_flipAll, drawAll_eq_flipAll]
    apply flipAll_congr
    intro k
    simp only [List.flatMap_append, List.flatMap_cons, List.count_append]
    omega
  · intro x y rows
    have hcount := litCount_flipAll s (targets x y rows)
    have hhit := flipAll_hit_iff s (targets x y rows)
    rw [length_targets] at hcount
    unfold draw
    rw [hhit]
    omega
  · intro x y x' y' rows hsame
    rw [draw, draw, targets_congr hsame]

/-- A sprite of 33 rows with a dot in the first and one in the last, which come
to lie on the same cell. -/
def dotOnDot (x y : Int) : Drawing := ⟨x, y, 0x80 :: List.replicate 31 0 ++ [0x80]⟩

theorem dotsOnDots_commute_and_cancel :
    let rows := (dotOnDot 5 0).rows
    [dotOnDot 5 0, dotOnDot 9 (-7), dotOnDot 5 0].Perm
        [dotOnDot 9 (-7), dotOnDot 5 0, dotOnDot 5 0] ∧
      blank.drawAll [dotOnDot 5 0, dotOnDot 9 (-7), dotOnDot 5 0] =
        blank.drawAll [dotOnDot 9 (-7), dotOnDot 5 0, dotOnDot 5 0] ∧
      blank.drawAll [dotOnDot 5 0, dotOnDot 9 (-7), dotOnDot 5 0] =
        blank.drawAll [dotOnDot 9 (-7)] ∧
      (blank.draw 5 0 rows).2 = true ∧
      (64 * 0 + 5 : Int) % 2048 = (64 * (-33) + 2117) % 2048 ∧
      blank.draw 5 0 rows = blank.draw 2117 (-33) rows := by
  intro rows
  obtain ⟨horder, hcancel, hcount, hplace⟩ := drawings_commute_and_cancel blank
  have hperm : [dotOnDot 5 0, dotOnDot 9 (-7), dotOnDot 5 0].Perm
      [dotOnDot 9 (-7), dotOnDot 5 0, dotOnDot 5 0] := List.Perm.swap _ _ _
  have hfewer : (blank.draw 5 0 rows).1.litCount < blank.litCount + bitCount rows := by
    decide +kernel
  have hsame : (64 * 0 + 5 : Int) % 2048 = (64 * (-33) + 2117) % 2048 := by decide
  exact ⟨hperm, horder _ _ hperm, hcancel [] [dotOnDot 9 (-7)] [] (dotOnDot 5 0),
    (hcount 5 0 rows).2.mpr hfewer, hsame, hplace 5 0 2117 (-33) rows hsame⟩

end Screen

end ChipEight
