import ChipEight.Machine.Screen

/-!
Flipping cells one after another. A cell ends as it was or turned over,
depending on how often it is in the list (`lit_flipAll`), so the order of the
list does not matter and cells that come twice cancel. Each flip lights one
cell or meets a lit one and darkens it; counting the lit cells met gives the
number of lit cells afterwards and whether a hit is reported, also when a cell
comes more than once (`litCount_flipAll`, `flipAll_hit_iff`).
-/

namespace ChipEight.Screen

theorem eq_of_lit {s t : Screen} (h : ∀ k, s.lit k = t.lit k) : s = t := by
  cases s with
  | mk cells =>
      cases t with
      | mk cells' =>
          congr 1
          apply Vector.ext
          intro k hk
          exact h ⟨k, hk⟩

theorem flipAll_nil (s : Screen) : s.flipAll [] = (s, false) := rfl

theorem foldl_flip (s : Screen) (hit : Bool) (cells : List (Fin 2048)) :
    cells.foldl (fun (s, hit) k => (s.flip k, hit || s.lit k)) (s, hit) =
      ((s.flipAll cells).1, hit || (s.flipAll cells).2) := by
  induction cells generalizing s hit with
  | nil => simp [flipAll]
  | cons k rest ih =>
      simp only [flipAll, List.foldl_cons]
      rw [ih, ih (s.flip k) (false || s.lit k)]
      simp [Bool.or_assoc]

theorem flipAll_cons (s : Screen) (k : Fin 2048) (rest : List (Fin 2048)) :
    s.flipAll (k :: rest) =
      (((s.flip k).flipAll rest).1, s.lit k || ((s.flip k).flipAll rest).2) := by
  rw [flipAll, List.foldl_cons, foldl_flip, Bool.false_or]

theorem flipAll_append (s : Screen) (cells cells' : List (Fin 2048)) :
    (s.flipAll (cells ++ cells')).1 = ((s.flipAll cells).1.flipAll cells').1 := by
  induction cells generalizing s with
  | nil => rfl
  | cons k rest ih => rw [List.cons_append, flipAll_cons, flipAll_cons, ih]

/-- A cell is turned over once for each time it is in the list. -/
theorem lit_flipAll (s : Screen) (cells : List (Fin 2048)) (k : Fin 2048) :
    (s.flipAll cells).1.lit k = (s.lit k ^^ decide (cells.count k % 2 = 1)) := by
  induction cells generalizing s with
  | nil => simp [flipAll_nil]
  | cons j rest ih =>
      rw [flipAll_cons, ih, lit_flip, List.count_cons]
      by_cases hsame : j = k
      · have hodd : decide ((rest.count k + 1) % 2 = 1) = !decide (rest.count k % 2 = 1) := by
          rw [← decide_not]
          apply decide_eq_decide.mpr
          omega
        simp only [hsame, if_true, beq_self_eq_true, hodd, Bool.not_xor, Bool.xor_not]
      · simp only [hsame, beq_iff_eq, if_false, Nat.add_zero]

theorem flipAll_congr (s : Screen) {cells cells' : List (Fin 2048)}
    (h : ∀ k, cells.count k % 2 = cells'.count k % 2) :
    (s.flipAll cells).1 = (s.flipAll cells').1 := by
  apply eq_of_lit
  intro k
  rw [lit_flipAll, lit_flipAll, h k]

/-- A list without repetition meets each cell as it was before the first
flip. -/
theorem flipAll_hit_of_nodup {cells : List (Fin 2048)} (hcells : cells.Nodup) (s : Screen) :
    (s.flipAll cells).2 = true ↔ ∃ k ∈ cells, s.lit k = true := by
  induction cells generalizing s with
  | nil => simp [flipAll_nil]
  | cons k rest ih =>
      obtain ⟨hk, hrest⟩ := List.nodup_cons.mp hcells
      have hlit : ∀ j ∈ rest, (s.flip k).lit j = s.lit j := by
        intro j hj
        rw [lit_flip, if_neg]
        rintro rfl
        exact hk hj
      have hlater : (∃ j ∈ rest, (s.flip k).lit j = true) ↔ ∃ j ∈ rest, s.lit j = true := by
        constructor
        · rintro ⟨j, hj, h⟩
          exact ⟨j, hj, (hlit j hj).symm.trans h⟩
        · rintro ⟨j, hj, h⟩
          exact ⟨j, hj, (hlit j hj).trans h⟩
      rw [flipAll_cons, Bool.or_eq_true, ih hrest, hlater]
      simp

/-- How many lit cells the flips meet. -/
def hits (s : Screen) : List (Fin 2048) → Nat
  | [] => 0
  | k :: rest => (s.lit k).toNat + (s.flip k).hits rest

theorem flipAll_hit_iff (s : Screen) (cells : List (Fin 2048)) :
    (s.flipAll cells).2 = true ↔ 0 < s.hits cells := by
  induction cells generalizing s with
  | nil => simp [flipAll_nil, hits]
  | cons k rest ih =>
      rw [flipAll_cons, Bool.or_eq_true, ih, hits]
      cases s.lit k with
      | false => simp
      | true => simp [Nat.add_comm 1]

theorem litCount_flip (s : Screen) (k : Fin 2048) :
    (s.flip k).litCount + 2 * (s.lit k).toNat = s.litCount + 1 := by
  have hcount : (s.flip k).litCount =
      (s.litCount - if s.lit k = true then 1 else 0) + if s.lit k = true then 0 else 1 := by
    simp only [litCount, Vector.count_toList, flip]
    rw [Vector.count_set]
    cases hlit : s.lit k <;> simp_all [lit]
  have hpos : s.lit k = true → 0 < s.litCount := by
    intro hlit
    rw [litCount, Vector.count_toList, Vector.count_pos_iff, ← hlit]
    exact Vector.getElem_mem k.isLt
  cases hlit : s.lit k with
  | false =>
      rw [hcount, hlit]
      simp
  | true =>
      have := hpos hlit
      rw [hcount, hlit]
      simp only [if_true, Bool.toNat_true]
      omega

/-- Each flip lights a cell, except that a lit cell is darkened instead. -/
theorem litCount_flipAll (s : Screen) (cells : List (Fin 2048)) :
    (s.flipAll cells).1.litCount + 2 * s.hits cells = s.litCount + cells.length := by
  induction cells generalizing s with
  | nil => rfl
  | cons k rest ih =>
      have hfirst := litCount_flip s k
      have hrest := ih (s.flip k)
      rw [flipAll_cons, hits, List.length_cons]
      dsimp only
      omega

end ChipEight.Screen
