import ChipEight.Host.Settings
import Mathlib.Algebra.Ring.Nat
import Mathlib.Data.Rat.Floor

/-!
The batches of many frames. What the frames run and what is carried on at their
end add up to what was carried in and the instruction rate once for each frame.
What is carried stays below one instruction, so the batches add up to the whole
part of that amount (`sum_batches`). Along any history of batches and resets the
same balance holds since the last reset (`Balanced`), and from wherever the
history has come to, the frames of one second run the instruction rate exactly.
-/

namespace ChipEight.Pacer

@[simp] theorem frameRate_batch (c : Pacer) : c.batch.2.frameRate = c.frameRate := rfl

@[simp] theorem instructionRate_batch (c : Pacer) :
    c.batch.2.instructionRate = c.instructionRate := rfl

@[simp] theorem batches_succ (c : Pacer) (n : Nat) :
    c.batches (n + 1) = (c.batch.1 :: (c.batch.2.batches n).1, (c.batch.2.batches n).2) := rfl

theorem frameRate_mul_sum_batches (c : Pacer) (n : Nat) :
    c.frameRate * (c.batches n).1.sum + (c.batches n).2.carry =
      c.carry + n * c.instructionRate := by
  induction n generalizing c with
  | zero => simp [batches]
  | succ n ih =>
      have hfirst := c.frameRate_mul_batch
      have hrest := ih c.batch.2
      simp only [frameRate_batch, instructionRate_batch] at hrest
      simp only [batches_succ, List.sum_cons, Nat.mul_add, Nat.succ_mul]
      omega

theorem carry_batches_lt {c : Pacer} (h : c.carry < c.frameRate) (n : Nat) :
    (c.batches n).2.carry < c.frameRate := by
  induction n generalizing c with
  | zero => exact h
  | succ n ih => exact ih (c := c.batch.2) c.carry_batch_lt

/-- Nothing is gained or lost over the frames but the rest that is carried. -/
theorem sum_batches {c : Pacer} (h : c.carry < c.frameRate) (n : Nat) :
    (c.batches n).1.sum = (c.carry + n * c.instructionRate) / c.frameRate := by
  rw [← frameRate_mul_sum_batches, Nat.mul_add_div c.frameRate_pos,
    Nat.div_eq_of_lt (carry_batches_lt h n), Nat.add_zero]

/-- What can be asked of a pacer. -/
inductive Request where
  | batch
  | reset

def answer (c : Pacer) : Request → Pacer
  | .batch => c.batch.2
  | .reset => c.reset

def follow (c : Pacer) (requests : List Request) : Pacer :=
  requests.foldl answer c

/-- The batches handed out since the last reset, after those that were handed
out before the requests. -/
def issued (c : Pacer) (earlier : List Nat) : List Request → List Nat
  | [] => earlier
  | .batch :: rest => c.batch.2.issued (earlier ++ [c.batch.1]) rest
  | .reset :: rest => c.reset.issued [] rest

/-- The batches so far and what is carried come to the instruction rate once for
each batch. -/
structure Balanced (c : Pacer) (batches : List Nat) : Prop where
  total : c.frameRate * batches.sum + c.carry = batches.length * c.instructionRate
  carry : c.carry < c.frameRate

theorem balanced_of_carry_zero {c : Pacer} (h : c.carry = 0) : c.Balanced [] := by
  constructor
  · simp [h]
  · rw [h]
    exact c.frameRate_pos

theorem Balanced.batch {c : Pacer} {batches : List Nat} (h : c.Balanced batches) :
    c.batch.2.Balanced (batches ++ [c.batch.1]) := by
  constructor
  · have htotal := h.total
    have hbatch := c.frameRate_mul_batch
    simp only [frameRate_batch, instructionRate_batch, List.sum_append, List.sum_singleton,
      List.length_append, List.length_singleton, Nat.mul_add, Nat.add_mul, Nat.one_mul]
    omega
  · exact c.carry_batch_lt

theorem Balanced.follow {c : Pacer} {batches : List Nat} (h : c.Balanced batches)
    (requests : List Request) : (c.follow requests).Balanced (c.issued batches requests) := by
  induction requests generalizing c batches with
  | nil => exact h
  | cons request rest ih =>
      cases request with
      | batch => exact ih h.batch
      | reset => exact ih (c := c.reset) (balanced_of_carry_zero rfl)

theorem rates_follow (c : Pacer) (requests : List Request) :
    (c.follow requests).instructionRate = c.instructionRate ∧
      (c.follow requests).frameRate = c.frameRate := by
  induction requests generalizing c with
  | nil => exact ⟨rfl, rfl⟩
  | cons request rest ih =>
      cases request with
      | batch => exact ih c.batch.2
      | reset => exact ih c.reset

theorem Balanced.sum_eq {c : Pacer} {batches : List Nat} (h : c.Balanced batches) :
    batches.sum = batches.length * c.instructionRate / c.frameRate := by
  rw [← h.total, Nat.mul_add_div c.frameRate_pos, Nat.div_eq_of_lt h.carry, Nat.add_zero]

/-- With less than one instruction carried in, a batch is the quotient of the
rates rounded down or up. -/
theorem batch_eq_floor_or_ceil {c : Pacer} (h : c.carry < c.frameRate) :
    (c.batch.1 : Int) = ⌊(c.instructionRate / c.frameRate : ℚ)⌋ ∨
      (c.batch.1 : Int) = ⌈(c.instructionRate / c.frameRate : ℚ)⌉ := by
  have hlow : ⌊(c.instructionRate / c.frameRate : ℚ)⌋ ≤ (c.batch.1 : Int) := by
    rw [Rat.floor_natCast_div_natCast]
    exact_mod_cast Nat.div_le_div_right (Nat.le_add_left c.instructionRate c.carry)
  have hhigh : (c.batch.1 : Int) ≤ ⌈(c.instructionRate / c.frameRate : ℚ)⌉ := by
    have hbatch := c.frameRate_mul_batch
    have hless : c.frameRate * c.batch.1 < c.instructionRate + c.frameRate := by omega
    rw [← Int.sub_one_lt_iff, Int.lt_ceil, lt_div_iff₀ (by exact_mod_cast c.frameRate_pos)]
    push_cast
    have hless' : (c.frameRate * c.batch.1 : ℚ) < c.instructionRate + c.frameRate := by
      exact_mod_cast hless
    linarith
  have hclose := Int.ceil_le_floor_add_one (c.instructionRate / c.frameRate : ℚ)
  omega

/-- The frames of one second. -/
theorem batches_frameRate {c : Pacer} (h : c.carry < c.frameRate) :
    (c.batches c.frameRate).1.sum = c.instructionRate ∧
      (c.batches c.frameRate).2.carry = c.carry := by
  have hsum : (c.batches c.frameRate).1.sum = c.instructionRate := by
    rw [sum_batches h, Nat.add_comm, Nat.mul_add_div c.frameRate_pos, Nat.div_eq_of_lt h,
      Nat.add_zero]
  have htotal := c.frameRate_mul_sum_batches c.frameRate
  rw [hsum] at htotal
  exact ⟨hsum, by omega⟩

theorem ofRates?_natCast {instructionRate frameRate : Nat} (hrate : 0 < instructionRate)
    (hframes : 0 < frameRate) :
    ofRates? instructionRate frameRate = some ⟨instructionRate, frameRate, 0, hrate, hframes⟩ := by
  rw [ofRates?, dif_pos ⟨Int.natCast_pos.mpr hrate, Int.natCast_pos.mpr hframes⟩]
  rfl

/-- A pacer of any two positive rates gains and loses nothing. Since it was made
or last reset its batches add up to the whole part of what the rates allow, each
of them is the quotient of the rates rounded down or up, less than one
instruction is carried, and at any time the frames of one second run exactly the
instruction rate and leave what is carried as they found it. -/
theorem batches_keep_rate (instructionRate frameRate : Int) (hrate : 0 < instructionRate)
    (hframes : 0 < frameRate) :
    ∃ start, ofRates? instructionRate frameRate = some start ∧
      ∀ requests : List Request,
        let c := start.follow requests
        let batches := start.issued [] requests
        let second := c.batches frameRate.toNat
        (batches.sum : Int) = ⌊(batches.length * instructionRate / frameRate : ℚ)⌋ ∧
        ((c.batch.1 : Int) = ⌊(instructionRate / frameRate : ℚ)⌋ ∨
          (c.batch.1 : Int) = ⌈(instructionRate / frameRate : ℚ)⌉) ∧
        (second.1.sum : Int) = instructionRate ∧ second.2.carry = c.carry ∧
        0 ≤ (c.carry : Int) ∧ (c.carry : Int) ≤ frameRate - 1 := by
  lift instructionRate to Nat using hrate.le
  lift frameRate to Nat using hframes.le
  refine ⟨_, ofRates?_natCast (Int.natCast_pos.mp hrate) (Int.natCast_pos.mp hframes), ?_⟩
  intro requests c batches second
  have hbalanced : c.Balanced batches := (balanced_of_carry_zero rfl).follow requests
  obtain ⟨hinstructions, hframeRate⟩ : c.instructionRate = instructionRate ∧
      c.frameRate = frameRate := rates_follow _ requests
  have hsum := hbalanced.sum_eq
  have hbatch := batch_eq_floor_or_ceil hbalanced.carry
  have hsecond := batches_frameRate hbalanced.carry
  have hcarry := hbalanced.carry
  rw [hinstructions, hframeRate] at hsum hbatch hsecond
  refine ⟨?_, hbatch, by exact_mod_cast hsecond.1, hsecond.2, by omega, by omega⟩
  rw [hsum, Int.natCast_ediv, ← Rat.floor_natCast_div_natCast]
  push_cast
  rfl

/-- Seven hundred instructions a second at sixty frames, after a batch, a reset
and three more batches. -/
theorem seven_hundred_at_sixty :
    (0 : Int) < 700 ∧ (0 : Int) < 60 ∧
      ∃ start, ofRates? 700 60 = some start ∧
        let requests := [Request.batch, .reset, .batch, .batch, .batch]
        (start.issued [] requests).length = 3 ∧ ((start.issued [] requests).sum : Int) = 35 ∧
        (((start.follow requests).batches 60).1.sum : Int) = 700 := by
  have hpos : (0 : Int) < 700 ∧ (0 : Int) < 60 := by decide
  obtain ⟨start, hstart, hkeeps⟩ := batches_keep_rate 700 60 hpos.1 hpos.2
  obtain ⟨hsum, -, hsecond, -⟩ := hkeeps [.batch, .reset, .batch, .batch, .batch]
  have hthree : (start.issued [] [.batch, .reset, .batch, .batch, .batch]).length = 3 := rfl
  refine ⟨hpos.1, hpos.2, start, hstart, hthree, ?_, hsecond⟩
  rw [hsum, hthree]
  norm_num

end ChipEight.Pacer
