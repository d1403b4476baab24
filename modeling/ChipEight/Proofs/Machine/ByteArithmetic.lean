import ChipEight.Proofs.Machine.Footprint

/-!
The nine operations on a pair of registers. Both registers are read before
anything is written and the flag is written last, so it does not matter which of
the destination, the source and the flag register are the same: the result and
the flag are those of the old bytes, and where the destination is the flag
register itself the flag is what stays (`Flagged`). The logical operations and
the copy write no flag, and then the flag register is a destination like any
other (`Replaced`).
-/

namespace ChipEight

namespace ByteOp

theorem ofName?_name (op : ByteOp) : ofName? op.name = some op := by
  cases op <;> rfl

theorem eval_value_lt (op : ByteOp) (a b : Int) : (op.eval a b).value < 256 := by
  have ha := lowByte_lt a
  have hb := lowByte_lt b
  unfold eval onBytes
  cases op with
  | copy => exact hb
  | or => exact Nat.or_lt_two_pow (n := 8) ha hb
  | and => exact Nat.lt_of_le_of_lt Nat.and_le_left ha
  | xor => exact Nat.xor_lt_two_pow (n := 8) ha hb
  | add | sub | subFrom | shl => exact Nat.mod_lt _ (by decide)
  | shr => exact Nat.lt_of_le_of_lt (Nat.div_le_self _ 2) ha

/-- A shift to the left doubles its first operand. -/
theorem eval_shl (a b : Int) : shl.eval a b = add.eval a a := by
  have ha := lowByte_lt a
  unfold eval onBytes
  simp only [ByteResult.mk.injEq, Option.some.injEq, decide_eq_decide]
  omega

end ByteOp

/-- The flag as a number; an operation that sets none counts as zero. -/
def ByteResult.flagBit (result : ByteResult) : Nat := (result.flag.getD false).toNat

namespace ByteOp

theorem eval_add_exact (a b : Int) :
    (add.eval a b).value + 256 * (add.eval a b).flagBit = lowByte a + lowByte b := by
  have ha := lowByte_lt a
  have hb := lowByte_lt b
  change (lowByte a + lowByte b) % 256 + 256 * (decide (255 < lowByte a + lowByte b)).toNat = _
  rcases Nat.lt_or_ge 255 (lowByte a + lowByte b) with hover | hfits
  · rw [decide_eq_true hover, Bool.toNat_true]
    omega
  · rw [decide_eq_false (Nat.not_lt.mpr hfits), Bool.toNat_false]
    omega

theorem eval_shl_exact (a b : Int) :
    (shl.eval a b).value + 256 * (shl.eval a b).flagBit = 2 * lowByte a := by
  rw [eval_shl, eval_add_exact]
  omega

theorem eval_shr_exact (a b : Int) :
    2 * (shr.eval a b).value + (shr.eval a b).flagBit = lowByte a := by
  change 2 * (lowByte a / 2) + (decide (lowByte a % 2 = 1)).toNat = lowByte a
  rcases Nat.mod_two_eq_zero_or_one (lowByte a) with heven | hodd
  · rw [heven, decide_eq_false Nat.zero_ne_one, Bool.toNat_false]
    omega
  · rw [hodd, decide_eq_true rfl, Bool.toNat_true]
    omega

end ByteOp

namespace Registers

/-- A register took a value, then the flag register took a flag. -/
structure Flagged (r : Registers) (dst : Fin 16) (value flag : Int) (r' : Registers) : Prop where
  value : dst ≠ 15 → r'.v.get dst = value
  flag : r'.v.get 15 = flag
  others : ∀ k, k ≠ dst → k ≠ 15 → r'.v.get k = r.v.get k
  rest : r' = { r with v := r'.v }

/-- One register took a value. -/
structure Replaced (r : Registers) (dst : Fin 16) (value : Int) (r' : Registers) : Prop where
  value : r'.v.get dst = value
  others : ∀ k, k ≠ dst → r'.v.get k = r.v.get k
  rest : r' = { r with v := r'.v }

theorem put_replaced (r : Registers) (dst : Fin 16) {value : Nat} (h : value < 256) :
    r.Replaced dst value (r.put dst value) := by
  refine ⟨?_, ?_, rfl⟩
  · rw [get_put, if_pos rfl, lowByte_of_lt h]
  · intro k hk
    rw [get_put, if_neg hk.symm]

theorem put_flag (r : Registers) (flag : Bool) :
    r.Replaced 15 flag.toNat (r.put 15 flag.toNat) :=
  put_replaced r 15 (Nat.lt_of_le_of_lt (Bool.toNat_le flag) (by decide))

theorem Replaced.flagged {r r' : Registers} {dst : Fin 16} {value : Int}
    (h : r.Replaced dst value r') (flag : Bool) :
    r.Flagged dst value flag.toNat (r'.put 15 flag.toNat) := by
  have hflag := put_flag r' flag
  refine ⟨?_, hflag.value, ?_, ?_⟩
  · intro hdst
    rw [hflag.others dst hdst, h.value]
  · intro k hk hk15
    rw [hflag.others k hk15, h.others k hk]
  · rw [hflag.rest, h.rest]

/-- Both registers are read first and the flag is written last. -/
theorem combine_natCast (r : Registers) (op : ByteOp) (dst src : Fin 16) :
    let result := op.eval (r.v.get dst) (r.v.get src)
    r.combine op dst.val src.val = (r.put dst result.value).setFlag result.flag := by
  intro result
  unfold combine
  rw [get_natCast, get_natCast]
  change (r.set dst.val result.value >>= _) = _
  rw [set_natCast]
  rfl

/-- An operation that sets the flag. -/
theorem combine_flagged (r : Registers) (op : ByteOp) (dst src : Fin 16) {value flag : Int}
    {bit : Bool} (hbit : (op.eval (r.v.get dst) (r.v.get src)).flag = some bit)
    (hvalue : (op.eval (r.v.get dst) (r.v.get src)).value = value) (hflag : bit.toNat = flag) :
    ∃ r', r.combine op dst.val src.val = .ok r' ∧ r.Flagged dst value flag r' := by
  subst hvalue hflag
  refine ⟨_, ?_, (put_replaced r dst (op.eval_value_lt _ _)).flagged bit⟩
  rw [combine_natCast, hbit]
  exact set_natCast _ 15 bit.toNat

/-- An operation that sets no flag. -/
theorem combine_replaced (r : Registers) (op : ByteOp) (dst src : Fin 16)
    (hnone : (op.eval (r.v.get dst) (r.v.get src)).flag = none) :
    ∃ r', r.combine op dst.val src.val = .ok r' ∧
      r.Replaced dst (op.eval (r.v.get dst) (r.v.get src)).value r' := by
  refine ⟨_, ?_, put_replaced r dst (op.eval_value_lt _ _)⟩
  rw [combine_natCast, hnone]
  rfl

theorem combineNamed_name (r : Registers) (op : ByteOp) (dst src : Int) :
    r.combineNamed op.name dst src = r.combine op dst src := by
  unfold combineNamed
  rw [ByteOp.ofName?_name]
  unfold combine
  cases r.get dst with
  | error fault => rfl
  | ok a =>
      cases r.get src with
      | error fault => rfl
      | ok b => rfl

theorem combine_shl (r : Registers) (k : Int) : r.combine .shl k k = r.combine .add k k := by
  unfold combine
  cases r.get k with
  | error fault => rfl
  | ok a =>
      change (r.set k (ByteOp.shl.eval a a).value >>= _) = _
      rw [ByteOp.eval_shl]
      rfl

theorem toNat_decide (p : Prop) [Decidable p] :
    ((decide p).toNat : Int) = if p then 1 else 0 := by
  split <;> simp [*]

/-- Whichever of the destination, the source and the flag register are the same,
and whatever whole numbers the registers hold, an operation gives the result and
the flag of the old bytes. With the flag as its top or bottom bit the result of
an addition or a shift is exact, and a shift to the left is an addition of the
register to itself. -/
theorem operations_ignore_aliasing (r : Registers) (dst src : Fin 16) :
    let a := lowByte (r.v.get dst)
    let b := lowByte (r.v.get src)
    let after (op : ByteOp) := r.combine op dst.val src.val
    let result (op : ByteOp) := op.eval (r.v.get dst) (r.v.get src)
    (∃ r', after .add = .ok r' ∧
      r.Flagged dst ((a + b) % 256) (if 255 < a + b then 1 else 0) r') ∧
    (∃ r', after .sub = .ok r' ∧
      r.Flagged dst ((a - b) % 256) (if b < a then 1 else 0) r') ∧
    (∃ r', after .subFrom = .ok r' ∧
      r.Flagged dst ((b - a) % 256) (if a < b then 1 else 0) r') ∧
    (∃ r', after .shr = .ok r' ∧ r.Flagged dst (a / 2) (a % 2) r') ∧
    (∃ r', after .shl = .ok r' ∧ r.Flagged dst (2 * a % 256) (a / 128) r') ∧
    (∃ r', after .copy = .ok r' ∧ r.Replaced dst b r') ∧
    (∃ r', after .or = .ok r' ∧ r.Replaced dst (a ||| b : Nat) r') ∧
    (∃ r', after .and = .ok r' ∧ r.Replaced dst (a &&& b : Nat) r') ∧
    (∃ r', after .xor = .ok r' ∧ r.Replaced dst (a ^^^ b : Nat) r') ∧
    (result .add).value + 256 * (result .add).flagBit = a + b ∧
    2 * (result .shr).value + (result .shr).flagBit = a ∧
    (result .shl).value + 256 * (result .shl).flagBit = 2 * a ∧
    (∀ k : Int, r.combine .shl k k = r.combine .add k k) ∧
    (∀ (op : ByteOp) (j k : Int), r.combineNamed op.name j k = r.combine op j k) := by
  intro a b after result
  have ha : a < 256 := lowByte_lt _
  have hb : b < 256 := lowByte_lt _
  refine ⟨?_, ?_, ?_, ?_, ?_, ?_, ?_, ?_, ?_, ByteOp.eval_add_exact _ _, ByteOp.eval_shr_exact _ _,
    ByteOp.eval_shl_exact _ _, r.combine_shl, r.combineNamed_name⟩
  · exact combine_flagged r .add dst src rfl (Int.natCast_emod _ _) (toNat_decide _)
  · apply combine_flagged r .sub dst src rfl _ (toNat_decide _)
    change ((a + 256 - b) % 256 : Nat) = ((a - b) % 256 : Int)
    omega
  · apply combine_flagged r .subFrom dst src rfl _ (toNat_decide _)
    change ((b + 256 - a) % 256 : Nat) = ((b - a) % 256 : Int)
    omega
  · apply combine_flagged r .shr dst src rfl rfl
    rw [toNat_decide]
    change (if a % 2 = 1 then 1 else 0) = (a % 2 : Int)
    split <;> omega
  · apply combine_flagged r .shl dst src rfl rfl
    rw [toNat_decide]
    change (if 128 ≤ a then 1 else 0) = (a / 128 : Int)
    split <;> omega
  · exact combine_replaced r .copy dst src rfl
  · exact combine_replaced r .or dst src rfl
  · exact combine_replaced r .and dst src rfl
  · exact combine_replaced r .xor dst src rfl

end Registers

end ChipEight
