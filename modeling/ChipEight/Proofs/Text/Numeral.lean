import ChipEight.Text.Numeral

/-!
A written number can be read back. The zeros that fill a number up do not
change its value, a digit is read as the digit that was written, and the sign
stands apart from the digits. So two numbers with the same text in the same
base and width are the same number, also when they are negative or wider than
the width (`intText_injective`).
-/

namespace ChipEight.Text

theorem digits_lt {base : Nat} (hbase : 2 ≤ base) (n : Nat) :
    ∀ d ∈ digits base n, d < base := by
  fun_induction digits base n with
  | case1 n h ih =>
      intro d hd
      rcases List.mem_append.mp hd with hfront | hlast
      · exact ih d hfront
      · rw [List.mem_singleton.mp hlast]
        exact Nat.mod_lt n (by omega)
  | case2 n h =>
      intro d hd
      rw [List.mem_singleton.mp hd]
      omega

/-- The digits of a number with the zeros in front of them. -/
def paddedDigits (base width : Nat) (n : Int) : List Nat :=
  let ds := digits base n.natAbs
  List.replicate (width - (signChars n).length - ds.length) 0 ++ ds

theorem toList_intText (base width : Nat) (n : Int) :
    (intText base width n).toList =
      signChars n ++ (paddedDigits base width n).map digitChar := by
  simp [intText, paddedDigits, natChars, show digitChar 0 = '0' from rfl]

theorem paddedDigits_lt {base : Nat} (hbase : 2 ≤ base) (width : Nat) (n : Int) :
    ∀ d ∈ paddedDigits base width n, d < base := by
  intro d hd
  rcases List.mem_append.mp hd with hzero | hdigit
  · rw [List.eq_of_mem_replicate hzero]
    omega
  · exact digits_lt hbase n.natAbs d hdigit

theorem ofDigits_paddedDigits (base width : Nat) (n : Int) :
    ofDigits base (paddedDigits base width n) = n.natAbs := by
  have hzeros (k : Nat) (ds : List Nat) :
      ofDigits base (List.replicate k 0 ++ ds) = ofDigits base ds := by
    induction k with
    | zero => rfl
    | succ k ih => simpa [ofDigits, List.replicate_succ] using ih
  rw [paddedDigits, hzeros, ofDigits_digits]

theorem signedNumber_paddedDigits (base width : Nat) (n : Int) :
    signedNumber base (decide (n < 0)) (paddedDigits base width n) = n := by
  simp only [signedNumber, ofDigits_paddedDigits, decide_eq_true_eq]
  split <;> omega

/-- The characters of digits are read as these digits. -/
theorem digitValue?_digitChar : ∀ d < 36, digitValue? (digitChar d) = some d := by
  decide

/-- No digit is written with a character that has another use in a line. -/
theorem digitChar_notMem : ∀ d < 36, digitChar d ∉ ['-', '+', '_', ',', ' '] := by
  decide

theorem digitBelow?_digitChar {base d : Nat} (hbase : base ≤ 36) (hd : d < base) :
    digitBelow? base (digitChar d) = some d := by
  simp [digitBelow?, digitValue?_digitChar d (by omega), hd]

theorem digitRun?_map_digitChar {base : Nat} (hbase : base ≤ 36) {ds : List Nat}
    (hne : ds ≠ []) (hds : ∀ d ∈ ds, d < base) :
    digitRun? base (ds.map digitChar) = some ds := by
  induction ds with
  | nil => exact absurd rfl hne
  | cons d rest ih =>
      have hd := digitBelow?_digitChar hbase (hds d (by simp))
      cases rest with
      | nil => simp [digitRun?, hd]
      | cons e rest =>
          have he : e < 36 := by
            have := hds e (by simp)
            omega
          have hplain : digitChar e ≠ '_' := by
            intro hequal
            exact digitChar_notMem e he (by simp [hequal])
          have hrest := ih (by simp) fun k hk => hds k (List.mem_cons_of_mem d hk)
          rw [List.map_cons] at hrest
          simp [digitRun?, hd, hplain, hrest]

theorem splitSign_intText {base : Nat} (hbase : 2 ≤ base) (hsmall : base ≤ 36) (width : Nat)
    (n : Int) :
    splitSign (intText base width n).toList =
      (decide (n < 0), (paddedDigits base width n).map digitChar) := by
  rw [toList_intText]
  by_cases hsign : n < 0
  · simp [signChars, hsign, splitSign]
  · have hlt := paddedDigits_lt hbase width n
    simp only [signChars, hsign, if_false, List.nil_append, decide_false]
    cases hds : paddedDigits base width n with
    | nil => rfl
    | cons d rest =>
        rw [hds] at hlt
        have hfirst : d < base := hlt d (by simp)
        have hplain := digitChar_notMem d (by omega)
        simp only [List.mem_cons, not_or] at hplain
        rw [List.map_cons, splitSign]
        · intro _ hminus
          exact hplain.1 (List.cons.inj hminus).1
        · intro _ hplus
          exact hplain.2.1 (List.cons.inj hplus).1

theorem paddedDigits_ne_nil (base width : Nat) (n : Int) : paddedDigits base width n ≠ [] := by
  have hdigits : digits base n.natAbs ≠ [] := by
    unfold digits
    split <;> simp
  simp [paddedDigits, hdigits]

/-- Reading the sign and the digits of a written number gives the number. -/
theorem signedNumber_intText {base : Nat} (hbase : 2 ≤ base) (hsmall : base ≤ 36) (width : Nat)
    (n : Int) :
    (digitRun? base (splitSign (intText base width n).toList).2).map
      (signedNumber base (splitSign (intText base width n).toList).1) = some n := by
  have hrun := digitRun?_map_digitChar hsmall (paddedDigits_ne_nil base width n)
    (paddedDigits_lt hbase width n)
  rw [splitSign_intText hbase hsmall, hrun, Option.map_some, signedNumber_paddedDigits]

theorem intText_injective {base : Nat} (hbase : 2 ≤ base) (hsmall : base ≤ 36) (width : Nat) :
    Function.Injective (intText base width) := by
  intro n n' h
  have hn := signedNumber_intText hbase hsmall width n
  rw [h, signedNumber_intText hbase hsmall width n'] at hn
  exact (Option.some.inj hn).symm

/-- A written number has neither a comma nor a space in it. -/
theorem notMem_intText {base : Nat} (hbase : 2 ≤ base) (hsmall : base ≤ 36) (width : Nat)
    (n : Int) : ∀ c ∈ [',', ' '], c ∉ (intText base width n).toList := by
  intro c hc hmember
  rw [toList_intText] at hmember
  rcases List.mem_append.mp hmember with hsign | hdigit
  · unfold signChars at hsign
    split at hsign
    · rw [List.mem_singleton.mp hsign] at hc
      revert hc
      decide
    · cases hsign
  · obtain ⟨d, hd, rfl⟩ := List.mem_map.mp hdigit
    have hlt := paddedDigits_lt hbase width n d hd
    have hused : [',', ' '] ⊆ ['-', '+', '_', ',', ' '] := by decide
    exact digitChar_notMem d (by omega) (hused hc)

theorem hex_injective (width : Nat) : Function.Injective (hex width) :=
  intText_injective (by decide) (by decide) width

theorem decimal_injective : Function.Injective decimal :=
  intText_injective (by decide) (by decide) 0

theorem notMem_hex (width : Nat) (n : Int) : ∀ c ∈ [',', ' '], c ∉ (hex width n).toList :=
  notMem_intText (by decide) (by decide) width n

theorem notMem_decimal (n : Int) : ∀ c ∈ [',', ' '], c ∉ (decimal n).toList :=
  notMem_intText (by decide) (by decide) 0 n

end ChipEight.Text
