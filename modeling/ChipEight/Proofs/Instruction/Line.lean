import ChipEight.Instruction.Assembly
import ChipEight.Machine.Step
import ChipEight.Proofs.Instruction.Grammar
import ChipEight.Proofs.Text.Numeral

/-!
A line of assembly tells all that an instruction does. The first space ends the
mnemonic, and commas part the operands, so a line falls apart in one way only
(`lineOf_injective`). The mnemonic and the first characters of two operands
tell the operation, although many operations share a mnemonic and some words
look like registers; the operands tell the numbers (`text_eq_iff`). Carrying an
instruction out looks at no other number (`ShowsSame.execute_eq`). Of the
words, only the shifts have a nibble that their line leaves out.
-/

namespace ChipEight

/-- A line from its mnemonic and its operands. -/
def lineOf (mnemonic : List Char) : List (List Char) → List Char
  | [] => mnemonic
  | operands => mnemonic ++ ' ' :: [',', ' '].intercalate operands

/-- Where no part has the separator in it, the first separators of two equal
texts stand at the same place. -/
theorem eq_of_append_cons {α : Type} {c : α} {first first' rest rest' : List α}
    (hfirst : c ∉ first) (hfirst' : c ∉ first') (h : first ++ c :: rest = first' ++ c :: rest') :
    first = first' ∧ rest = rest' := by
  induction first generalizing first' with
  | nil =>
      cases first' with
      | nil => exact ⟨rfl, (List.cons.inj h).2⟩
      | cons d first' => exact absurd (by simp [(List.cons.inj h).1]) hfirst'
  | cons d first ih =>
      cases first' with
      | nil => exact absurd (by simp [(List.cons.inj h).1]) hfirst
      | cons d' first' =>
          simp only [List.mem_cons, not_or] at hfirst hfirst'
          obtain ⟨rfl, hrest⟩ := List.cons.inj h
          obtain ⟨rfl, rfl⟩ := ih hfirst.2 hfirst'.2 hrest
          exact ⟨rfl, rfl⟩

theorem intercalate_injective {parts parts' : List (List Char)} (hne : parts ≠ [])
    (hne' : parts' ≠ []) (hparts : ∀ p ∈ parts, ',' ∉ p) (hparts' : ∀ p ∈ parts', ',' ∉ p)
    (h : [',', ' '].intercalate parts = [',', ' '].intercalate parts') : parts = parts' := by
  induction parts generalizing parts' with
  | nil => exact absurd rfl hne
  | cons p rest ih =>
      cases parts' with
      | nil => exact absurd rfl hne'
      | cons p' rest' =>
          have hp : ',' ∉ p := hparts p (by simp)
          have hp' : ',' ∉ p' := hparts' p' (by simp)
          cases rest with
          | nil =>
              cases rest' with
              | nil => simpa using h
              | cons q' rest' =>
                  rw [List.intercalate_singleton, List.intercalate_cons_cons] at h
                  rw [h] at hp
                  simp at hp
          | cons q rest =>
              cases rest' with
              | nil =>
                  rw [List.intercalate_singleton, List.intercalate_cons_cons] at h
                  rw [← h] at hp'
                  simp at hp'
              | cons q' rest' =>
                  simp only [List.intercalate_cons_cons, List.append_assoc, List.cons_append] at h
                  obtain ⟨rfl, htail⟩ := eq_of_append_cons hp hp' h
                  have hrest := ih (by simp) (by simp)
                    (fun r hr => hparts r (List.mem_cons_of_mem p hr))
                    (fun r hr => hparts' r (List.mem_cons_of_mem p hr))
                    (List.cons.inj htail).2
                  rw [hrest]

theorem lineOf_injective {mnemonic mnemonic' : List Char} {parts parts' : List (List Char)}
    (hplain : ' ' ∉ mnemonic) (hplain' : ' ' ∉ mnemonic') (hparts : ∀ p ∈ parts, ',' ∉ p)
    (hparts' : ∀ p ∈ parts', ',' ∉ p) (h : lineOf mnemonic parts = lineOf mnemonic' parts') :
    mnemonic = mnemonic' ∧ parts = parts' := by
  cases parts with
  | nil =>
      cases parts' with
      | nil => exact ⟨h, rfl⟩
      | cons p' rest' =>
          simp only [lineOf] at h
          rw [h] at hplain
          simp at hplain
  | cons p rest =>
      cases parts' with
      | nil =>
          simp only [lineOf] at h
          rw [← h] at hplain'
          simp at hplain'
      | cons p' rest' =>
          obtain ⟨hmnemonic, hrest⟩ := eq_of_append_cons hplain hplain' h
          exact ⟨hmnemonic, intercalate_injective (by simp) (by simp) hparts hparts' hrest⟩

/-- The character that an operand begins with. A count begins with any digit
or a sign. -/
def Operand.initial? : Operand → Option Char
  | .x | .y => some 'V'
  | .byte | .address => some '0'
  | .count => none
  | .word text => text.toList.head?

namespace Operation

/-- How the line of an operation begins. -/
def opening (op : Operation) : String × List (Option Char) :=
  (op.mnemonic, (op.operands.take 2).map Operand.initial?)

theorem mem_all (op : Operation) : op ∈ all := by
  cases op <;> decide

theorem opening_injective : Function.Injective opening := by
  have hfind : ∀ op ∈ all, all.find? (fun other => other.opening = op.opening) = some op := by
    decide +kernel
  intro op op' h
  have hop := hfind op (mem_all op)
  rw [h, hfind op' (mem_all op')] at hop
  exact (Option.some.inj hop).symm

theorem space_notMem_mnemonic (op : Operation) : ' ' ∉ op.mnemonic.toList := by
  cases op <;> decide

theorem mnemonic_ne_data (op : Operation) : op.mnemonic.toList ≠ ['D', 'W'] := by
  cases op <;> decide

theorem comma_notMem_word {op : Operation} {text : String} (h : .word text ∈ op.operands) :
    ',' ∉ text.toList := by
  cases op <;> simp [operands] at h <;> subst h <;> decide

theorem operands_of_shift {op : Operation} (h : op ∈ [shr, shl]) : op.operands = [.x] := by
  simp only [List.mem_cons, List.not_mem_nil, or_false] at h
  rcases h with rfl | rfl <;> rfl

theorem count_notMem_take (op : Operation) : .count ∉ op.operands.take 2 := by
  cases op <;> decide

end Operation

namespace Instruction

/-- The number that an operand shows, if it shows one. -/
def number? (i : Instruction) : Operand → Option Int
  | .x => some i.x
  | .y => some i.y
  | .byte => some i.kk
  | .address => some i.nnn
  | .count => some i.n
  | .word _ => none

/-- The same operation, with the same numbers where its line shows them. -/
structure ShowsSame (i j : Instruction) : Prop where
  op : i.op = j.op
  numbers : ∀ operand ∈ i.op.operands, i.number? operand = j.number? operand

def parts (i : Instruction) : List (List Char) :=
  i.op.operands.map fun operand => (i.operandText operand).toList

theorem toList_text (i : Instruction) : i.text.toList = lineOf i.op.mnemonic.toList i.parts := by
  unfold text parts
  cases i.op.operands with
  | nil => rfl
  | cons operand rest => simp [lineOf, String.toList_intercalate, Function.comp_def]

theorem operandText_eq_iff (i j : Instruction) (operand : Operand) :
    i.operandText operand = j.operandText operand ↔ i.number? operand = j.number? operand := by
  cases operand <;>
    simp [operandText, number?, (Text.hex_injective _).eq_iff, Text.decimal_injective.eq_iff]

theorem head?_operandText (i : Instruction) {operand : Operand} (h : operand ≠ .count) :
    (i.operandText operand).toList.head? = operand.initial? := by
  cases operand with
  | count => exact absurd rfl h
  | _ => simp [operandText, Operand.initial?]

theorem comma_notMem_parts (i : Instruction) : ∀ p ∈ i.parts, ',' ∉ p := by
  intro p hp
  obtain ⟨operand, hmember, rfl⟩ := List.mem_map.mp hp
  have hhex (width : Nat) (n : Int) := Text.notMem_hex width n ',' (by simp)
  have hdecimal := Text.notMem_decimal i.n ',' (by simp)
  cases operand with
  | word text => exact Operation.comma_notMem_word hmember
  | _ => simp [operandText, hhex, hdecimal]

theorem opening_of_parts {i j : Instruction} (hmnemonic : i.op.mnemonic = j.op.mnemonic)
    (hparts : i.parts = j.parts) : i.op.opening = j.op.opening := by
  have hheads (k : Instruction) :
      (k.parts.take 2).map List.head? = (k.op.operands.take 2).map Operand.initial? := by
    rw [parts, ← List.map_take, List.map_map]
    apply List.map_congr_left
    intro operand hmember
    apply head?_operandText
    -- A count has no fixed first character, but it is never among the first two.
    rintro rfl
    exact Operation.count_notMem_take k.op hmember
  rw [Operation.opening, Operation.opening, hmnemonic, ← hheads i, ← hheads j, hparts]

/-- Two instructions have one line exactly when they have the same operation
and the same numbers in what the line shows. -/
theorem text_eq_iff (i j : Instruction) : i.text = j.text ↔ i.ShowsSame j := by
  rw [← String.toList_inj, toList_text, toList_text]
  constructor
  · intro h
    obtain ⟨hmnemonic, hparts⟩ := lineOf_injective i.op.space_notMem_mnemonic
      j.op.space_notMem_mnemonic i.comma_notMem_parts j.comma_notMem_parts h
    have hop : i.op = j.op :=
      Operation.opening_injective (opening_of_parts (String.toList_inj.mp hmnemonic) hparts)
    refine ⟨hop, fun operand hmember => ?_⟩
    rw [parts, parts, ← hop, List.map_inj_left] at hparts
    exact (operandText_eq_iff i j operand).mp (String.toList_inj.mp (hparts operand hmember))
  · rintro ⟨hop, hnumbers⟩
    have hparts : i.parts = j.parts := by
      rw [parts, parts, ← hop, List.map_inj_left]
      intro operand hmember
      rw [(operandText_eq_iff i j operand).mpr (hnumbers operand hmember)]
    rw [hop, hparts]

/-- Carrying an instruction out looks at nothing that its line leaves out. -/
theorem ShowsSame.execute_eq {i j : Instruction} (h : i.ShowsSame j) (m : Machine) :
    m.execute i = m.execute j := by
  obtain ⟨hop, hnumbers⟩ := h
  unfold Machine.execute
  rw [← hop]
  cases hi : i.op <;> simp [hi, Operation.operands, number?] at hnumbers <;> simp [hnumbers]

/-- Apart from the shifts, an instruction is assembled from nothing that its
line leaves out. -/
theorem ShowsSame.assemble_eq {i j : Instruction} (h : i.ShowsSame j)
    (hshift : i.op ∉ [.shr, .shl]) : i.assemble = j.assemble := by
  obtain ⟨hop, hnumbers⟩ := h
  unfold assemble
  rw [← hop]
  cases hi : i.op <;> simp [hi, Operation.operands, number?] at hnumbers hshift <;>
    simp [Operation.pattern, Pattern.fill, hnumbers]

end Instruction

/-- The word of a pattern is put together again from its fields. -/
theorem Pattern.fill_ofFields {p : Pattern} {w : Nat} (op : Operation) (h : p.Matches w) :
    p.fill (.ofFields op w) = w := by
  cases p <;> simp only [Matches] at h <;> simp only [fill, Instruction.ofFields] <;> omega

theorem Instruction.assemble_ofFields {op : Operation} {w : Nat} (h : op.pattern.Matches w) :
    (ofFields op w).assemble = w :=
  Pattern.fill_ofFields op h

/-- Two words that shift the same register in the same direction. -/
def SameShift (w w' : Int) : Prop :=
  ∃ i j, Instruction.decode? w = some i ∧ Instruction.decode? w' = some j ∧
    i.op ∈ [.shr, .shl] ∧ j.op = i.op ∧ j.x = i.x

theorem decode?_eq_some_iff {word : Int} {i : Instruction} :
    Instruction.decode? word = some i ↔
      i.op.pattern.Matches (lowWord word) ∧ i = .ofFields i.op (lowWord word) := by
  simp only [Instruction.decode?, Option.map_eq_some_iff, Operation.ofWord?_eq_some_iff]
  constructor
  · rintro ⟨op, hmatches, rfl⟩
    exact ⟨hmatches, rfl⟩
  · rintro ⟨hmatches, hi⟩
    exact ⟨i.op, hmatches, hi.symm⟩

theorem disassemble_of_some {word : Int} {i : Instruction}
    (h : Instruction.decode? word = some i) : disassemble word = i.text := by
  simp only [disassemble, h]

theorem toList_disassemble_of_none {word : Int} (h : Instruction.decode? word = none) :
    (disassemble word).toList =
      lineOf ['D', 'W'] [['0', 'x'] ++ (Text.hex 4 (lowWord word)).toList] := by
  simp [disassemble, h, lineOf]

/-- A line of data is the line of no instruction. -/
theorem text_ne_disassemble {word : Int} (h : Instruction.decode? word = none)
    (i : Instruction) : i.text ≠ disassemble word := by
  intro hequal
  have hcomma := Text.notMem_hex 4 (lowWord word) ',' (by simp)
  rw [← String.toList_inj, Instruction.toList_text, toList_disassemble_of_none h] at hequal
  have hsplit := lineOf_injective i.op.space_notMem_mnemonic (by decide) i.comma_notMem_parts
    (by simp [hcomma]) hequal
  exact i.op.mnemonic_ne_data hsplit.1

theorem lowWord_eq_iff (w w' : Int) : lowWord w = lowWord w' ↔ w % 65536 = w' % 65536 := by
  unfold lowWord
  omega

theorem lowWord_of_data_line {w w' : Int} (hnone : Instruction.decode? w = none)
    (hnone' : Instruction.decode? w' = none) (h : disassemble w = disassemble w') :
    lowWord w = lowWord w' := by
  rw [← String.toList_inj, toList_disassemble_of_none hnone,
    toList_disassemble_of_none hnone'] at h
  have hhex : Text.hex 4 (lowWord w) = Text.hex 4 (lowWord w') := by
    simpa [lineOf, String.toList_inj] using h
  exact Int.ofNat.inj (Text.hex_injective 4 hhex)

theorem disassemble_of_sameShift {w w' : Int} (h : SameShift w w') :
    disassemble w = disassemble w' := by
  obtain ⟨i, j, hi, hj, hshift, hop, hx⟩ := h
  rw [disassemble_of_some hi, disassemble_of_some hj]
  refine (Instruction.text_eq_iff i j).mpr ⟨hop.symm, ?_⟩
  simp [Operation.operands_of_shift hshift, Instruction.number?, hx]

/-- The words of a shift differ in the third nibble alone. -/
theorem SameShift.other_nibbles {w w' : Int} (h : SameShift w w') :
    lowWord w / 256 = lowWord w' / 256 ∧ lowWord w % 16 = lowWord w' % 16 := by
  obtain ⟨i, j, hi, hj, hshift, hop, hx⟩ := h
  obtain ⟨hmatches, hfields⟩ := decode?_eq_some_iff.mp hi
  obtain ⟨hmatches', hfields'⟩ := decode?_eq_some_iff.mp hj
  rw [hfields, hfields'] at hx
  rw [hop] at hmatches'
  simp only [Instruction.ofFields] at hx
  simp only [List.mem_cons, List.not_mem_nil, or_false] at hshift
  rcases hshift with hshr | hshl
  · simp only [hshr, Operation.pattern, Pattern.Matches] at hmatches hmatches'
    omega
  · simp only [hshl, Operation.pattern, Pattern.Matches] at hmatches hmatches'
    omega

theorem lowWord_or_sameShift {w w' : Int} {i j : Instruction}
    (hi : Instruction.decode? w = some i) (hj : Instruction.decode? w' = some j)
    (h : i.ShowsSame j) : lowWord w = lowWord w' ∨ SameShift w w' := by
  by_cases hshift : i.op ∈ [.shr, .shl]
  · have hx := h.numbers .x (by simp [Operation.operands_of_shift hshift])
    exact Or.inr ⟨i, j, hi, hj, hshift, h.op.symm, (Option.some.inj hx).symm⟩
  · -- The pattern of any other operation is filled from what the line shows.
    have hword := h.assemble_eq hshift
    obtain ⟨hmatches, hfields⟩ := decode?_eq_some_iff.mp hi
    obtain ⟨hmatches', hfields'⟩ := decode?_eq_some_iff.mp hj
    rw [hfields, hfields', Instruction.assemble_ofFields hmatches,
      Instruction.assemble_ofFields hmatches'] at hword
    exact Or.inl (Int.ofNat.inj hword)

/-- Two words have one line exactly when they are the same sixteen bits or
shift the same register in the same direction. -/
theorem disassemble_eq_iff (w w' : Int) :
    disassemble w = disassemble w' ↔ w % 65536 = w' % 65536 ∨ SameShift w w' := by
  rw [← lowWord_eq_iff]
  constructor
  · intro h
    cases hi : Instruction.decode? w with
    | none =>
        cases hj : Instruction.decode? w' with
        | none => exact Or.inl (lowWord_of_data_line hi hj h)
        | some j =>
            rw [disassemble_of_some hj] at h
            exact absurd h.symm (text_ne_disassemble hi j)
    | some i =>
        rw [disassemble_of_some hi] at h
        cases hj : Instruction.decode? w' with
        | none => exact absurd h (text_ne_disassemble hj i)
        | some j =>
            rw [disassemble_of_some hj, Instruction.text_eq_iff] at h
            exact lowWord_or_sameShift hi hj h
  · rintro (hlow | hshift)
    · unfold disassemble Instruction.decode?
      rw [hlow]
    · exact disassemble_of_sameShift hshift

/-- The line of an instruction determines its operation, the numbers that the
operation shows, and what it does to every machine. The line of a word
determines the word, but for the third nibble of a shift. -/
theorem line_determines_behaviour :
    (∀ i j : Instruction, i.text = j.text →
      i.op = j.op ∧
      (∀ operand ∈ i.op.operands, i.number? operand = j.number? operand) ∧
      ∀ m : Machine, m.execute i = m.execute j) ∧
    (∀ w w' : Int, disassemble w = disassemble w' ↔
      w % 65536 = w' % 65536 ∨ SameShift w w') ∧
    (∀ w w' : Int, SameShift w w' →
      lowWord w / 256 = lowWord w' / 256 ∧ lowWord w % 16 = lowWord w' % 16) := by
  refine ⟨fun i j h => ?_, disassemble_eq_iff, fun w w' => SameShift.other_nibbles⟩
  have hshows := (Instruction.text_eq_iff i j).mp h
  exact ⟨hshows.op, hshows.numbers, hshows.execute_eq⟩

/-- A shift of a register that is not there, and a shift of `V1` written as two
words, one of them as a negative number. -/
theorem shifts_share_their_line :
    let i : Instruction := { op := .shl, x := -10, y := 1 }
    let j : Instruction := { op := .shl, x := -10, y := 2, kk := 300 }
    i ≠ j ∧ i.text = j.text ∧ (∀ m : Machine, m.execute i = m.execute j) ∧
      SameShift 0x8126 (-0x7ECA) ∧ disassemble 0x8126 = disassemble (-0x7ECA) ∧
      lowWord 0x8126 / 256 = lowWord (-0x7ECA) / 256 := by
  intro i j
  have htext : i.text = j.text :=
    (Instruction.text_eq_iff i j).mpr ⟨rfl, by simp [i, j, Operation.operands, Instruction.number?]⟩
  have hshift : SameShift 0x8126 (-0x7ECA) := ⟨_, _, rfl, rfl, by decide, rfl, rfl⟩
  obtain ⟨hlaw, hwords, hnibbles⟩ := line_determines_behaviour
  exact ⟨by decide, htext, (hlaw i j htext).2.2, hshift, (hwords _ _).mpr (Or.inr hshift),
    (hnibbles _ _ hshift).1⟩

end ChipEight
