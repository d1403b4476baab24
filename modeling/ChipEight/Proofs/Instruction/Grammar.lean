import ChipEight.Instruction.Decode

/-!
The tables of the decoder against the written patterns. The decoder looks a
word up by its first nibble and then, in some families, by its last nibble,
its last byte or as a whole; a pattern says of one operation which words are
its own. Both agree on every word: an operation is decoded exactly from the
words of its pattern.
-/

namespace ChipEight.Operation

/-- A word that decodes to an operation has the shape of its pattern. -/
theorem matches_of_ofWord? {w : Nat} {op : Operation} (h : ofWord? w = some op) :
    op.pattern.Matches w := by
  unfold ofWord? at h
  split at h
  case h_9 hfamily =>
    unfold ofPairNibble? at h
    split at h <;> cases h <;> exact ⟨hfamily, by assumption⟩
  case h_16 hfamily =>
    unfold ofDeviceByte? at h
    split at h <;> cases h <;> exact ⟨hfamily, by assumption⟩
  all_goals grind [pattern, Pattern.Matches]

/-- A word of the shape of a pattern decodes to its operation. -/
theorem ofWord?_of_matches {w : Nat} {op : Operation} (h : op.pattern.Matches w) :
    ofWord? w = some op := by
  cases op <;> simp only [pattern, Pattern.Matches] at h <;>
    simp [ofWord?, ofPairNibble?, ofDeviceByte?, h]

theorem ofWord?_eq_some_iff {w : Nat} {op : Operation} :
    ofWord? w = some op ↔ op.pattern.Matches w :=
  ⟨matches_of_ofWord?, ofWord?_of_matches⟩

/-- No word belongs to two operations. -/
theorem pattern_unique {w : Nat} {op op' : Operation} (h : op.pattern.Matches w)
    (h' : op'.pattern.Matches w) : op = op' := by
  have hword := ofWord?_of_matches h
  rw [ofWord?_of_matches h'] at hword
  exact (Option.some.inj hword).symm

end ChipEight.Operation

namespace ChipEight.Instruction

/-- The instruction of a word of sixteen bits is its operation with the
fields of the word. -/
theorem decode?_natCast {w : Nat} (hw : w < 65536) :
    decode? w = (Operation.ofWord? w).map fun op => ofFields op w := by
  have hlow : lowWord w = w := by
    unfold lowWord
    omega
  rw [decode?, hlow]

end ChipEight.Instruction
