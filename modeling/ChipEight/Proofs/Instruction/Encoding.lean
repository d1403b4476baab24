import ChipEight.Proofs.Instruction.Line

/-!
Words and instructions, both ways. A pattern leaves some fields of a word open
and fixes the rest. Cutting a word of the pattern apart and filling the pattern
with the pieces gives the word back, and filling the pattern with fields that fit
gives a word of the pattern with those fields in it (`Pattern.matches_fill`).
The decoder finds the one pattern of a word, so it undoes assembling, and
assembling undoes it.
-/

namespace ChipEight

/-- A number that is cut from a word. -/
inductive Field where
  | nnn
  | x
  | y
  | kk
  | n
  deriving DecidableEq

/-- How many values a field can take. -/
def Field.size : Field → Int
  | nnn => 4096
  | kk => 256
  | x | y | n => 16

namespace Instruction

/-- The number in a field. -/
def field (i : Instruction) : Field → Int
  | .nnn => i.nnn
  | .x => i.x
  | .y => i.y
  | .kk => i.kk
  | .n => i.n

/-- The number in a field fits into its place in a word. -/
def Fits (i : Instruction) (f : Field) : Prop := 0 ≤ i.field f ∧ i.field f < f.size

theorem fits_ofFields (op : Operation) (w : Nat) (f : Field) : (ofFields op w).Fits f := by
  cases f <;> simp only [Fits, field, Field.size, ofFields] <;> omega

end Instruction

namespace Pattern

/-- The fields that a pattern leaves open. -/
def fields : Pattern → List Field
  | exact _ => []
  | address _ => [.nnn]
  | regByte _ => [.x, .kk]
  | regPair _ _ => [.x, .y]
  | regPairCount _ => [.x, .y, .n]
  | reg _ _ => [.x]

/-- The fixed digits of a pattern have room in a word. -/
def Proper : Pattern → Prop
  | exact word => word < 65536
  | address family | regByte family | regPairCount family => family < 16
  | regPair family last => family < 16 ∧ last < 16
  | reg family low => family < 16 ∧ low < 256

/-- Filling a pattern looks at its open fields alone. -/
theorem fill_congr {p : Pattern} {i j : Instruction}
    (h : ∀ f ∈ p.fields, j.field f = i.field f) : p.fill j = p.fill i := by
  cases p <;> simp only [fields, List.forall_mem_cons, Instruction.field] at h <;>
    simp [fill, h]

theorem fill_bounds {p : Pattern} (hp : p.Proper) {i : Instruction}
    (h : ∀ f ∈ p.fields, i.Fits f) : 0 ≤ p.fill i ∧ p.fill i < 65536 := by
  simp only [Instruction.Fits] at h
  cases p <;> simp only [fields, List.forall_mem_cons, Instruction.field, Field.size] at h <;>
    simp only [Proper] at hp <;> simp only [fill] <;> omega

/-- A pattern filled with numbers that fit is a word of the pattern, and the
numbers can be cut from it again. -/
theorem matches_fill {p : Pattern} (hp : p.Proper) {i : Instruction}
    (h : ∀ f ∈ p.fields, i.Fits f) (op : Operation) {w : Nat} (hw : (w : Int) = p.fill i) :
    p.Matches w ∧ ∀ f ∈ p.fields, (Instruction.ofFields op w).field f = i.field f := by
  simp only [Instruction.Fits] at h
  cases p <;> simp only [fields, List.forall_mem_cons, Instruction.field, Field.size] at h ⊢ <;>
    simp only [Proper] at hp <;> simp only [fill] at hw <;>
    simp [Matches, Instruction.ofFields] <;> omega

end Pattern

namespace Operation

theorem proper_pattern (op : Operation) : op.pattern.Proper := by
  cases op <;> simp [pattern, Pattern.Proper]

end Operation

namespace Instruction

theorem decode?_emod (w : Int) : decode? (w % 65536) = decode? w := by
  rw [decode?, decode?, (lowWord_eq_iff (w % 65536) w).mpr (Int.emod_emod w 65536)]

theorem isSome_decode?_iff (w : Int) :
    (decode? w).isSome ↔ ∃ op ∈ Operation.all, op.pattern.Matches (lowWord w) := by
  rw [Option.isSome_iff_exists]
  constructor
  · rintro ⟨i, hi⟩
    exact ⟨i.op, i.op.mem_all, (decode?_eq_some_iff.mp hi).1⟩
  · rintro ⟨op, -, hmatches⟩
    exact ⟨.ofFields op (lowWord w), decode?_eq_some_iff.mpr ⟨hmatches, rfl⟩⟩

/-- The word of an instruction decodes to its operation and its open fields. -/
theorem decode?_assemble {i : Instruction} (h : ∀ f ∈ i.op.pattern.fields, i.Fits f) :
    ∃ j, decode? i.assemble = some j ∧ j.op = i.op ∧
      ∀ f ∈ i.op.pattern.fields, j.field f = i.field f := by
  have hproper := i.op.proper_pattern
  have hbounds := Pattern.fill_bounds hproper h
  have hword : (lowWord i.assemble : Int) = i.op.pattern.fill i := by
    rw [lowWord_eq, assemble, Int.emod_eq_of_lt hbounds.1 hbounds.2]
  obtain ⟨hmatches, hfields⟩ := Pattern.matches_fill hproper h i.op hword
  exact ⟨.ofFields i.op (lowWord i.assemble), decode?_eq_some_iff.mpr ⟨hmatches, rfl⟩, rfl,
    hfields⟩

/-- A word that decodes is put together again from the open fields alone. -/
theorem assemble_of_decode? {w : Int} {i j : Instruction} (hi : decode? w = some i)
    (hop : j.op = i.op) (hfields : ∀ f ∈ i.op.pattern.fields, j.field f = i.field f) :
    j.assemble = w % 65536 := by
  obtain ⟨hmatches, hcut⟩ := decode?_eq_some_iff.mp hi
  calc
    j.assemble = i.op.pattern.fill j := by rw [assemble, hop]
    _ = i.op.pattern.fill i := Pattern.fill_congr hfields
    _ = i.op.pattern.fill (.ofFields i.op (lowWord w)) := by rw [← hcut]
    _ = lowWord w := Pattern.fill_ofFields i.op hmatches
    _ = w % 65536 := lowWord_eq w

/-- Decoding looks at the low sixteen bits of a number. It accepts exactly the
words of the thirty-four patterns, of which no word has two, and cuts fields from
the word that fit and from which, as far as its pattern leaves them open, the word
is put together again. The other way round, the word that is put together from
open fields that fit decodes to the same operation and the same fields. -/
theorem decoding_inverts_assembling :
    (∀ w : Int,
      decode? w = decode? (w % 65536) ∧
      ((decode? w).isSome ↔ ∃ op ∈ Operation.all, op.pattern.Matches (lowWord w)) ∧
      ∀ i, decode? w = some i →
        i.op.pattern.Matches (lowWord w) ∧ (∀ f, i.Fits f) ∧
        ∀ j : Instruction, j.op = i.op →
          (∀ f ∈ i.op.pattern.fields, j.field f = i.field f) → j.assemble = w % 65536) ∧
    (Operation.all.length = 34 ∧ Operation.all.Nodup ∧
      ∀ (w : Nat) (op op' : Operation), op.pattern.Matches w → op'.pattern.Matches w → op = op') ∧
    (∀ i : Instruction, (∀ f ∈ i.op.pattern.fields, i.Fits f) →
      ∃ j, decode? i.assemble = some j ∧ j.op = i.op ∧
        (∀ f ∈ i.op.pattern.fields, j.field f = i.field f) ∧ ∀ f, j.Fits f) := by
  have hfits {w : Int} {i : Instruction} (hi : decode? w = some i) (f : Field) : i.Fits f := by
    rw [(decode?_eq_some_iff.mp hi).2]
    exact fits_ofFields _ _ f
  refine ⟨fun w => ⟨(decode?_emod w).symm, isSome_decode?_iff w, fun i hi => ?_⟩,
    ⟨rfl, by decide, fun w op op' => Operation.pattern_unique⟩, fun i h => ?_⟩
  · exact ⟨(decode?_eq_some_iff.mp hi).1, hfits hi, fun j => assemble_of_decode? hi⟩
  · obtain ⟨j, hj, hop, hfields⟩ := decode?_assemble h
    exact ⟨j, hj, hop, hfields, hfits hj⟩

/-- A negative number whose low bits shift `V1`, and a sprite of fifteen rows
whose other fields are no part of its word. -/
theorem negativeShift_and_tallSprite :
    let shift : Instruction := { op := .shr, x := 1, y := 3, kk := 0x36, nnn := 0x136, n := 6 }
    let sprite : Instruction := { op := .draw, x := 15, y := 0, kk := -1, nnn := 70000, n := 15 }
    decode? (-0x7ECA) = some shift ∧ shift.assemble = 0x8136 ∧
      sprite.assemble = 0xDF0F ∧
      ∃ j, decode? 0xDF0F = some j ∧ j.op = .draw ∧ j.field .x = 15 ∧ j.field .y = 0 ∧
        j.field .n = 15 ∧ j.Fits .kk ∧ j.Fits .nnn := by
  intro shift sprite
  obtain ⟨hwords, -, hassembled⟩ := decoding_inverts_assembling
  have hshift : decode? (-0x7ECA) = some shift := rfl
  obtain ⟨-, -, hback⟩ := (hwords (-0x7ECA)).2.2 shift hshift
  have hopen : ∀ f ∈ sprite.op.pattern.fields, sprite.Fits f := by
    simp [sprite, Operation.pattern, Pattern.fields, Fits, field, Field.size]
  obtain ⟨j, hj, hop, hfields, hfits⟩ := hassembled sprite hopen
  exact ⟨hshift, hback shift rfl fun _ _ => rfl, rfl, j, hj, hop, hfields .x (by decide),
    hfields .y (by decide), hfields .n (by decide), hfits .kk, hfits .nnn⟩

end Instruction

end ChipEight
