import ChipEight.Instruction.Operation
import ChipEight.Machine.Word

/-!
Instruction words. To decode a word, its first nibble selects a family; some
families look at the last nibble, the last byte or the whole word. A word of no
family is no instruction. The written form goes the other way: a pattern fixes
some nibbles of a word and leaves the others to fields, each operation has one,
and assembling fills the fields in.
-/

namespace ChipEight

/-- The operation in the family of register pairs, by the last nibble. -/
def Operation.ofPairNibble? : Nat → Option Operation
  | 0x0 => some .copyReg
  | 0x1 => some .or
  | 0x2 => some .and
  | 0x3 => some .xor
  | 0x4 => some .addReg
  | 0x5 => some .sub
  | 0x6 => some .shr
  | 0x7 => some .subFrom
  | 0xE => some .shl
  | _ => none

/-- The operation in the family of timers, keys and blocks, by the last byte. -/
def Operation.ofDeviceByte? : Nat → Option Operation
  | 0x07 => some .readDelay
  | 0x0A => some .awaitKey
  | 0x15 => some .setDelay
  | 0x18 => some .setSound
  | 0x1E => some .addIndex
  | 0x29 => some .pointAtGlyph
  | 0x33 => some .storeDecimal
  | 0x55 => some .storeRegs
  | 0x65 => some .loadRegs
  | _ => none

def Operation.ofWord? (w : Nat) : Option Operation :=
  match w / 4096 with
  | 0x0 => if w = 0x00E0 then some .clear else if w = 0x00EE then some .ret else none
  | 0x1 => some .jump
  | 0x2 => some .call
  | 0x3 => some .skipEqByte
  | 0x4 => some .skipNeByte
  | 0x5 => if w % 16 = 0 then some .skipEqReg else none
  | 0x6 => some .loadByte
  | 0x7 => some .addByte
  | 0x8 => ofPairNibble? (w % 16)
  | 0x9 => if w % 16 = 0 then some .skipNeReg else none
  | 0xA => some .setIndex
  | 0xB => some .jumpOffset
  | 0xC => some .random
  | 0xD => some .draw
  | 0xE =>
    if w % 256 = 0x9E then some .skipPressed
    else if w % 256 = 0xA1 then some .skipReleased
    else none
  | 0xF => ofDeviceByte? (w % 256)
  | _ => none

namespace Instruction

def ofFields (op : Operation) (w : Nat) : Instruction where
  op := op
  x := (w / 256 % 16 : Nat)
  y := (w / 16 % 16 : Nat)
  kk := (w % 256 : Nat)
  nnn := (w % 4096 : Nat)
  n := (w % 16 : Nat)

def decode? (word : Int) : Option Instruction :=
  (Operation.ofWord? (lowWord word)).map fun op => ofFields op (lowWord word)

end Instruction

/-- The shape of the words of an operation: a family in the first nibble, and
behind it fields of the instruction or fixed digits. -/
inductive Pattern where
  | exact (word : Nat)
  | address (family : Nat)
  | regByte (family : Nat)
  | regPair (family last : Nat)
  | regPairCount (family : Nat)
  | reg (family low : Nat)
  deriving DecidableEq

namespace Pattern

def Matches : Pattern → Nat → Prop
  | exact word, w => w = word
  | address family, w => w / 4096 = family
  | regByte family, w => w / 4096 = family
  | regPair family last, w => w / 4096 = family ∧ w % 16 = last
  | regPairCount family, w => w / 4096 = family
  | reg family low, w => w / 4096 = family ∧ w % 256 = low

instance (p : Pattern) (w : Nat) : Decidable (p.Matches w) := by
  cases p <;> unfold Matches <;> infer_instance

def fill (p : Pattern) (i : Instruction) : Int :=
  match p with
  | exact word => word
  | address family => 4096 * family + i.nnn
  | regByte family => 4096 * family + 256 * i.x + i.kk
  | regPair family last => 4096 * family + 256 * i.x + 16 * i.y + last
  | regPairCount family => 4096 * family + 256 * i.x + 16 * i.y + i.n
  | reg family low => 4096 * family + 256 * i.x + low

end Pattern

def Operation.pattern : Operation → Pattern
  | clear => .exact 0x00E0
  | ret => .exact 0x00EE
  | jump => .address 0x1
  | call => .address 0x2
  | skipEqByte => .regByte 0x3
  | skipNeByte => .regByte 0x4
  | skipEqReg => .regPair 0x5 0x0
  | loadByte => .regByte 0x6
  | addByte => .regByte 0x7
  | copyReg => .regPair 0x8 0x0
  | or => .regPair 0x8 0x1
  | and => .regPair 0x8 0x2
  | xor => .regPair 0x8 0x3
  | addReg => .regPair 0x8 0x4
  | sub => .regPair 0x8 0x5
  | shr => .regPair 0x8 0x6
  | subFrom => .regPair 0x8 0x7
  | shl => .regPair 0x8 0xE
  | skipNeReg => .regPair 0x9 0x0
  | setIndex => .address 0xA
  | jumpOffset => .address 0xB
  | random => .regByte 0xC
  | draw => .regPairCount 0xD
  | skipPressed => .reg 0xE 0x9E
  | skipReleased => .reg 0xE 0xA1
  | readDelay => .reg 0xF 0x07
  | awaitKey => .reg 0xF 0x0A
  | setDelay => .reg 0xF 0x15
  | setSound => .reg 0xF 0x18
  | addIndex => .reg 0xF 0x1E
  | pointAtGlyph => .reg 0xF 0x29
  | storeDecimal => .reg 0xF 0x33
  | storeRegs => .reg 0xF 0x55
  | loadRegs => .reg 0xF 0x65

def Instruction.assemble (i : Instruction) : Int := i.op.pattern.fill i

end ChipEight
