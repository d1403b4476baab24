import ChipEight.Instruction.Decode
import ChipEight.Text.Numeral

/-!
Instructions as lines of assembly. An operation fixes which operands its line
shows and in which order; a word that is no instruction is shown as data.
-/

namespace ChipEight

/-- What a line shows for an operand: a field of the instruction, or a fixed word. -/
inductive Operand where
  | x
  | y
  | byte
  | address
  | count
  | word (text : String)
  deriving DecidableEq

namespace Operation

def mnemonic : Operation → String
  | clear => "CLS"
  | ret => "RET"
  | jump | jumpOffset => "JP"
  | call => "CALL"
  | skipEqByte | skipEqReg => "SE"
  | skipNeByte | skipNeReg => "SNE"
  | loadByte | copyReg | setIndex | readDelay | awaitKey | setDelay | setSound
  | pointAtGlyph | storeDecimal | storeRegs | loadRegs => "LD"
  | addByte | addReg | addIndex => "ADD"
  | or => "OR"
  | and => "AND"
  | xor => "XOR"
  | sub => "SUB"
  | shr => "SHR"
  | subFrom => "SUBN"
  | shl => "SHL"
  | random => "RND"
  | draw => "DRW"
  | skipPressed => "SKP"
  | skipReleased => "SKNP"

def operands : Operation → List Operand
  | clear | ret => []
  | jump | call => [.address]
  | skipEqByte | skipNeByte | loadByte | addByte | random => [.x, .byte]
  | skipEqReg | skipNeReg | copyReg | or | and | xor | addReg | sub | subFrom => [.x, .y]
  | shr | shl | skipPressed | skipReleased => [.x]
  | setIndex => [.word "I", .address]
  | jumpOffset => [.word "V0", .address]
  | draw => [.x, .y, .count]
  | readDelay => [.x, .word "DT"]
  | awaitKey => [.x, .word "K"]
  | setDelay => [.word "DT", .x]
  | setSound => [.word "ST", .x]
  | addIndex => [.word "I", .x]
  | pointAtGlyph => [.word "F", .x]
  | storeDecimal => [.word "B", .x]
  | storeRegs => [.word "[I]", .x]
  | loadRegs => [.x, .word "[I]"]

end Operation

namespace Instruction

def operandText (i : Instruction) : Operand → String
  | .x => "V" ++ Text.hex 0 i.x
  | .y => "V" ++ Text.hex 0 i.y
  | .byte => "0x" ++ Text.hex 2 i.kk
  | .address => "0x" ++ Text.hex 3 i.nnn
  | .count => Text.decimal i.n
  | .word text => text

def text (i : Instruction) : String :=
  match i.op.operands with
  | [] => i.op.mnemonic
  | operands => i.op.mnemonic ++ " " ++ ", ".intercalate (operands.map i.operandText)

end Instruction

def disassemble (word : Int) : String :=
  match Instruction.decode? word with
  | some i => i.text
  | none => "DW 0x" ++ Text.hex 4 (lowWord word)

end ChipEight
