/-!
The thirty-four operations of the machine, and an instruction: an operation
with all the fields that can be cut from an instruction word. The fields
overlap, and an operation reads only some of them.
-/

namespace ChipEight

/-- What an instruction does. `Byte` and `Reg` in a name say whether a register is
compared or combined with the byte of the instruction or with its second
register. -/
inductive Operation where
  | clear
  | ret
  | jump
  | call
  | skipEqByte
  | skipNeByte
  | skipEqReg
  | loadByte
  | addByte
  | copyReg
  | or
  | and
  | xor
  | addReg
  | sub
  | shr
  | subFrom
  | shl
  | skipNeReg
  | setIndex
  | jumpOffset
  | random
  | draw
  | skipPressed
  | skipReleased
  | readDelay
  | awaitKey
  | setDelay
  | setSound
  | addIndex
  | pointAtGlyph
  | storeDecimal
  | storeRegs
  | loadRegs
  deriving DecidableEq

namespace Operation

def all : List Operation :=
  [clear, ret, jump, call, skipEqByte, skipNeByte, skipEqReg, loadByte, addByte, copyReg,
   or, and, xor, addReg, sub, shr, subFrom, shl, skipNeReg, setIndex, jumpOffset, random,
   draw, skipPressed, skipReleased, readDelay, awaitKey, setDelay, setSound, addIndex,
   pointAtGlyph, storeDecimal, storeRegs, loadRegs]

def name : Operation → String
  | clear => "CLS"
  | ret => "RET"
  | jump => "JP"
  | call => "CALL"
  | skipEqByte => "SE_BYTE"
  | skipNeByte => "SNE_BYTE"
  | skipEqReg => "SE_REG"
  | loadByte => "LD_BYTE"
  | addByte => "ADD_BYTE"
  | copyReg => "LD_REG"
  | or => "OR"
  | and => "AND"
  | xor => "XOR"
  | addReg => "ADD_REG"
  | sub => "SUB"
  | shr => "SHR"
  | subFrom => "SUBN"
  | shl => "SHL"
  | skipNeReg => "SNE_REG"
  | setIndex => "LD_I"
  | jumpOffset => "JP_V0"
  | random => "RND"
  | draw => "DRW"
  | skipPressed => "SKP"
  | skipReleased => "SKNP"
  | readDelay => "LD_VX_DT"
  | awaitKey => "LD_VX_K"
  | setDelay => "LD_DT_VX"
  | setSound => "LD_ST_VX"
  | addIndex => "ADD_I"
  | pointAtGlyph => "LD_F"
  | storeDecimal => "LD_B"
  | storeRegs => "LD_MEM_VX"
  | loadRegs => "LD_VX_MEM"

def ofName? (text : String) : Option Operation := all.find? (·.name = text)

end Operation

/-- An operation with its fields: two register numbers, a byte, an address and
a row count. -/
structure Instruction where
  op : Operation
  x : Int := 0
  y : Int := 0
  kk : Int := 0
  nnn : Int := 0
  n : Int := 0
  deriving DecidableEq

end ChipEight
