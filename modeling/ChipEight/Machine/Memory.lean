import ChipEight.Machine.Notice
import ChipEight.Machine.Word

/-!
The 4096 bytes of memory. Every address is taken modulo 4096 and every value
modulo 256, so reading and writing are total. The font fills the first eighty
bytes and programs start at `0x200`. `read_write` is the law of one cell.
-/

namespace ChipEight

structure Memory where
  cells : Vector UInt8 4096
  deriving DecidableEq

namespace Memory

/-- The glyphs of the sixteen hexadecimal digits, five rows each. -/
def font : List Int :=
  [0xF0, 0x90, 0x90, 0x90, 0xF0,
   0x20, 0x60, 0x20, 0x20, 0x70,
   0xF0, 0x10, 0xF0, 0x80, 0xF0,
   0xF0, 0x10, 0xF0, 0x10, 0xF0,
   0x90, 0x90, 0xF0, 0x10, 0x10,
   0xF0, 0x80, 0xF0, 0x10, 0xF0,
   0xF0, 0x80, 0xF0, 0x90, 0xF0,
   0xF0, 0x10, 0x20, 0x40, 0x40,
   0xF0, 0x90, 0xF0, 0x90, 0xF0,
   0xF0, 0x90, 0xF0, 0x10, 0xF0,
   0xF0, 0x90, 0xF0, 0x90, 0x90,
   0xE0, 0x90, 0xE0, 0x90, 0xE0,
   0xF0, 0x80, 0x80, 0x80, 0xF0,
   0xE0, 0x90, 0x90, 0x90, 0xE0,
   0xF0, 0x80, 0xF0, 0x80, 0xF0,
   0xF0, 0x80, 0xF0, 0x80, 0x80]

/-- The address of the glyph of a digit, of which the low four bits count. -/
def glyphAddress (digit : Int) : Int := 5 * (digit % 16)

def cellAt (address : Int) : Fin 4096 := ⟨lowAddress address, lowAddress_lt address⟩

def read (m : Memory) (address : Int) : Nat := m.cells[cellAt address].toNat

def write (m : Memory) (address value : Int) : Memory :=
  ⟨m.cells.set (cellAt address) (UInt8.ofNat (lowByte value))⟩

def writeAll (m : Memory) (start : Int) : List Int → Memory
  | [] => m
  | value :: rest => (m.write start value).writeAll (start + 1) rest

def wordAt (m : Memory) (address : Int) : Nat :=
  256 * m.read address + m.read (address + 1)

def bytesFrom (m : Memory) (start length : Int) : List Nat :=
  (List.range length.toNat).map fun k : Nat => m.read (start + k)

def fresh : Memory :=
  writeAll ⟨Vector.replicate 4096 0⟩ 0 font

def programStart : Int := 0x200

def programLimit : Nat := 3584

def load (m : Memory) (program : List UInt8) : Except Fault Memory :=
  if program.length ≤ programLimit then
    .ok (m.writeAll programStart (program.map fun byte => (byte.toNat : Int)))
  else
    .error (.programTooLarge program.length)

theorem read_lt (m : Memory) (address : Int) : m.read address < 256 :=
  UInt8.toNat_lt _

theorem wordAt_lt (m : Memory) (address : Int) : m.wordAt address < 65536 := by
  have high := m.read_lt address
  have low := m.read_lt (address + 1)
  unfold wordAt
  omega

theorem read_write (m : Memory) (a b value : Int) :
    (m.write a value).read b =
      if lowAddress a = lowAddress b then lowByte value else m.read b := by
  have small := lowByte_lt value
  simp only [read, write, cellAt, Fin.getElem_fin, Vector.getElem_set]
  split
  · simp [Nat.mod_eq_of_lt small]
  · rfl

end Memory

end ChipEight
