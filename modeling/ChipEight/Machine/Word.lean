/-!
Numbers of limited size. A number is cut down to a byte, an address or a word
of the machine by keeping its low bits, so a cut is the remainder by a power of
two, also for negative numbers. The host counts places in memory with
sixty-four bits and a sign; a number outside of that range cannot say how long
a list is or where in it to look.

The nine operations on a pair of bytes may set the flag besides their result: a
carry, the absence of a borrow, or the bit shifted out. The logical operations
and the copy leave the flag alone.
-/

namespace ChipEight

def lowByte (n : Int) : Nat := (n % 256).toNat

def lowAddress (n : Int) : Nat := (n % 4096).toNat

def lowWord (n : Int) : Nat := (n % 65536).toNat

/-- The number of a register or a key, if it is one. -/
def nibble? (n : Int) : Option (Fin 16) :=
  if h : 0 ≤ n ∧ n < 16 then some ⟨n.toNat, by omega⟩ else none

theorem lowByte_lt (n : Int) : lowByte n < 256 := by
  unfold lowByte
  omega

theorem lowAddress_lt (n : Int) : lowAddress n < 4096 := by
  unfold lowAddress
  omega

theorem lowByte_eq (n : Int) : (lowByte n : Int) = n % 256 := by
  unfold lowByte
  omega

theorem lowAddress_eq (n : Int) : (lowAddress n : Int) = n % 4096 := by
  unfold lowAddress
  omega

theorem lowWord_eq (n : Int) : (lowWord n : Int) = n % 65536 := by
  unfold lowWord
  omega

theorem lowByte_of_lt {n : Nat} (h : n < 256) : lowByte n = n := by
  unfold lowByte
  omega

theorem lowAddress_of_lt {n : Nat} (h : n < 4096) : lowAddress n = n := by
  unfold lowAddress
  omega

namespace Index

def limit : Nat := 9223372036854775808

def fits (n : Int) : Bool := -(limit : Int) ≤ n && n < limit

def rejection : String := "cannot fit 'int' into an index-sized integer"

end Index

inductive ByteOp where
  | copy
  | or
  | and
  | xor
  | add
  | sub
  | shr
  | subFrom
  | shl
  deriving DecidableEq

/-- The byte that an operation gives, and the flag if it sets one. -/
structure ByteResult where
  value : Nat
  flag : Option Bool
  deriving DecidableEq

namespace ByteOp

def all : List ByteOp :=
  [copy, or, and, xor, add, sub, shr, subFrom, shl]

def name : ByteOp → String
  | copy => "LD"
  | or => "OR"
  | and => "AND"
  | xor => "XOR"
  | add => "ADD"
  | sub => "SUB"
  | shr => "SHR"
  | subFrom => "SUBN"
  | shl => "SHL"

def ofName? (text : String) : Option ByteOp :=
  all.find? (·.name = text)

/-- The operation on two bytes. A difference sets the flag when nothing is
borrowed and the operands differ; a shift reads the destination only. -/
def onBytes (op : ByteOp) (a b : Nat) : ByteResult :=
  match op with
  | copy => ⟨b, none⟩
  | or => ⟨a ||| b, none⟩
  | and => ⟨a &&& b, none⟩
  | xor => ⟨a ^^^ b, none⟩
  | add => ⟨(a + b) % 256, some (255 < a + b)⟩
  | sub => ⟨(a + 256 - b) % 256, some (b < a)⟩
  | shr => ⟨a / 2, some (a % 2 = 1)⟩
  | subFrom => ⟨(b + 256 - a) % 256, some (a < b)⟩
  | shl => ⟨2 * a % 256, some (128 ≤ a)⟩

def eval (op : ByteOp) (a b : Int) : ByteResult :=
  op.onBytes (lowByte a) (lowByte b)

end ByteOp

end ChipEight
