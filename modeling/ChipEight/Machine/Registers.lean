import ChipEight.Machine.Word
import ChipEight.Machine.Notice
import ChipEight.Machine.Memory

/-!
The sixteen general registers, the index register, the program counter, the
two timers and the call stack. Registers hold whole numbers: what the machine
writes is cut to a byte or an address, and what is put in from outside is kept
as it is. An operation that stops leaves the registers as they were.
-/

namespace ChipEight

/-- The registers of the machine. The stack has the newest entry in front. -/
structure Registers where
  v : Vector Int 16 := Vector.replicate 16 0
  index : Int := 0
  pc : Int := Memory.programStart
  delay : Int := 0
  sound : Int := 0
  stack : List Int := []
  deriving DecidableEq

namespace Registers

def flagRegister : Int := 15

def stackLimit : Nat := 16

def get (r : Registers) (k : Int) : Except Fault Int :=
  match nibble? k with
  | some k => .ok (r.v.get k)
  | none => .error .badRegister

def put (r : Registers) (k : Fin 16) (value : Int) : Registers :=
  { r with v := r.v.set k (lowByte value) }

theorem get_put (r : Registers) (j k : Fin 16) (value : Int) :
    (r.put k value).v.get j = if k = j then (lowByte value : Int) else r.v.get j := by
  change (r.v.set k (lowByte value))[j.val] = if k = j then (lowByte value : Int) else r.v[j.val]
  simp [Vector.getElem_set, Fin.ext_iff]

def set (r : Registers) (k value : Int) : Except Fault Registers :=
  match nibble? k with
  | some k => .ok (r.put k value)
  | none => .error .badRegister

def setFlag (r : Registers) : Option Bool → Except Fault Registers
  | none => .ok r
  | some flag => r.set flagRegister flag.toNat

/-- Combines two registers into the first. Both are read before anything is
written, and the flag is written last. -/
def combine (r : Registers) (op : ByteOp) (dst src : Int) : Except Fault Registers := do
  let a ← r.get dst
  let b ← r.get src
  let result := op.eval a b
  let r ← r.set dst result.value
  r.setFlag result.flag

/-- Combines two registers by the operation with a name. A bad register is
found before a bad name. -/
def combineNamed (r : Registers) (name : String) (dst src : Int) : Except Fault Registers := do
  let _ ← r.get dst
  let _ ← r.get src
  match ByteOp.ofName? name with
  | some op => r.combine op dst src
  | none => .error (.unknownByteOp name)

def addTo (r : Registers) (k amount : Int) : Except Fault Registers := do
  r.set k ((← r.get k) + amount)

def jump (r : Registers) (target : Int) : Registers :=
  { r with pc := lowAddress target }

def skip (r : Registers) : Registers :=
  { r with pc := lowAddress (r.pc + 2) }

def skipIf (r : Registers) (condition : Bool) : Registers :=
  if condition then r.skip else r

/-- The address of the instruction that was fetched last. -/
def currentAddress (r : Registers) : Int := lowAddress (r.pc - 2)

def call (r : Registers) (target : Int) : Except Fault Registers :=
  if r.stack.length < stackLimit then
    .ok { r with stack := r.pc :: r.stack, pc := lowAddress target }
  else
    .error (.stackOverflow r.currentAddress r.stack.length)

def ret (r : Registers) : Except Fault Registers :=
  match r.stack with
  | [] => .error (.stackUnderflow r.currentAddress)
  | target :: rest => .ok { r with pc := target, stack := rest }

def setIndex (r : Registers) (address : Int) : Registers :=
  { r with index := lowAddress address }

def pointAtGlyph (r : Registers) (digit : Int) : Registers :=
  { r with index := Memory.glyphAddress digit }

def countDown (n : Int) : Int := if 0 < n then n - 1 else n

def tick (r : Registers) : Registers :=
  { r with delay := countDown r.delay, sound := countDown r.sound }

end Registers

end ChipEight
