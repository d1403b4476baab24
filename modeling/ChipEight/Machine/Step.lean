import ChipEight.Instruction.Decode
import ChipEight.Machine.State

/-!
The machine in motion. A step fetches and carries out one word, or looks for a
key while the machine waits for one. A run repeats steps until the count is
used up or a fault stops it. A word that is no instruction is passed over.

When an instruction is carried out, the program counter already points behind
it. An instruction that names a register outside 0 to 15 stops with a fault,
and only three leave something behind then: a random draw is spent, and a block
transfer has moved the sixteen registers there are.
-/

namespace ChipEight.Machine

def onRegisters (m : Machine) (f : Registers → Except Fault Registers) : Outcome :=
  match f m.registers with
  | .ok registers => { machine := { m with registers } }
  | .error fault => { machine := m, fault := some fault }

def drawSprite (m : Machine) (x y n : Int) : Outcome :=
  let place := do return (← m.registers.get x, ← m.registers.get y)
  match place with
  | .error fault => { machine := m, fault := some fault }
  | .ok (left, top) =>
    let rows := (m.memory.bytesFrom m.registers.index n).map Int.ofNat
    let (screen, hit) := m.screen.draw left top rows
    { m with screen }.onRegisters (·.setFlag (some hit))

/-- Puts a key that is down into a register, or parks the machine on the
instruction until there is one. -/
def awaitKey (m : Machine) (x : Int) : Outcome :=
  match m.keypad.lowest? with
  | some key => m.onRegisters (·.set x key.val)
  | none =>
    { machine :=
        { m with
          registers := { m.registers with pc := m.registers.currentAddress }
          waitRegister := x
          mode := .awaitingKey }
      notices := #[⟨.debug, .processor, "Waiting for key into V" ++ Text.hex 0 x⟩] }

def storeDecimal (m : Machine) (x : Int) : Outcome :=
  match m.registers.get x with
  | .error fault => { machine := m, fault := some fault }
  | .ok value =>
    let digits := [value / 100, value / 10 % 10, value % 10]
    { machine := { m with memory := m.memory.writeAll m.registers.index digits } }

def blockFault (count : Nat) : Option Fault :=
  if count ≤ 16 then none else some .badRegister

def storeBlock (m : Machine) (count : Nat) : Outcome :=
  { machine :=
      { m with memory := m.memory.writeAll m.registers.index (m.registers.v.toList.take count) }
    fault := blockFault count }

def loadBlock (m : Machine) (count : Nat) : Outcome :=
  let v := Vector.ofFn fun k : Fin 16 =>
    if k.val < count then (m.memory.read (m.registers.index + k.val) : Int)
    else m.registers.v.get k
  { machine := { m with registers := { m.registers with v } }
    fault := blockFault count }

/-- Puts a random byte, masked, into a register. The draw comes first. -/
def drawRandom (m : Machine) (x mask : Int) : Outcome :=
  let (byte, generator) := m.generator.byte
  { m with generator }.onRegisters (·.set x (byte &&& lowByte mask : Nat))

def execute (m : Machine) (i : Instruction) : Outcome :=
  match i.op with
  | .clear => { machine := { m with screen := .blank } }
  | .ret => m.onRegisters (·.ret)
  | .jump => m.onRegisters fun r => .ok (r.jump i.nnn)
  | .call => m.onRegisters (·.call i.nnn)
  | .jumpOffset => m.onRegisters fun r => do return r.jump (i.nnn + (← r.get 0))
  | .skipEqByte => m.onRegisters fun r => do return r.skipIf ((← r.get i.x) = i.kk)
  | .skipNeByte => m.onRegisters fun r => do return r.skipIf ((← r.get i.x) ≠ i.kk)
  | .skipEqReg => m.onRegisters fun r => do return r.skipIf ((← r.get i.x) = (← r.get i.y))
  | .skipNeReg => m.onRegisters fun r => do return r.skipIf ((← r.get i.x) ≠ (← r.get i.y))
  | .loadByte => m.onRegisters (·.set i.x i.kk)
  | .addByte => m.onRegisters (·.addTo i.x i.kk)
  | .copyReg => m.onRegisters (·.combine .copy i.x i.y)
  | .or => m.onRegisters (·.combine .or i.x i.y)
  | .and => m.onRegisters (·.combine .and i.x i.y)
  | .xor => m.onRegisters (·.combine .xor i.x i.y)
  | .addReg => m.onRegisters (·.combine .add i.x i.y)
  | .sub => m.onRegisters (·.combine .sub i.x i.y)
  | .subFrom => m.onRegisters (·.combine .subFrom i.x i.y)
  | .shr => m.onRegisters (·.combine .shr i.x i.x)
  | .shl => m.onRegisters (·.combine .shl i.x i.x)
  | .setIndex => m.onRegisters fun r => .ok (r.setIndex i.nnn)
  | .random => m.drawRandom i.x i.kk
  | .draw => m.drawSprite i.x i.y i.n
  | .skipPressed =>
    m.onRegisters fun r => do return r.skipIf (m.keypad.isDown (← r.get i.x))
  | .skipReleased =>
    m.onRegisters fun r => do return r.skipIf (!m.keypad.isDown (← r.get i.x))
  | .readDelay => m.onRegisters fun r => r.set i.x r.delay
  | .awaitKey => m.awaitKey i.x
  | .setDelay => m.onRegisters fun r => do return { r with delay := ← r.get i.x }
  | .setSound => m.onRegisters fun r => do return { r with sound := ← r.get i.x }
  | .addIndex => m.onRegisters fun r => do return r.setIndex (r.index + (← r.get i.x))
  | .pointAtGlyph => m.onRegisters fun r => do return r.pointAtGlyph (← r.get i.x)
  | .storeDecimal => m.storeDecimal i.x
  | .storeRegs => m.storeBlock (i.x + 1).toNat
  | .loadRegs => m.loadBlock (i.x + 1).toNat

def fetch (m : Machine) : Machine :=
  { m with
    word := m.memory.wordAt m.registers.pc
    registers := m.registers.skip }

/-- Hands the lowest key that is down to the waiting register and goes on
behind the waiting instruction. -/
def takeKey (m : Machine) : Outcome :=
  match m.keypad.lowest? with
  | none => { machine := m }
  | some key =>
    match m.registers.set m.waitRegister key.val with
    | .error fault => { machine := m, fault := some fault }
    | .ok registers =>
      { machine := { m with registers := registers.skip, mode := .running }
        notices := #[⟨.debug, .processor,
          "Key " ++ Text.hex 0 key.val ++ " received into V" ++ Text.hex 0 m.waitRegister⟩] }

def unknownNotice (m : Machine) : Notice :=
  ⟨.debug, .processor,
    "Unknown opcode " ++ Text.hex 4 m.word ++ " at 0x" ++
      Text.hex 3 m.registers.currentAddress ++ ", skipped"⟩

def cycle (m : Machine) : Outcome :=
  let m := { m.fetch with cycles := m.cycles + 1 }
  match Instruction.decode? m.word with
  | none => { machine := m, notices := #[m.unknownNotice] }
  | some i => m.execute i

def step (m : Machine) : Outcome :=
  match m.mode with
  | .awaitingKey => m.takeKey
  | .running => m.cycle

def runAfter (o : Outcome) : Nat → Outcome
  | 0 => o
  | n + 1 =>
    match o.fault with
    | some _ => o
    | none => runAfter (o.andThen step) n

def run (m : Machine) (n : Nat) : Outcome := runAfter { machine := m } n

/-- By how much the count of cycles has moved on since an earlier state: the
number that a run reports. -/
def cyclesSince (m start : Machine) : Int := m.cycles - start.cycles

/-- Goes on for a number of steps, but no further than a step that leaves the
machine waiting for a key. -/
def batchAfter (o : Outcome) : Nat → Outcome
  | 0 => o
  | n + 1 =>
    match o.fault with
    | some _ => o
    | none =>
      let o := o.andThen step
      match o.machine.mode with
      | .awaitingKey => o
      | .running => batchAfter o n

def runBatch (m : Machine) (n : Nat) : Outcome := batchAfter { machine := m } n

def trace (m : Machine) : Nat → List Outcome
  | 0 => []
  | n + 1 =>
    let o := m.step
    match o.fault with
    | some _ => [o]
    | none => o :: trace o.machine n

end ChipEight.Machine
