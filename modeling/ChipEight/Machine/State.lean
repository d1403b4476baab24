import ChipEight.Machine.Generator
import ChipEight.Machine.Keypad
import ChipEight.Machine.Notice
import ChipEight.Machine.Registers
import ChipEight.Machine.Screen

/-!
The whole machine, and how it is powered on, loaded and reset. Loading and
resetting rebuild everything but the seed and the keypad from a program image;
an image that does not fit leaves the machine as it was. Whoever powers a
machine on hands it entropy of the host, from which a machine without a seed
makes its random bytes.
-/

namespace ChipEight

/-- Random words from the host. Each power-on is given words of its own. -/
structure Entropy where
  words : Array UInt32

inductive Mode where
  | running
  | awaitingKey
  deriving DecidableEq

structure Machine where
  seed : Option Int
  keypad : Keypad
  memory : Memory
  program : List UInt8
  generator : Generator
  registers : Registers
  screen : Screen
  word : Nat
  mode : Mode
  /-- The register that the last wait for a key was for. -/
  waitRegister : Int
  /-- The number of words fetched and carried out since power-on. -/
  cycles : Nat

/-- What an operation leaves behind: the machine, the fault if it stopped
early, and what it told the log. -/
structure Outcome where
  machine : Machine
  fault : Option Fault := none
  notices : Array Notice := #[]

namespace Outcome

def andThen (o : Outcome) (next : Machine → Outcome) : Outcome :=
  match o.fault with
  | some _ => o
  | none =>
    let o' := next o.machine
    { o' with notices := o.notices ++ o'.notices }

end Outcome

namespace Machine

/-- The generator at power-on. The entropy counts only where there is no seed. -/
def generatorOf (seed : Option Int) (entropy : Entropy) : Generator :=
  seed.elim (.ofKey entropy.words) .ofSeed

def atPowerOn (seed : Option Int) (entropy : Entropy) (keypad : Keypad) (memory : Memory)
    (program : List UInt8) : Machine where
  seed := seed
  keypad := keypad
  memory := memory
  program := program
  generator := generatorOf seed entropy
  registers := {}
  screen := .blank
  word := 0
  mode := .running
  waitRegister := 0
  cycles := 0

def new (seed : Option Int) (entropy : Entropy) (keypad : Keypad) : Machine :=
  atPowerOn seed entropy keypad .fresh []

def copiedNotice (size : Nat) : Notice :=
  ⟨.debug, .memory, "Loaded " ++ Text.decimal size ++ " bytes at 0x200"⟩

def newNotices : Array Notice := #[copiedNotice 0]

def load (m : Machine) (entropy : Entropy) (program : List UInt8) : Outcome :=
  match Memory.fresh.load program with
  | .error fault => { machine := m, fault := some fault }
  | .ok memory =>
    { machine := atPowerOn m.seed entropy m.keypad memory program
      notices := #[copiedNotice program.length,
        ⟨.info, .processor,
          "Program loaded (" ++ Text.decimal program.length ++ " bytes)"⟩] }

def reset (m : Machine) (entropy : Entropy) : Outcome :=
  match Memory.fresh.load m.program with
  | .error fault => { machine := m, fault := some fault }
  | .ok memory =>
    { machine := atPowerOn m.seed entropy m.keypad.clear memory m.program
      notices := #[copiedNotice m.program.length, ⟨.info, .processor, "CPU reset"⟩] }

/-- Copies an image into the present memory and changes nothing else. -/
def patch (m : Machine) (image : List UInt8) : Outcome :=
  match m.memory.load image with
  | .error fault => { machine := m, fault := some fault }
  | .ok memory => { machine := { m with memory }, notices := #[copiedNotice image.length] }

def tick (m : Machine) : Machine := { m with registers := m.registers.tick }

def isSounding (m : Machine) : Bool := 0 < m.registers.sound

end Machine

end ChipEight
