import ChipEight.Text.Quoted

/-!
What the machine and the programs around it have to say. A fault is a cause
that stops an operation of the machine, with its wording. A notice is for the
log: a level, the part of the program that speaks, and a text. A threshold
keeps the notices of its level and above.
-/

namespace ChipEight

/-- Why an operation stopped. -/
inductive Fault where
  | badRegister
  | stackOverflow (pc : Int) (depth : Nat)
  | stackUnderflow (pc : Int)
  | programTooLarge (size : Nat)
  | unknownByteOp (name : String)
  | unknownOperation (name : String)
  deriving DecidableEq

namespace Fault

def message : Fault → String
  | badRegister => "Invalid register index"
  | stackOverflow pc depth =>
    "Stack overflow at PC=0x" ++ Text.hex 3 pc ++ " (depth " ++ Text.decimal depth ++ ")"
  | stackUnderflow pc => "Return with empty stack at PC=0x" ++ Text.hex 3 pc
  | programTooLarge size =>
    "Program is " ++ Text.decimal size ++ " bytes, limit is 3584"
  | unknownByteOp name => "Unsupported ALU op " ++ name
  | unknownOperation name => Text.quoted name ++ " is not a valid Op"

end Fault

inductive Level where
  | debug
  | info
  | warning
  | error
  deriving DecidableEq

namespace Level

def all : List Level := [debug, info, warning, error]

def name : Level → String
  | debug => "DEBUG"
  | info => "INFO"
  | warning => "WARNING"
  | error => "ERROR"

def ofName? (text : String) : Option Level := all.find? (·.name = text)

def rank : Level → Nat
  | debug => 0
  | info => 1
  | warning => 2
  | error => 3

end Level

/-- The part of the program that speaks. -/
inductive Source where
  | memory
  | processor
  | launcher
  | control
  | audio
  deriving DecidableEq

def Source.name : Source → String
  | memory => "chip8.memory"
  | processor => "chip8.cpu_core"
  | launcher => "chip8"
  | control => "chip8_gui.control_panel"
  | audio => "chip8_gui.audio"

structure Notice where
  level : Level
  source : Source
  text : String
  deriving DecidableEq

namespace Notice

def line (n : Notice) : String :=
  n.level.name ++ " " ++ n.source.name ++ ": " ++ n.text

def passes (threshold : Level) (n : Notice) : Bool :=
  threshold.rank ≤ n.level.rank

end Notice

end ChipEight
