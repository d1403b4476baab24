import ChipEight.Host.Settings
import ChipEight.Machine.Step

/-!
The desk: a window with the screen, the registers, the memory and the controls
of one machine. It is a value that answers what the user and the timers do,
and it keeps in order what it asked of the window system and told the log.
-/

namespace ChipEight

structure Color where
  red : Nat
  green : Nat
  blue : Nat
  deriving DecidableEq

namespace Color

def black : Color := ⟨0, 0, 0⟩

def white : Color := ⟨255, 255, 255⟩

end Color

/-- What the desk asks of the window system. -/
inductive Request where
  | repaint
  | play
  | stop
  | fill (x y width height : Nat) (color : Color)
  | tableChanged
  | wordChanged
  | scroll (row column : Int)
  | warning (title text : String)
  | openDialog (title folder filters : String)
  | intDialog (title label : String) (value low high : Int)
  | textDialog (title label text : String)
  | closed
  deriving DecidableEq

inductive Focus where
  | nothing
  | canvas
  | field (k : Fin 16)
  deriving DecidableEq

structure Desk where
  machine : Machine
  scale : Nat
  pacer : Pacer
  title : String
  status : String := "Stopped"
  running : Bool := false
  sounding : Bool := false
  /-- The sign that the tone plays. -/
  indicator : String := ""
  soundFile : Bool := true
  /-- The screen as it was presented last. -/
  frame : Screen
  focus : Focus := .nothing
  generalTexts : Vector String 16 := Vector.replicate 16 ""
  /-- The texts for the index register, the program counter, the depth of the
  stack and the two timers. -/
  specialTexts : Vector String 5 := Vector.replicate 5 ""
  isOpen : Bool := true
  requests : Array Request := #[]
  notices : Array Notice := #[]

namespace Desk

def ofMachine (settings : Settings) (machine : Machine) (title : String) : Desk where
  machine := machine
  scale := settings.scale
  pacer := settings.pacer
  title := title
  frame := machine.screen

def titleFor (name : String) : String := "CHIP-8 - " ++ name

def plainTitle : String := "CHIP-8"

def ask (d : Desk) (request : Request) : Desk :=
  { d with requests := d.requests.push request }

def tell (d : Desk) (level : Level) (source : Source) (text : String) : Desk :=
  { d with notices := d.notices.push ⟨level, source, text⟩ }

def setStatus (d : Desk) (status : String) : Desk := { d with status }

def absorb (d : Desk) (o : Outcome) : Desk :=
  { d with machine := o.machine, notices := d.notices ++ o.notices }

def takeFrame (d : Desk) : Desk :=
  { d with frame := d.machine.screen }.ask .repaint

/-- Switches the tone; nothing happens if it is as wanted. -/
def switchTone (d : Desk) (on : Bool) : Desk :=
  if on = d.sounding then d
  else
    { d with sounding := on, indicator := if on then "♪" else "" }.ask
      (if on then .play else .stop)

end Desk

end ChipEight
