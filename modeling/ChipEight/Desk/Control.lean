import ChipEight.CommandLine.Launch
import ChipEight.Desk.State

/-!
The controls of the desk: run, pause, single steps, reset, loading a program,
and closing. While the machine runs, each frame carries out a batch of
instructions, ticks the timers once, sets the tone and presents the screen. A
fault stops the running machine and is shown as the status.

On the screen each lit cell of the presented frame is a white square on black.
Keys of the host keyboard go to the keypad while the screen has the focus;
losing the focus lets every key go.
-/

namespace ChipEight.Desk

def stopWith (d : Desk) (fault : Fault) : Desk :=
  (({ d with running := false }.switchTone false).tell .error .control
    ("Program stopped: " ++ fault.message)).setStatus fault.message

def singleStep (d : Desk) : Desk :=
  let o := d.machine.step
  let d := d.absorb o
  match o.fault with
  | some fault => d.stopWith fault
  | none => d.takeFrame.setStatus ("PC=" ++ Text.hex 3 d.machine.registers.pc)

def modeStatus : Mode → String
  | .awaitingKey => "Waiting for key"
  | .running => "Running"

def finishFrame (d : Desk) : Desk :=
  let d := { d with machine := d.machine.tick }
  ((d.switchTone d.machine.isSounding).takeFrame).setStatus (modeStatus d.machine.mode)

def runFrame (d : Desk) : Desk :=
  let (batch, pacer) := d.pacer.batch
  let o := d.machine.runBatch batch
  let d := { d with pacer }.absorb o
  match o.fault with
  | some fault => d.stopWith fault
  | none => d.finishFrame

def frameTimer (d : Desk) : Nat → Desk
  | 0 => d
  | n + 1 => (if d.running then d.runFrame else d).frameTimer n

def run (d : Desk) : Desk :=
  ({ d with pacer := d.pacer.reset, running := true, focus := .canvas }.setStatus "Running").tell
    .info .control "Run"

def pause (d : Desk) : Desk :=
  (({ d with running := false }.switchTone false).setStatus "Paused").tell .info .control "Pause"

def reset (d : Desk) (entropy : Entropy) : Desk :=
  let d := d.pause
  ((d.absorb (d.machine.reset entropy)).takeFrame).setStatus "Reset OK"

def loadFailed (d : Desk) (choice reason : String) : Desk :=
  (d.tell .error .control ("Cannot load " ++ choice ++ ": " ++ reason)).ask
    (.warning "Load failed" reason)

/-- Loads an image that was read. A machine that runs is paused first, even if
the image then does not fit. -/
def loadImage (d : Desk) (entropy : Entropy) (choice name : String) (image : List UInt8) : Desk :=
  let d := d.pause
  let o := d.machine.load entropy image
  match o.fault with
  | some fault => d.loadFailed choice fault.message
  | none =>
    ({ (d.absorb o).takeFrame with title := titleFor name }).setStatus ("Loaded " ++ name)

/-- Lets the user choose a program and loads it. An empty choice is none. -/
def load (d : Desk) (entropy : Entropy) (files : FileTree) (choice : String) : Desk :=
  let d := d.ask
    (.openDialog "Load ROM" "" "CHIP-8 programs (*.ch8 *.c8);;All files (*)")
  if choice = "" then d
  else
    let path := Path.ofText choice
    match files.read path with
    | .error e => d.loadFailed choice (e.message path.text)
    | .ok image => d.loadImage entropy choice path.name image

def soundFileName : String := "<tone>"

def removeSoundFile (d : Desk) : Desk :=
  if d.soundFile then { d with soundFile := false }
  else
    d.tell .warning .audio
      ("Cannot remove " ++ soundFileName ++ ": " ++ FileError.notFound.message soundFileName)

def close (d : Desk) : Desk :=
  { (d.pause.switchTone false).removeSoundFile with isOpen := false }.ask .closed

def canvasSize (d : Desk) : Nat × Nat := (64 * d.scale, 32 * d.scale)

def square (scale : Nat) (k : Fin 2048) : Request :=
  .fill (k.val % 64 * scale) (k.val / 64 * scale) scale scale .white

/-- Paints the presented frame on a canvas of some size: the background, then each
lit cell in order. The window system decides the size. -/
def paint (d : Desk) (width height : Nat) : Desk :=
  let background : Request := .fill 0 0 width height .black
  { d with
    requests := d.requests ++ (background :: d.frame.litCells.map (square d.scale)).toArray }

def escapeCode : Int := 16777216

def onKeypad (d : Desk) (f : Keypad → Keypad) : Desk :=
  { d with machine := { d.machine with keypad := f d.machine.keypad } }

/-- A key goes down: is it used here, and the desk after it. Escape closes the
window; a repeated key is not used. -/
def keyPress (d : Desk) (code : Int) (again : Bool) : Bool × Desk :=
  if code = escapeCode then (true, d.close)
  else
    match KeyMap.ofCode? code, again with
    | some key, false => (true, d.onKeypad (·.press key))
    | _, _ => (false, d)

def keyRelease (d : Desk) (code : Int) (again : Bool) : Bool × Desk :=
  match KeyMap.ofCode? code, again with
  | some key, false => (true, d.onKeypad (·.release key))
  | _, _ => (false, d)

def focusOut (d : Desk) : Desk := d.onKeypad (·.clear)

/-- The desk of a session that was started from the command line. It names the
program in its title if it starts to run at once. -/
def ofSession (s : CommandLine.Session) (autostart : Bool) : Desk :=
  let title := if autostart then titleFor s.name else plainTitle
  let d := { ofMachine s.settings s.machine title with notices := s.notices }
  if autostart then d.run else d

/-- The milliseconds of the frame timer, the register timer and the memory
timer. -/
def intervals (d : Desk) : List Nat := [d.pacer.interval, 200, 500]

end ChipEight.Desk
