import ChipEight.CommandLine.Arguments
import ChipEight.Host.FileTree
import ChipEight.Machine.State

/-!
Starting a session from a command line: read the arguments, check the
settings, read the program image, and load it into a new machine. The first of
these that fails decides how the program ends. A blank level is found out
before the settings, and a blank seed when the machine is built.
-/

namespace ChipEight.CommandLine

def usageText : String :=
  "usage: main.py [-h] [--cpu-hz N] [--timer-hz N] [--scale N] [--seed SEED]\n" ++
  "               [--log-level \x7bDEBUG,INFO,WARNING,ERROR\x7d]\n" ++
  "               rom\n"

def helpText : String :=
  usageText ++
  "\n" ++
  "CHIP-8 interpreter with a Qt front end\n" ++
  "\n" ++
  "positional arguments:\n" ++
  "  rom                   path to a CHIP-8 program image\n" ++
  "\n" ++
  "options:\n" ++
  "  -h, --help            show this help message and exit\n" ++
  "  --cpu-hz N            instructions per second (default 700)\n" ++
  "  --timer-hz N          timer and refresh rate (default 60)\n" ++
  "  --scale N             screen pixels per CHIP-8 pixel (default 10)\n" ++
  "  --seed SEED           seed for the RND instruction\n" ++
  "  --log-level \x7bDEBUG,INFO,WARNING,ERROR\x7d\n"

structure Session where
  settings : Settings
  name : String
  machine : Machine
  level : Level
  notices : Array Notice

inductive Refusal where
  | help
  | usage (error : UsageError)
  | failed (level : Level) (notices : Array Notice)
  /-- The name of the program cannot be the name of a file. -/
  | impossibleName (error : FileError)
  | blank (value : BlankValue)
  deriving DecidableEq

def Refusal.exitCode : Refusal → Nat
  | help => 0
  | usage _ => 2
  | failed _ _ => 1
  | impossibleName _ => 1
  | blank _ => 1

def programNotice (verb program reason : String) : Notice :=
  ⟨.error, .launcher, "Cannot " ++ verb ++ " ROM " ++ program ++ ": " ++ reason⟩

def Arguments.setting (a : Arguments) : Setting → Value Int
  | .instructionRate => a.instructionRate
  | .frameRate => a.frameRate
  | .scale => a.scale

/-- The settings, or the first that is blank or not positive. A blank stands in
as zero, so that it is refused in its turn. -/
def settingsOf (a : Arguments) : Except Refusal Settings :=
  match Settings.ofValues (a.instructionRate.getD 0) (a.frameRate.getD 0) (a.scale.getD 0)
    (a.seed.getD none) with
  | .ok settings => .ok settings
  | .error e =>
    if a.setting e.setting = .blank then .error (.blank .number)
    else .error (.usage (.badSetting e))

/-- Loads an image into a new machine. The machine is powered on twice, first
without the image and then with it. -/
def startMachine (first second : Entropy) (a : Arguments) (level : Level) (settings : Settings)
    (image : List UInt8) : Except Refusal Session :=
  let o := (Machine.new settings.seed first {}).load second image
  match o.fault with
  | some fault =>
    .error (.failed level
      (Machine.newNotices.push (programNotice "load" a.program fault.message)))
  | none =>
    .ok
      { settings
        name := (Path.ofText a.program).name
        machine := o.machine
        level
        notices := Machine.newNotices ++ o.notices }

def start (first second : Entropy) (read : Path → Except FileError (List UInt8))
    (a : Arguments) : Except Refusal Session :=
  match a.level with
  | .blank => .error (.blank .level)
  | .written level => do
    let settings ← settingsOf a
    let path := Path.ofText a.program
    match read path with
    | .error .nullCharacter => .error (.impossibleName .nullCharacter)
    | .error e => .error (.failed level #[programNotice "read" a.program (e.message path.text)])
    | .ok image =>
      if a.seed = .blank then .error (.blank .seed)
      else startMachine first second a level settings image

def launch (first second : Entropy) (files : FileTree) (argv : List String) :
    Except Refusal Session :=
  match parse argv with
  | .error .help => .error .help
  | .error (.usage e) => .error (.usage e)
  | .ok a => start first second files.read a

end ChipEight.CommandLine
