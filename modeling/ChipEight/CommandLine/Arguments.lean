import ChipEight.CommandLine.Token
import ChipEight.Text.Numeral

/-!
From sorted arguments to what the user asked for. The arguments take effect
from left to right: the first plain one is the program, the last of a repeated
flag counts, and a call for help or a bad value ends the reading on the spot.
A double dash as a value leaves the flag blank, which nobody minds until the
value is needed. What nobody asked for is reported at the end, after a missing
program.
-/

namespace ChipEight.CommandLine

/-- The value of a flag, which may have been left blank. -/
inductive Value (α : Type) where
  | blank
  | written (value : α)
  deriving DecidableEq

namespace Value

def getD {α : Type} (v : Value α) (other : α) : α :=
  match v with
  | blank => other
  | written value => value

end Value

structure Arguments where
  program : String
  instructionRate : Value Int
  frameRate : Value Int
  scale : Value Int
  seed : Value (Option Int)
  level : Value Level
  deriving DecidableEq

inductive Stop where
  | help
  | usage (error : UsageError)
  deriving DecidableEq

structure Reading where
  program : Option String := none
  instructionRate : Value Int := .written Settings.defaultInstructionRate
  frameRate : Value Int := .written Settings.defaultFrameRate
  scale : Value Int := .written Settings.defaultScale
  seed : Value (Option Int) := .written none
  level : Value Level := .written .warning
  leftover : List String := []
  deriving DecidableEq

namespace Reading

def leave (r : Reading) (texts : List String) : Reading :=
  { r with leftover := r.leftover ++ texts }

/-- The value in a text, given what the text means if it is not a double dash. -/
def valueOf {α : Type} (text : String) (meaning : Except Stop α) : Except Stop (Value α) :=
  if text = "--" then .ok .blank else meaning.map .written

def wholeNumber (flag : Flag) (text : String) : Except Stop Int :=
  match Text.readDecimal? text with
  | some n => .ok n
  | none => .error (.usage (.badInteger flag text))

def levelNamed (text : String) : Except Stop Level :=
  match Level.ofName? text with
  | some level => .ok level
  | none => .error (.usage (.badLevel text))

def take (r : Reading) (flag : Flag) (text : String) : Except Stop Reading := do
  match flag with
  | .help => throw (.usage (.ignoredValue .help text))
  | .instructionRate =>
    return { r with instructionRate := ← valueOf text (wholeNumber flag text) }
  | .frameRate => return { r with frameRate := ← valueOf text (wholeNumber flag text) }
  | .scale => return { r with scale := ← valueOf text (wholeNumber flag text) }
  | .seed => return { r with seed := ← valueOf text ((wholeNumber flag text).map some) }
  | .logLevel => return { r with level := ← valueOf text (levelNamed text) }

end Reading

/-- The letters behind a one-letter call for help. Each may call for help once
more; from the first that does not, they are a value, which is refused. -/
def helpCluster : List Char → Stop
  | ['h'] => .help
  | 'h' :: rest => helpCluster rest
  | letters => .usage (.ignoredValue .help (String.ofList letters))

/-- Reads the arguments from left to right. A separator next to the program is
taken with it. -/
def readTokens (r : Reading) : List Token → Except Stop Reading
  | [] => .ok r
  | .argument text :: .separator :: rest =>
    match r.program with
    | none => readTokens { r with program := some text } rest
    | some _ => readTokens (r.leave [text, "--"]) rest
  | .argument text :: rest =>
    match r.program with
    | none => readTokens { r with program := some text } rest
    | some _ => readTokens (r.leave [text]) rest
  | .separator :: .argument text :: rest =>
    match r.program with
    | none => readTokens { r with program := some text } rest
    | some _ => readTokens (r.leave ["--", text]) rest
  | .separator :: rest => readTokens (r.leave ["--"]) rest
  | .unknown text :: rest => readTokens (r.leave [text]) rest
  | .flag .help .nothing :: _ => .error .help
  | .flag .help (.letters text) :: _ => .error (helpCluster text.toList)
  | .flag flag (.value text) :: rest => do readTokens (← r.take flag text) rest
  | .flag flag (.letters text) :: rest => do readTokens (← r.take flag text) rest
  | .flag flag .nothing :: .argument value :: rest => do readTokens (← r.take flag value) rest
  | .flag flag .nothing :: _ => .error (.usage (.missingValue flag))

def Reading.finish (r : Reading) : Except Stop Arguments :=
  match r.program with
  | none => .error (.usage .missingProgram)
  | some program =>
    if r.leftover.isEmpty then
      .ok
        { program
          instructionRate := r.instructionRate
          frameRate := r.frameRate
          scale := r.scale
          seed := r.seed
          level := r.level }
    else .error (.usage (.unrecognized r.leftover))

def parse (argv : List String) : Except Stop Arguments :=
  match tokens argv with
  | .error e => .error (.usage e)
  | .ok ts => do (← readTokens {} ts).finish

end ChipEight.CommandLine
