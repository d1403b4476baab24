import ChipEight.Host.Settings
import ChipEight.Machine.Notice
import ChipEight.Text.Quoted

/-!
The flags of the command line, how they are spelled, and the complaints about
a command line that cannot be used.
-/

namespace ChipEight.CommandLine

/-- A flag. All but the call for help take a value. -/
inductive Flag where
  | help
  | instructionRate
  | frameRate
  | scale
  | seed
  | logLevel
  deriving DecidableEq

namespace Flag

/-- The spellings of the flags, in the order in which they are offered. -/
def spellings : List (String × Flag) :=
  [("-h", help), ("--help", help), ("--cpu-hz", instructionRate), ("--timer-hz", frameRate),
   ("--scale", scale), ("--seed", seed), ("--log-level", logLevel)]

def label : Flag → String
  | help => "-h/--help"
  | instructionRate => "--cpu-hz"
  | frameRate => "--timer-hz"
  | scale => "--scale"
  | seed => "--seed"
  | logLevel => "--log-level"

end Flag

inductive UsageError where
  | ambiguous (given : String) (options : List String)
  | ignoredValue (flag : Flag) (value : String)
  | missingValue (flag : Flag)
  | badInteger (flag : Flag) (value : String)
  | badLevel (value : String)
  | missingProgram
  | unrecognized (arguments : List String)
  | badSetting (error : SettingError)
  deriving DecidableEq

namespace UsageError

def about (flag : Flag) (complaint : String) : String :=
  "argument " ++ flag.label ++ ": " ++ complaint

def message : UsageError → String
  | ambiguous given options =>
    "ambiguous option: " ++ given ++ " could match " ++ ", ".intercalate options
  | ignoredValue flag value => about flag ("ignored explicit argument " ++ Text.quoted value)
  | missingValue flag => about flag "expected one argument"
  | badInteger flag value => about flag ("invalid int value: " ++ Text.quoted value)
  | badLevel value =>
    about .logLevel ("invalid choice: " ++ Text.quoted value ++ " (choose from " ++
      ", ".intercalate (Level.all.map fun level => Text.quoted level.name) ++ ")")
  | missingProgram => "the following arguments are required: rom"
  | unrecognized arguments => "unrecognized arguments: " ++ " ".intercalate arguments
  | badSetting error => error.message

def line (e : UsageError) : String := "main.py: error: " ++ e.message

end UsageError

inductive BlankValue where
  | number
  | seed
  | level
  deriving DecidableEq

def BlankValue.message : BlankValue → String
  | number => "'<=' not supported between instances of 'list' and 'int'"
  | seed => "The only supported seed types are: None,\nint, float, str, bytes, and bytearray."
  | level => "Level not an integer or a valid string: []"

end ChipEight.CommandLine
