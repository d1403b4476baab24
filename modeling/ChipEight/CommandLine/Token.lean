import ChipEight.CommandLine.Flag
import ChipEight.Text.Numeral

/-!
The arguments of a command line, sorted before any of them takes effect. An
argument that starts with a dash is a flag if it is the spelling of one, or the
beginning of exactly one spelling; negative numbers and texts with a space are
plain arguments all the same. After a double dash everything is plain.
-/

namespace ChipEight.CommandLine

inductive Attached where
  | nothing
  | value (text : String)
  /-- The text behind a one-letter spelling, with an equals sign in between or
  without. -/
  | letters (text : String)
  deriving DecidableEq

inductive Token where
  | argument (text : String)
  | flag (flag : Flag) (attached : Attached)
  | unknown (text : String)
  | separator
  deriving DecidableEq

def splitAtEquals (text : String) : String × Option String :=
  let cs := text.toList
  let stem := cs.takeWhile (· ≠ '=')
  match cs.dropWhile (· ≠ '=') with
  | [] => (text, none)
  | _ :: value => (String.ofList stem, some (String.ofList value))

def beginsWith (text start : String) : Bool :=
  start.toList.isPrefixOf text.toList

def isDigitRun (cs : List Char) : Bool :=
  !cs.isEmpty && cs.all fun c => (Text.decimalDigit? c).isSome

/-- Does the text look like a negative number, whole or with a point? One line
feed at the end is overlooked. -/
def looksNegative (text : String) : Bool :=
  match text.toList with
  | '-' :: body =>
    let body := if body.getLast? = some '\n' then body.dropLast else body
    isDigitRun body ||
      (match body.dropWhile (· ≠ '.') with
       | '.' :: fraction =>
         (body.takeWhile (· ≠ '.')).all (fun c => (Text.decimalDigit? c).isSome) &&
           isDigitRun fraction
       | _ => false)
  | _ => false

/-- The flags that a text may stand for, with their spellings. A long spelling
may be cut short; a short one may have a text right behind it. -/
def candidates (text : String) : List (String × Flag × Attached) :=
  if beginsWith text "--" then
    let (stem, value) := splitAtEquals text
    (Flag.spellings.filter fun (spelling, _) => beginsWith spelling stem).map
      fun (spelling, flag) => (spelling, flag, value.elim .nothing .value)
  else
    Flag.spellings.filterMap fun (spelling, flag) =>
      if spelling = String.ofList (text.toList.take 2) then
        some (spelling, flag, .letters (String.ofList (text.toList.drop 2)))
      else if beginsWith spelling text then some (spelling, flag, .nothing)
      else none

/-- Sorts a text with a dash in front that is no whole spelling. -/
def tokenOfCandidates (text : String) : Except UsageError Token :=
  match candidates text with
  | [(_, flag, attached)] => .ok (.flag flag attached)
  | [] =>
    if looksNegative text || text.toList.contains ' ' then .ok (.argument text)
    else .ok (.unknown text)
  | several => .error (.ambiguous text (several.map (·.1)))

def tokenOf (text : String) : Except UsageError Token :=
  if !beginsWith text "-" then .ok (.argument text)
  else
    match Flag.spellings.lookup text with
    | some flag => .ok (.flag flag .nothing)
    | none =>
      if text = "-" then .ok (.argument text)
      else
        let (stem, value) := splitAtEquals text
        match value, Flag.spellings.lookup stem with
        | some value, some flag =>
          .ok (.flag flag (if beginsWith stem "--" then .value value else .letters value))
        | _, _ => tokenOfCandidates text

def tokens : List String → Except UsageError (List Token)
  | [] => .ok []
  | text :: rest =>
    if text = "--" then .ok (.separator :: rest.map .argument)
    else do
      let token ← tokenOf text
      return token :: (← tokens rest)

end ChipEight.CommandLine
