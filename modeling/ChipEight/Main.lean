import ChipEight.Desk.Control

/-!
The program: it reads the command line, opens a desk on the machine and shows
each presented frame on the terminal until the machine stops.
-/

namespace ChipEight.Terminal

def fileError : IO.Error → FileError
  | .inappropriateType _ code _ => if code = 20 then .notFolder else .isFolder
  | _ => .notFound

def readImage (path : Path) : IO (Except FileError (List UInt8)) := do
  try
    return .ok (← IO.FS.readBinFile path.text).toList
  catch e => return .error (fileError e)

def entropy : IO Entropy := do
  let bytes ← IO.getRandomBytes 2496
  let byteAt (k : Nat) : UInt32 := (bytes.data.getD k 0).toUInt32
  return ⟨Array.ofFn fun k : Fin 624 =>
    byteAt (4 * k) ||| byteAt (4 * k + 1) <<< 8 ||| byteAt (4 * k + 2) <<< 16 |||
      byteAt (4 * k + 3) <<< 24⟩

def rowText (s : Screen) (y : Nat) : String :=
  String.ofList ((List.range 64).map fun x =>
    if s.lit (Screen.cellAt (x : Nat) (y : Nat)) then '█' else ' ')

def frameText (s : Screen) : String :=
  "\n".intercalate ((List.range 32).map (rowText s)) ++ "\n"

def report (level : Level) (notices : Array Notice) : IO Unit :=
  for notice in notices do
    if notice.passes level then IO.eprintln notice.line

partial def showFrames (level : Level) (d : Desk) : IO Unit := do
  report level d.notices
  if d.running then
    let d := { d with requests := #[], notices := #[] }.frameTimer 1
    if d.requests.contains .repaint then
      IO.print ("\x1b[H" ++ frameText d.frame ++ d.status ++ "\x1b[K\n")
    IO.sleep (UInt32.ofNat d.pacer.interval)
    showFrames level d

def refuse (refusal : CommandLine.Refusal) : IO UInt32 := do
  match refusal with
  | .help => IO.print CommandLine.helpText
  | .usage e => IO.eprint (CommandLine.usageText ++ e.line ++ "\n")
  | .failed level notices => report level notices
  | .impossibleName e => IO.eprintln (e.message "")
  | .blank value => IO.eprintln value.message
  return UInt32.ofNat refusal.exitCode

def run (argv : List String) : IO UInt32 := do
  match CommandLine.parse argv with
  | .error .help => refuse .help
  | .error (.usage e) => refuse (.usage e)
  | .ok a =>
    let image ← readImage (Path.ofText a.program)
    match CommandLine.start (← entropy) (← entropy) (fun _ => image) a with
    | .error refusal => refuse refusal
    | .ok s =>
      showFrames s.level (Desk.ofSession s true)
      return 0

end ChipEight.Terminal

def main (argv : List String) : IO UInt32 :=
  ChipEight.Terminal.run argv
