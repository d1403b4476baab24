import ChipEight.Desk.State
import ChipEight.Instruction.Assembly

/-!
The registers and the memory on the desk. A refresh shows every register but
the one whose field the user is in. A general register takes the byte that the
user types in hexadecimal; anything else is refused with a warning and the
fields are refreshed.

The memory is a table of 2048 words with their disassembly. The first column
can be edited in hexadecimal, and a dialog edits single bytes. The word at the
program counter has a yellow background.
-/

namespace ChipEight.Desk

def typedByte? (text : String) : Option Int :=
  (Text.readHex? text).filter fun n => 0 ≤ n && n ≤ 255

def refuseByte (d : Desk) : Desk :=
  d.ask (.warning "Invalid Input" "Please enter a hexadecimal byte (00-FF).")

/-- Shows the registers, except in the field that has the focus. -/
def refreshFields (d : Desk) : Desk :=
  let r := d.machine.registers
  { d with
    generalTexts := Vector.ofFn fun k =>
      if d.focus = .field k then d.generalTexts.get k else Text.hex 2 (r.v.get k)
    specialTexts := #v[Text.hex 3 r.index, Text.hex 3 r.pc, Text.decimal r.stack.length,
      Text.hex 2 r.delay, Text.hex 2 r.sound] }

def setRegister (d : Desk) (k : Fin 16) (value : Int) : Desk :=
  { d with machine := { d.machine with registers := d.machine.registers.put k value } }

def setText (d : Desk) (k : Fin 16) (text : String) : Desk :=
  { d with
    generalTexts := Vector.ofFn fun j => if j = k then text else d.generalTexts.get j }

def editField (d : Desk) (k : Fin 16) (text : String) : Desk :=
  let d := d.setText k text
  match typedByte? text with
  | some value => d.setRegister k value
  | none => d.refuseByte.refreshFields

def fieldTexts (d : Desk) : List String := d.generalTexts.toList ++ d.specialTexts.toList

inductive Role where
  | display
  | edit
  | background
  deriving DecidableEq

def Role.ofCode? (code : Int) : Option Role :=
  if code = 0 then some .display
  else if code = 2 then some .edit
  else if code = 8 then some .background
  else none

inductive CellData where
  | nothing
  | text (text : String)
  | yellow
  deriving DecidableEq

inductive Column where
  | word
  | line
  deriving DecidableEq

def tableRows : Nat := 2048

def tableColumns : Nat := 2

def Column.ofNumber? (column : Int) : Option Column :=
  if column = 0 then some .word else if column = 1 then some .line else none

def cell? (row column : Int) : Option (Nat × Column) :=
  if 0 ≤ row ∧ row < tableRows then (Column.ofNumber? column).map (row.toNat, ·) else none

def rowAddress (row : Nat) : Int := 2 * row

def cellText (m : Machine) (row : Nat) (column : Column) : String :=
  let word := m.memory.wordAt (rowAddress row)
  match column with
  | .word => Text.hex 4 word
  | .line => disassemble word

def cellData (d : Desk) (row column role : Int) : CellData :=
  match cell? row column, Role.ofCode? role with
  | some (row, column), some .display => .text (cellText d.machine row column)
  | some (row, column), some .edit => .text (cellText d.machine row column)
  | some (row, _), some .background =>
    if rowAddress row = d.machine.registers.pc then .yellow else .nothing
  | _, _ => .nothing

/-- Every cell can be selected and is enabled; words can be edited too. -/
def cellFlags (row column : Int) : Nat :=
  match cell? row column with
  | some (_, .word) => 1 + 2 + 32
  | _ => 1 + 32

def typedWord? (text : String) : Option Int :=
  (Text.readHex? text).filter fun n => 0 ≤ n && n ≤ 65535

def setWord (d : Desk) (row : Nat) (word : Int) : Desk :=
  let memory := d.machine.memory.writeAll (rowAddress row) [word / 256, word]
  { d with machine := { d.machine with memory } }.ask .wordChanged

/-- The user has typed into a cell: was it taken, and the desk after it. -/
def setCell (d : Desk) (row column role : Int) (text : String) : Bool × Desk :=
  match cell? row column, Role.ofCode? role, typedWord? text with
  | some (row, .word), some .edit, some word => (true, d.setWord row word)
  | _, _, _ => (false, d)

def headings : List String := ["Word", "Instruction"]

inductive HeadingError where
  | noColumn
  | noPlace
  deriving DecidableEq

def HeadingError.message : HeadingError → String
  | noColumn => "list index out of range"
  | noPlace => Index.rejection

/-- The heading of a column. Negative numbers count from the end. -/
def columnHeading (column : Int) : Except HeadingError String :=
  let place := if column < 0 then column + tableColumns else column
  if !Index.fits column then .error .noPlace
  else if place < 0 then .error .noColumn
  else
    match headings[place.toNat]? with
    | some heading => .ok heading
    | none => .error .noColumn

def vertical : Int := 2

def heading (place direction role : Int) : Except HeadingError (Option String) :=
  match Role.ofCode? role with
  | some .display =>
    if direction = vertical then .ok (some (Text.hex 3 (2 * place)))
    else (columnHeading place).map some
  | _ => .ok none

def refreshTable (d : Desk) : Desk := d.ask .tableChanged

def showCurrentWord (d : Desk) : Desk :=
  let row := d.machine.registers.pc / 2
  match cell? row 0 with
  | some _ => d.ask (.scroll row 0)
  | none => d.ask (.scroll (-1) (-1))

def putTypedByte (d : Desk) (address : Int) (text : String) : Desk :=
  match typedByte? text with
  | some value =>
    let memory := d.machine.memory.write address value
    { d with machine := { d.machine with memory } }.refreshTable
  | none => d.refuseByte

/-- Lets the user choose an address and type a byte for it. Both dialogs can
be left without an answer. -/
def askForByte (d : Desk) (address : Option Int) (text : Option String) : Desk :=
  let d := d.ask (.intDialog "Edit Memory" "Enter memory address (0-4095):" 0 0 4095)
  match address with
  | none => d
  | some address =>
    let label := "Enter new value for address " ++ Text.hex 3 address ++ " (hex):"
    let d := d.ask (.textDialog "Edit Memory" label (Text.hex 2 (d.machine.memory.read address)))
    match text with
    | none => d
    | some text => d.putTypedByte address text

end ChipEight.Desk
