import ChipEight.Desk.Inspection
import ChipEight.Proofs.Desk.Frame
import ChipEight.Proofs.Machine.ByteArithmetic
import ChipEight.Proofs.Machine.Memory
import ChipEight.Proofs.Machine.WellFormed
import ChipEight.Proofs.Text.Hexadecimal

/-!
What users type into the desk. A word of the memory table, a byte of memory and a
general register are each edited in a way of its own, and all three are exact or
without effect (`ExactOrNothing`): a text is taken just if it spells a number that
fits, and then that number is stored and nothing else changes. What the desk shows
can be typed in again and changes nothing.
-/

namespace ChipEight

/-- The text spells a number from zero up to the limit. -/
def Text.SpellsUpTo (limit : Int) (text : String) (n : Int) : Prop :=
  Spells text n ∧ 0 ≤ n ∧ n ≤ limit

namespace Memory

/-- One byte took a value. -/
structure ByteReplaced (m : Memory) (address value : Int) (m' : Memory) : Prop where
  value : (m'.read address : Int) = value
  others : ∀ other : Int, other % 4096 ≠ address % 4096 → m'.read other = m.read other

/-- The two bytes of a word took a value, high byte first. -/
structure WordReplaced (m : Memory) (address value : Int) (m' : Memory) : Prop where
  high : (m'.read address : Int) = value / 256
  low : (m'.read (address + 1) : Int) = value % 256
  others : ∀ other : Int, other % 4096 ≠ address % 4096 → other % 4096 ≠ (address + 1) % 4096 →
    m'.read other = m.read other

theorem write_replaced (m : Memory) (address : Int) {value : Int} (h : 0 ≤ value ∧ value ≤ 255) :
    m.ByteReplaced address value (m.write address value) := by
  constructor
  · rw [read_write_eq, if_pos rfl, lowByte_eq]
    omega
  · intro other hother
    rw [read_write_eq, if_neg hother.symm]

theorem writeAll_replaced (m : Memory) (address : Int) {value : Int}
    (h : 0 ≤ value ∧ value ≤ 65535) :
    m.WordReplaced address value (m.writeAll address [value / 256, value]) := by
  have hbyte {j : Nat} {byte : Int} (hj : [value / 256, value][j]? = some byte) :=
    m.read_writeAll_of_getElem? address (by simp) hj
  have hhigh := @hbyte 0 _ rfl
  have hlow := @hbyte 1 _ rfl
  rw [Int.natCast_zero, Int.add_zero] at hhigh
  refine ⟨?_, ?_, ?_⟩
  · rw [hhigh, lowByte_eq]
    omega
  · exact (congrArg Int.ofNat hlow).trans (lowByte_eq value)
  · intro other hfirst hsecond
    rcases m.read_writeAll address other [value / 256, value] with hkept | ⟨j, hj, hsame⟩
    · exact hkept
    · have hplaces : j = 0 ∨ j = 1 := by
        rw [List.length_cons, List.length_singleton] at hj
        omega
      rcases hplaces with rfl | rfl
      · exact absurd (by simpa using hsame) hfirst
      · exact absurd hsame hsecond

/-- To store what is there changes nothing. -/
theorem ByteReplaced.eq_self {m m' : Memory} {address : Int}
    (h : m.ByteReplaced address (m.read address) m') : m' = m := by
  apply eq_of_read
  intro other
  by_cases hsame : other % 4096 = address % 4096
  · have hvalue := h.value
    rw [m'.read_congr hsame, m.read_congr hsame]
    omega
  · exact h.others other hsame

theorem WordReplaced.eq_self {m m' : Memory} {address : Int}
    (h : m.WordReplaced address (m.wordAt address) m') : m' = m := by
  have hword : m.wordAt address = 256 * m.read address + m.read (address + 1) := rfl
  have hhigh := h.high
  have hlow := h.low
  have hbyte := m.read_lt (address + 1)
  apply eq_of_read
  intro other
  by_cases hfirst : other % 4096 = address % 4096
  · rw [m'.read_congr hfirst, m.read_congr hfirst]
    omega
  by_cases hsecond : other % 4096 = (address + 1) % 4096
  · rw [m'.read_congr hsecond, m.read_congr hsecond]
    omega
  · exact h.others other hfirst hsecond

theorem WordReplaced.wordAt_of_ne {m m' : Memory} {row other : Nat} {value : Int}
    (h : m.WordReplaced (2 * row) value m') (hrow : row < 2048) (hother : other < 2048)
    (hne : other ≠ row) : m'.wordAt (2 * other) = m.wordAt (2 * other) := by
  rw [wordAt, wordAt, h.others (2 * other) (by omega) (by omega),
    h.others (2 * other + 1) (by omega) (by omega)]

theorem WordReplaced.wordAt_eq {m m' : Memory} {address value : Int}
    (h : m.WordReplaced address value m') : (m'.wordAt address : Int) = value := by
  have hhigh := h.high
  have hlow := h.low
  rw [wordAt]
  omega

end Memory

theorem Registers.Replaced.eq_self {r r' : Registers} {k : Fin 16}
    (h : r.Replaced k (r.v.get k) r') : r' = r := by
  have hvalues : r'.v = r.v := by
    apply Vector.ext
    intro j hj
    by_cases hsame : (⟨j, hj⟩ : Fin 16) = k
    · have hvalue := h.value
      rw [← hsame] at hvalue
      exact hvalue
    · exact h.others ⟨j, hj⟩ hsame
  rw [h.rest, hvalues]

/-- Does the request warn the user? -/
def Request.isWarning : Request → Bool
  | .warning _ _ => true
  | _ => false

/-- The warning that a text is no byte. -/
def Request.noByte : Request :=
  .warning "Invalid Input" "Please enter a hexadecimal byte (00-FF)."

namespace Desk

open Text

/-- The warnings that the user was shown. -/
def warnings (d : Desk) : List Request := d.requests.toList.filter Request.isWarning

/-- A word of the table took a value. -/
structure WordEdited (d : Desk) (row : Fin 2048) (d' : Desk) (value : Int) : Prop where
  memory : d.machine.memory.WordReplaced (2 * row.val) value d'.machine.memory
  rest : d'.machine = { d.machine with memory := d'.machine.memory }
  shown : d'.cellData row.val 0 0 = .text (placeText 4 value.toNat)
  others : ∀ other column role : Int, other ≠ row.val →
    d'.cellData other column role = d.cellData other column role

/-- A byte of memory took a value. -/
structure ByteEdited (d : Desk) (address : Int) (d' : Desk) (value : Int) : Prop where
  memory : d.machine.memory.ByteReplaced address value d'.machine.memory
  rest : d'.machine = { d.machine with memory := d'.machine.memory }

/-- A general register took a value. -/
structure RegisterEdited (d : Desk) (k : Fin 16) (d' : Desk) (value : Int) : Prop where
  registers : d.machine.registers.Replaced k value d'.machine.registers
  rest : d'.machine = { d.machine with registers := d'.machine.registers }

/-- A text is taken just if it spells a number up to the limit. The number is then
stored; otherwise the machine is left as it was. -/
structure ExactOrNothing (limit : Int) (text : String) (taken : Prop) (d d' : Desk)
    (Stored : Desk → Int → Prop) : Prop where
  taken_iff : taken ↔ ∃ n, SpellsUpTo limit text n
  stored : ∀ n, SpellsUpTo limit text n → Stored d' n
  untouched : ¬taken → d'.machine = d.machine

theorem WordEdited.machine_eq {d d' : Desk} {row : Fin 2048}
    (h : d.WordEdited row d' (d.machine.memory.wordAt (2 * row.val))) :
    d'.machine = d.machine := by
  rw [h.rest, h.memory.eq_self]

theorem ByteEdited.machine_eq {d d' : Desk} {address : Int}
    (h : d.ByteEdited address d' (d.machine.memory.read address)) : d'.machine = d.machine := by
  rw [h.rest, h.memory.eq_self]

theorem RegisterEdited.machine_eq {d d' : Desk} {k : Fin 16}
    (h : d.RegisterEdited k d' (d.machine.registers.v.get k)) : d'.machine = d.machine := by
  rw [h.rest, h.registers.eq_self]

section ExactOrNothing

variable {limit : Int} {text : String} {taken : Prop} {d d' : Desk} {Stored : Desk → Int → Prop}

theorem ExactOrNothing.of_cases (hspells : ∀ n, SpellsUpTo limit text n → taken ∧ Stored d' n)
    (hnone : (¬∃ n, SpellsUpTo limit text n) → ¬taken ∧ d'.machine = d.machine) :
    ExactOrNothing limit text taken d d' Stored where
  taken_iff := by
    constructor
    · intro htaken
      apply Classical.byContradiction
      intro hno
      exact (hnone hno).1 htaken
    · rintro ⟨n, hn⟩
      exact (hspells n hn).1
  stored := fun n hn => (hspells n hn).2
  untouched := by
    intro huntaken
    apply And.right
    apply hnone
    rintro ⟨n, hn⟩
    exact huntaken (hspells n hn).1

/-- A number whose storing changes nothing may be typed in. -/
theorem ExactOrNothing.unchanged (h : ExactOrNothing limit text taken d d' Stored) {n : Int}
    (hn : SpellsUpTo limit text n) (hsame : Stored d' n → d'.machine = d.machine) :
    taken ∧ d'.machine = d.machine :=
  ⟨h.taken_iff.mpr ⟨n, hn⟩, hsame (h.stored n hn)⟩

end ExactOrNothing

theorem spellsUpTo_hex {limit n : Int} (width : Nat) (h : 0 ≤ n ∧ n ≤ limit) :
    SpellsUpTo limit (hex width n) n := ⟨spells_hex width n, h⟩

theorem warnings_ask (d : Desk) (request : Request) :
    (d.ask request).warnings = d.warnings ++ [request].filter Request.isWarning := by
  simp only [warnings, ask, Array.toList_push, List.filter_append]

theorem filter_readHex?_eq_some_iff {limit : Int} {text : String} {n : Int} :
    ((readHex? text).filter fun n => 0 ≤ n && n ≤ limit) = some n ↔ SpellsUpTo limit text n := by
  rw [Option.filter_eq_some_iff, readHex?_eq_some_iff]
  simp [SpellsUpTo]

theorem filter_readHex?_eq_none_iff {limit : Int} {text : String} :
    ((readHex? text).filter fun n => 0 ≤ n && n ≤ limit) = none ↔
      ¬∃ n, SpellsUpTo limit text n := by
  rw [Option.eq_none_iff_forall_ne_some, not_exists]
  exact forall_congr' fun n => not_congr filter_readHex?_eq_some_iff

section Table

variable (d : Desk) (row : Fin 2048)

theorem cell?_row : cell? row.val 0 = some (row.val, .word) := by
  have hrow := row.isLt
  rw [cell?, if_pos (by unfold tableRows; omega)]
  rfl

theorem setCell_of_spells {text : String} {n : Int} (h : SpellsUpTo 0xFFFF text n) :
    d.setCell row.val 0 2 text = (true, d.setWord row.val n) := by
  rw [setCell, cell?_row, typedWord?, filter_readHex?_eq_some_iff.mpr h]
  rfl

theorem setCell_of_not_spells {text : String} (h : ¬∃ n, SpellsUpTo 0xFFFF text n) :
    d.setCell row.val 0 2 text = (false, d) := by
  rw [setCell, cell?_row, typedWord?, filter_readHex?_eq_none_iff.mpr h]
  rfl

theorem cellData_row :
    d.cellData row.val 0 0 = .text (hex 4 (d.machine.memory.wordAt (2 * row.val))) := by
  rw [cellData, cell?_row]
  rfl

theorem setWord_replaced {word : Int} (h : 0 ≤ word ∧ word ≤ 0xFFFF) :
    d.machine.memory.WordReplaced (2 * row.val) word (d.setWord row.val word).machine.memory :=
  Memory.writeAll_replaced d.machine.memory (2 * row.val) h

theorem cellData_setWord {word : Int} (h : 0 ≤ word ∧ word ≤ 0xFFFF) {other : Int}
    (hother : other ≠ row.val) (column role : Int) :
    (d.setWord row.val word).cellData other column role = d.cellData other column role := by
  have hpc : (d.setWord row.val word).machine.registers.pc = d.machine.registers.pc := rfl
  unfold cellData
  rw [hpc]
  cases hcell : cell? other column with
  | none => rfl
  | some place =>
      obtain ⟨r, column⟩ := place
      -- A cell of the table lies in the row that it was asked for.
      have hr : r < 2048 ∧ r ≠ row.val := by
        unfold cell? tableRows at hcell
        split at hcell
        · simp only [Option.map_eq_some_iff, Prod.mk.injEq] at hcell
          obtain ⟨-, -, hr, -⟩ := hcell
          omega
        · cases hcell
      have htext : cellText (d.setWord row.val word).machine r column =
          cellText d.machine r column := by
        have hkept := (d.setWord_replaced row h).wordAt_of_ne row.isLt hr.1 hr.2
        simp only [cellText, rowAddress, hkept]
      cases Role.ofCode? role with
      | none => rfl
      | some role =>
          cases role with
          | display => exact congrArg CellData.text htext
          | edit => exact congrArg CellData.text htext
          | background => rfl

theorem setCell_exactOrNothing (text : String) :
    ExactOrNothing 0xFFFF text ((d.setCell row.val 0 2 text).1 = true) d
      (d.setCell row.val 0 2 text).2 (d.WordEdited row) := by
  apply ExactOrNothing.of_cases
  · intro n hn
    rw [d.setCell_of_spells row hn]
    have hput := d.setWord_replaced row hn.2
    refine ⟨rfl, hput, rfl, ?_, ?_⟩
    · rw [cellData_row, hput.wordAt_eq, hex_eq_placeText_of_le (by decide) hn.2]
    · intro other column role hother
      exact d.cellData_setWord row hn.2 hother column role
  · intro hnone
    rw [d.setCell_of_not_spells row hnone]
    exact ⟨Bool.false_ne_true, rfl⟩

end Table

section Fields

variable (d : Desk) (k : Fin 16)

theorem editField_of_spells {text : String} {n : Int} (h : SpellsUpTo 0xFF text n) :
    d.editField k text = (d.setText k text).setRegister k n := by
  rw [editField, typedByte?, filter_readHex?_eq_some_iff.mpr h]

theorem editField_of_not_spells {text : String} (h : ¬∃ n, SpellsUpTo 0xFF text n) :
    d.editField k text = (d.setText k text).refuseByte.refreshFields := by
  rw [editField, typedByte?, filter_readHex?_eq_none_iff.mpr h]

@[simp] theorem machine_setText (text : String) : (d.setText k text).machine = d.machine := by
  simp only [setText]

@[simp] theorem focus_setText (text : String) : (d.setText k text).focus = d.focus := by
  simp only [setText]

@[simp] theorem warnings_setText (text : String) : (d.setText k text).warnings = d.warnings := by
  simp only [warnings, setText]

@[simp] theorem machine_refreshFields : d.refreshFields.machine = d.machine := by
  simp only [refreshFields]

@[simp] theorem focus_refreshFields : d.refreshFields.focus = d.focus := by
  simp only [refreshFields]

@[simp] theorem warnings_refreshFields : d.refreshFields.warnings = d.warnings := by
  simp only [warnings, refreshFields]

@[simp] theorem machine_refuseByte : d.refuseByte.machine = d.machine := rfl

@[simp] theorem focus_refuseByte : d.refuseByte.focus = d.focus := rfl

@[simp] theorem warnings_refuseByte : d.refuseByte.warnings = d.warnings ++ [Request.noByte] :=
  d.warnings_ask .noByte

theorem get_ofFn (f : Fin 16 → String) : (Vector.ofFn f).get k = f k := by
  change (Vector.ofFn f)[k.val] = f k
  rw [Vector.getElem_ofFn]

theorem generalTexts_setText (text : String) (j : Fin 16) :
    (d.setText k text).generalTexts.get j = if j = k then text else d.generalTexts.get j :=
  get_ofFn j _

theorem generalTexts_refreshFields :
    d.refreshFields.generalTexts.get k =
      if d.focus = .field k then d.generalTexts.get k
      else Text.hex 2 (d.machine.registers.v.get k) :=
  get_ofFn k _

theorem editField_exactOrNothing (text : String) :
    ExactOrNothing 0xFF text ((d.editField k text).warnings = d.warnings) d (d.editField k text)
      (d.RegisterEdited k) := by
  apply ExactOrNothing.of_cases
  · intro n hn
    rw [d.editField_of_spells k hn]
    obtain ⟨byte, rfl⟩ := Int.eq_ofNat_of_zero_le hn.2.1
    have hbyte : byte < 256 := by
      have hlimit := hn.2.2
      omega
    exact ⟨rfl, Registers.put_replaced d.machine.registers k hbyte, rfl⟩
  · intro hnone
    rw [d.editField_of_not_spells k hnone, warnings_refreshFields, warnings_refuseByte,
      warnings_setText, machine_refreshFields, machine_refuseByte, machine_setText]
    exact ⟨by simp, rfl⟩

/-- A field that shows its register may be typed in again. -/
theorem editField_of_shown
    (hvalue : 0 ≤ d.machine.registers.v.get k ∧ d.machine.registers.v.get k ≤ 0xFF)
    (hshown : d.generalTexts.get k = hex 2 (d.machine.registers.v.get k)) :
    (d.editField k (d.generalTexts.get k)).warnings = d.warnings ∧
      (d.editField k (d.generalTexts.get k)).machine = d.machine := by
  have hspells := spellsUpTo_hex 2 hvalue
  rw [← hshown] at hspells
  exact (d.editField_exactOrNothing k _).unchanged hspells RegisterEdited.machine_eq

end Fields

section Bytes

variable (d : Desk) (address : Int)

theorem putTypedByte_of_spells {text : String} {n : Int} (h : SpellsUpTo 0xFF text n) :
    d.putTypedByte address text =
      { d with machine := { d.machine with
        memory := d.machine.memory.write address n } }.refreshTable := by
  rw [putTypedByte, typedByte?, filter_readHex?_eq_some_iff.mpr h]

theorem putTypedByte_of_not_spells {text : String} (h : ¬∃ n, SpellsUpTo 0xFF text n) :
    d.putTypedByte address text = d.refuseByte := by
  rw [putTypedByte, typedByte?, filter_readHex?_eq_none_iff.mpr h]

theorem warnings_refreshTable : d.refreshTable.warnings = d.warnings := by
  rw [refreshTable, warnings_ask]
  exact List.append_nil _

/-- The byte is put after both dialogs. -/
theorem askForByte_eq (text : String) :
    d.askForByte (some address) (some text) =
      (d.askForByte (some address) none).putTypedByte address text := rfl

theorem warnings_prompt : (d.askForByte (some address) none).warnings = d.warnings := by
  simp [askForByte, warnings_ask, Request.isWarning]

theorem askForByte_exactOrNothing (text : String) :
    ExactOrNothing 0xFF text ((d.askForByte (some address) (some text)).warnings = d.warnings) d
      (d.askForByte (some address) (some text)) (d.ByteEdited address) := by
  apply ExactOrNothing.of_cases
  · intro n hn
    rw [askForByte_eq, putTypedByte_of_spells _ address hn, warnings_refreshTable]
    exact ⟨d.warnings_prompt address, d.machine.memory.write_replaced address hn.2, rfl⟩
  · intro hnone
    rw [askForByte_eq, putTypedByte_of_not_spells _ address hnone, warnings_refuseByte,
      warnings_prompt]
    exact ⟨by simp, rfl⟩

theorem prompt_shows : ∃ label : String,
    (d.askForByte (some address) none).requests.back? =
      some (.textDialog "Edit Memory" label (hex 2 (d.machine.memory.read address))) :=
  ⟨_, Array.back?_push⟩

end Bytes

/-- Each of the three edits takes the texts that spell a number of its size, stores
that number where it was edited and nowhere else, and leaves the machine alone for
all other texts. The table shows a word with four digits. What the table, a field
that was refreshed, or the prompt for a byte shows is taken and changes nothing. -/
theorem edits_are_exact_or_without_effect (d : Desk) (text : String) :
    (∀ row : Fin 2048,
      let taken := (d.setCell row.val 0 2 text).1 = true
      let d' := (d.setCell row.val 0 2 text).2
      ExactOrNothing 0xFFFF text taken d d' (d.WordEdited row) ∧
      (d.cellData row.val 0 0 = .text text → taken ∧ d'.machine = d.machine)) ∧
    (∀ k : Fin 16,
      let d' := d.editField k text
      ExactOrNothing 0xFF text (d'.warnings = d.warnings) d d' (d.RegisterEdited k)) ∧
    (∀ (k : Fin 16) (focus : Focus), d.focus ≠ .field k →
      0 ≤ d.machine.registers.v.get k ∧ d.machine.registers.v.get k ≤ 0xFF →
      let shown := { d.refreshFields with focus }
      let d' := shown.editField k (shown.generalTexts.get k)
      d'.warnings = d.warnings ∧ d'.machine = d.machine) ∧
    (∀ address : Int,
      let d' := d.askForByte (some address) (some text)
      ExactOrNothing 0xFF text (d'.warnings = d.warnings) d d' (d.ByteEdited address) ∧
      ∀ title label : String,
        (d.askForByte (some address) none).requests.back? =
          some (.textDialog title label text) →
        d'.warnings = d.warnings ∧ d'.machine = d.machine) := by
  refine ⟨fun row => ⟨d.setCell_exactOrNothing row text, ?_⟩,
    fun k => d.editField_exactOrNothing k text, ?_,
    fun address => ⟨d.askForByte_exactOrNothing address text, ?_⟩⟩
  · intro hshown
    have hword := d.machine.memory.wordAt_lt (2 * row.val)
    rw [cellData_row, CellData.text.injEq] at hshown
    rw [← hshown]
    exact (d.setCell_exactOrNothing row _).unchanged (spellsUpTo_hex 4 (by omega))
      WordEdited.machine_eq
  · intro k focus hfocus hvalue shown d'
    have hmachine : shown.machine = d.machine := by simp only [shown, refreshFields]
    have hwarnings : shown.warnings = d.warnings := by simp only [shown, refreshFields, warnings]
    have hshown : shown.generalTexts.get k = hex 2 (shown.machine.registers.v.get k) := by
      change d.refreshFields.generalTexts.get k = _
      rw [generalTexts_refreshFields, if_neg hfocus, hmachine]
    rw [← hmachine] at hvalue ⊢
    rw [← hwarnings]
    exact shown.editField_of_shown k hvalue hshown
  · intro title label hprompt
    have hbyte := d.machine.memory.read_lt address
    obtain ⟨label', hshown⟩ := d.prompt_shows address
    rw [hshown, Option.some.injEq, Request.textDialog.injEq] at hprompt
    rw [← hprompt.2.2]
    exact (d.askForByte_exactOrNothing address _).unchanged (spellsUpTo_hex 2 (by omega))
      ByteEdited.machine_eq

/-- A desk with a new machine. -/
def newDesk (focus : Focus) : Desk :=
  { ofMachine (.ofRates 1 1 Nat.one_pos Nat.one_pos) (.new none ⟨#[1]⟩ {}) plainTitle with focus }

theorem newDesk_value (focus : Focus) (k : Fin 16) :
    0 ≤ (newDesk focus).machine.registers.v.get k ∧
      (newDesk focus).machine.registers.v.get k ≤ 0xFF :=
  Registers.initial_inRange.values k

/-- A text with everything in it goes into the last word of memory, is too large for
a byte, and what a refreshed field shows goes back when the user enters the field. -/
theorem lastWord_takes_marked_text :
    let d := newDesk .nothing
    let text := "\t+0X_1_fF "
    let row : Fin 2048 := Fin.last 2047
    let d' := (d.setCell row.val 0 2 text).2
    SpellsUpTo 0xFFFF text 0x1FF ∧ (d'.machine.memory.read 4094 : Int) = 1 ∧
      (d'.machine.memory.read 4095 : Int) = 0xFF ∧
      d'.cellData row.val 0 0 = .text "01FF" ∧
      ¬(∃ n, SpellsUpTo 0xFF text n) ∧ (d.askForByte (some 4095) (some text)).machine = d.machine ∧
      ∀ k : Fin 16, d.focus ≠ .field k ∧
        let shown := { d.refreshFields with focus := .field k }
        (shown.editField k (shown.generalTexts.get k)).machine = d.machine := by
  have hspells : SpellsUpTo 0xFFFF "\t+0X_1_fF " 0x1FF :=
    filter_readHex?_eq_some_iff.mp (by decide)
  have hlarge : ¬∃ n, SpellsUpTo 0xFF "\t+0X_1_fF " n :=
    filter_readHex?_eq_none_iff.mp (by decide)
  have htext : placeText 4 (0x1FF : Int).toNat = "01FF" := by decide
  have hvalue := newDesk_value .nothing
  have hleft (k : Fin 16) : (newDesk .nothing).focus ≠ .field k := Focus.noConfusion
  generalize newDesk .nothing = d at hvalue hleft ⊢
  generalize "\t+0X_1_fF " = text at hspells hlarge ⊢
  obtain ⟨hwords, -, hfields, hbytes⟩ := edits_are_exact_or_without_effect d text
  have hword := (hwords (Fin.last 2047)).1.stored _ hspells
  have hbyte := (hbytes 4095).1
  rw [← htext]
  refine ⟨hspells, hword.memory.high, hword.memory.low, hword.shown, hlarge, ?_, ?_⟩
  · apply hbyte.untouched
    rw [hbyte.taken_iff]
    exact hlarge
  · intro k
    exact ⟨hleft k, (hfields k (.field k) (hleft k) (hvalue k)).2⟩

/-- The user is done with a field, and the text that it shows is typed in. -/
def finishField (d : Desk) (k : Fin 16) : Desk := d.editField k (d.generalTexts.get k)

/-- The user is done with a field so many times over. -/
def finishFieldTimes (d : Desk) (k : Fin 16) : Nat → Desk
  | 0 => d
  | n + 1 => (d.finishField k).finishFieldTimes k n

section Refused

variable {d : Desk} {k : Fin 16} {text : String} (hrefused : ¬∃ n, SpellsUpTo 0xFF text n)

include hrefused

theorem editField_of_refused :
    (d.editField k text).machine = d.machine ∧ (d.editField k text).focus = d.focus ∧
      (d.editField k text).warnings = d.warnings ++ [Request.noByte] ∧
      (d.editField k text).generalTexts.get k =
        if d.focus = .field k then text else hex 2 (d.machine.registers.v.get k) := by
  have htyped : (d.setText k text).refuseByte.generalTexts.get k = text := by
    change (d.setText k text).generalTexts.get k = text
    rw [generalTexts_setText, if_pos rfl]
  rw [d.editField_of_not_spells k hrefused]
  refine ⟨by simp, by simp, by simp, ?_⟩
  rw [generalTexts_refreshFields, htyped, focus_refuseByte, focus_setText, machine_refuseByte,
    machine_setText]

/-- In a field that keeps the focus a refused text stays, however often the user is
done with it, and the user is warned each time. -/
theorem finishFieldTimes_of_focus (hfocus : d.focus = .field k)
    (hshown : d.generalTexts.get k = text) (n : Nat) :
    (d.finishFieldTimes k n).machine = d.machine ∧
      (d.finishFieldTimes k n).generalTexts.get k = text ∧
      (d.finishFieldTimes k n).warnings = d.warnings ++ List.replicate n Request.noByte := by
  induction n generalizing d with
  | zero => exact ⟨rfl, hshown, (List.append_nil _).symm⟩
  | succ n ih =>
      obtain ⟨hmachine, hkept, hwarned, htext⟩ := @editField_of_refused d k text hrefused
      rw [if_pos hfocus] at htext
      rw [finishFieldTimes, finishField, hshown]
      obtain ⟨hmachine', htext', hwarned'⟩ := ih (hkept.trans hfocus) htext
      refine ⟨hmachine'.trans hmachine, htext', ?_⟩
      rw [hwarned', hwarned, List.append_assoc, List.replicate_succ, List.singleton_append]

end Refused

/-- A text that is refused leaves the machine alone. The field shows its register
again, so that it can be left without another warning, just if it does not have the
focus. A field with the focus keeps the text and is refused again each time. -/
theorem refused_text_is_reset_iff_unfocused (d : Desk) (k : Fin 16) (text : String)
    (hrefused : ¬∃ n, SpellsUpTo 0xFF text n)
    (hvalue : 0 ≤ d.machine.registers.v.get k ∧ d.machine.registers.v.get k ≤ 0xFF) :
    let d' := d.editField k text
    d'.machine = d.machine ∧ (d'.finishField k).machine = d.machine ∧
    (d'.generalTexts.get k = placeText 2 (d.machine.registers.v.get k).toNat ↔
      d.focus ≠ .field k) ∧
    ((d'.finishField k).warnings = d'.warnings ↔ d.focus ≠ .field k) ∧
    (d.focus = .field k → ∀ n,
      (d'.finishFieldTimes k n).machine = d.machine ∧
      (d'.finishFieldTimes k n).generalTexts.get k = text ∧
      (d'.finishFieldTimes k n).warnings = d'.warnings ++ List.replicate n Request.noByte) := by
  intro d'
  obtain ⟨hmachine, hkept, -, htext⟩ := @editField_of_refused d k text hrefused
  change d'.machine = d.machine at hmachine
  change d'.focus = d.focus at hkept
  change d'.generalTexts.get k = _ at htext
  have hplaces : placeText 2 (d.machine.registers.v.get k).toNat =
      hex 2 (d.machine.registers.v.get k) :=
    (hex_eq_placeText_of_le (by decide) hvalue).symm
  -- The shown register is a byte, so it is not the text that was refused.
  have hother : text ≠ hex 2 (d.machine.registers.v.get k) := by
    intro hsame
    apply hrefused
    rw [hsame]
    exact ⟨_, spellsUpTo_hex 2 hvalue⟩
  rw [hplaces]
  by_cases hfocus : d.focus = .field k
  · rw [if_pos hfocus] at htext
    have htimes := finishFieldTimes_of_focus hrefused (hkept.trans hfocus) htext
    rw [hmachine] at htimes
    obtain ⟨honce, -, hwarned⟩ := htimes 1
    change (d'.finishField k).machine = d.machine at honce
    change (d'.finishField k).warnings = _ at hwarned
    refine ⟨hmachine, honce, ?_, ?_, fun _ => htimes⟩
    · rw [htext]
      exact ⟨fun hsame => absurd hsame hother, fun hleft => absurd hfocus hleft⟩
    · rw [hwarned]
      exact ⟨fun hsame => absurd hsame (by simp), fun hleft => absurd hfocus hleft⟩
  · rw [if_neg hfocus] at htext
    rw [← hmachine] at hvalue
    obtain ⟨hwarned, hsame⟩ := d'.editField_of_shown k hvalue (by rw [htext, hmachine])
    exact ⟨hmachine, hsame.trans hmachine, iff_of_true htext hfocus, iff_of_true hwarned hfocus,
      fun hfocus' => absurd hfocus' hfocus⟩

theorem resetField_shows_zero :
    let d := newDesk .canvas
    let d' := d.editField 0 "100"
    (¬∃ n, SpellsUpTo 0xFF "100" n) ∧ d.focus ≠ .field 0 ∧ d'.generalTexts.get 0 = "00" ∧
      (d'.finishField 0).warnings = d'.warnings := by
  intro d d'
  have hlarge : ¬∃ n, SpellsUpTo 0xFF "100" n := filter_readHex?_eq_none_iff.mp (by decide)
  have hleft : d.focus ≠ .field 0 := Focus.noConfusion
  have hzero : placeText 2 (d.machine.registers.v.get 0).toNat = "00" := by decide
  obtain ⟨-, -, hshown, hwarned, -⟩ :=
    refused_text_is_reset_iff_unfocused d 0 "100" hlarge (newDesk_value .canvas 0)
  rw [hzero] at hshown
  exact ⟨hlarge, hleft, hshown.mpr hleft, hwarned.mpr hleft⟩

/-- The field that the user is in still shows what was refused, and is refused again. -/
theorem focused_field_keeps_refused_text :
    let d := newDesk (.field 0)
    let d' := d.editField 0 "zz"
    (¬∃ n, SpellsUpTo 0xFF "zz" n) ∧ d'.machine = d.machine ∧
      placeText 2 (d.machine.registers.v.get 0).toNat = "00" ∧
      d'.generalTexts.get 0 = "zz" ∧
      (d'.finishField 0).warnings = d'.warnings ++ [Request.noByte] := by
  intro d d'
  have hletters : ¬∃ n, SpellsUpTo 0xFF "zz" n := filter_readHex?_eq_none_iff.mp (by decide)
  have hfocus : d.focus = .field 0 := rfl
  obtain ⟨hmachine, hkept, -, htext⟩ := @editField_of_refused d 0 "zz" hletters
  rw [if_pos hfocus] at htext
  obtain ⟨-, -, hwarned⟩ := finishFieldTimes_of_focus hletters (hkept.trans hfocus) htext 1
  exact ⟨hletters, hmachine, by decide, htext, hwarned⟩

end Desk

end ChipEight
