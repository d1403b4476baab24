import ChipEight.Machine.Memory

/-!
The laws of memory. A read sees an address modulo 4096 and nothing else, and two
memories with the same reads are one. Writing a list of values changes the cells
of its addresses and no others (`read_writeAll`); up to 4096 values cover no cell
twice, also past the end of memory, so each of them can be read back
(`read_writeAll_of_getElem?`).

Over a history of single writes and of program images, a read gives the value
that was stored last at its address (`read_after`). Writing the bytes of an image
one by one puts the image as a whole in place of the cells that were there
(`toList_writeAll`).
-/

namespace ChipEight

namespace Memory

theorem read_lowAddress (m : Memory) (address : Int) :
    m.read (lowAddress address) = m.read address := by
  have hcell : cellAt (lowAddress address) = cellAt address :=
    Fin.ext (lowAddress_of_lt (lowAddress_lt address))
  unfold read
  simp only [hcell]

theorem read_congr (m : Memory) {a b : Int} (h : a % 4096 = b % 4096) : m.read a = m.read b := by
  rw [← m.read_lowAddress a, ← m.read_lowAddress b, lowAddress, lowAddress, h]

theorem wordAt_lowAddress (m : Memory) (address : Int) :
    m.wordAt (lowAddress address) = m.wordAt address := by
  have hnext : ((lowAddress address : Int) + 1) % 4096 = (address + 1) % 4096 := by
    rw [lowAddress_eq]
    omega
  rw [wordAt, wordAt, read_lowAddress, m.read_congr hnext]

theorem eq_of_read {m m' : Memory} (h : ∀ address, m.read address = m'.read address) : m = m' := by
  cases m with
  | mk cells =>
      cases m' with
      | mk cells' =>
          congr 1
          apply Vector.ext
          intro k hk
          have hcell : cellAt k = ⟨k, hk⟩ := Fin.ext (lowAddress_of_lt hk)
          have hread := h k
          simp only [read, hcell] at hread
          exact UInt8.toNat_inj.mp hread

theorem getElem?_bytesFrom (m : Memory) (start : Int) {length : Int} {j : Nat} (h : j < length) :
    (m.bytesFrom start length)[j]? = some (m.read (start + j)) := by
  have hj : j < length.toNat := by omega
  simp [bytesFrom, hj]

/-- A write is seen at every address that means the same cell. -/
theorem read_write_eq (m : Memory) (a b value : Int) :
    (m.write a value).read b = if a % 4096 = b % 4096 then lowByte value else m.read b := by
  have hcell : lowAddress a = lowAddress b ↔ a % 4096 = b % 4096 := by
    rw [← lowAddress_eq, ← lowAddress_eq, Int.natCast_inj]
  simp only [read_write, hcell]

theorem read_writeAll (m : Memory) (start address : Int) (values : List Int) :
    (m.writeAll start values).read address = m.read address ∨
      ∃ j : Nat, j < values.length ∧ address % 4096 = (start + j) % 4096 := by
  induction values generalizing m start with
  | nil => exact Or.inl rfl
  | cons value rest ih =>
      rcases ih (m.write start value) (start + 1) with hkept | ⟨j, hj, haddress⟩
      · rw [writeAll, hkept, read_write_eq]
        split
        · next hsame => exact Or.inr ⟨0, by simp, by simp [hsame]⟩
        · exact Or.inl rfl
      · refine Or.inr ⟨j + 1, by simpa using hj, ?_⟩
        rw [haddress]
        congr 1
        omega

theorem read_writeAll_of_getElem? (m : Memory) (start : Int) {values : List Int}
    (hfits : values.length ≤ 4096) {j : Nat} {value : Int} (hj : values[j]? = some value) :
    (m.writeAll start values).read (start + j) = lowByte value := by
  induction values generalizing m start j with
  | nil => cases hj
  | cons first rest ih =>
      rw [List.length_cons] at hfits
      cases j with
      | zero =>
          cases hj
          rw [Int.natCast_zero, Int.add_zero, writeAll]
          -- The values after the first go to other cells.
          rcases read_writeAll (m.write start value) (start + 1) start rest with
            hkept | ⟨k, hk, hsame⟩
          · rw [hkept, read_write, if_pos rfl]
          · omega
      | succ j =>
          rw [writeAll, Int.natCast_succ, Int.add_comm (j : Int), ← Int.add_assoc]
          exact ih (m.write start first) (start + 1) (by omega) hj

theorem writeAll_eq_self (m : Memory) (start : Int) {values : List Int}
    (hfits : values.length ≤ 4096)
    (hsame : ∀ (j : Nat) (value : Int), values[j]? = some value →
      lowByte value = m.read (start + j)) :
    m.writeAll start values = m := by
  apply eq_of_read
  intro address
  rcases read_writeAll m start address values with hkept | ⟨j, hj, haddress⟩
  · exact hkept
  · have hvalue := List.getElem?_eq_getElem hj
    rw [read_congr _ haddress, read_congr m haddress,
      read_writeAll_of_getElem? m start hfits hvalue, hsame j _ hvalue]

theorem toList_write (m : Memory) {address : Nat} (h : address < 4096) (byte : UInt8) :
    (m.write address byte.toNat).cells.toList = m.cells.toList.set address byte := by
  have hbyte : UInt8.ofNat (lowByte byte.toNat) = byte := by
    rw [lowByte_of_lt byte.toNat_lt, UInt8.ofNat_toNat]
  change (m.cells.set (lowAddress address) (UInt8.ofNat (lowByte byte.toNat))
    (lowAddress_lt address)).toList = _
  rw [Vector.toList_set, lowAddress_of_lt h, hbyte]

/-- Bytes that are written one after another stand in memory as one piece, in
place of as many cells. -/
theorem toList_writeAll (m : Memory) (start : Nat) {bytes : List UInt8}
    (hfits : start + bytes.length ≤ 4096) :
    (m.writeAll start (bytes.map fun byte => (byte.toNat : Int))).cells.toList =
      m.cells.toList.take start ++ bytes ++ m.cells.toList.drop (start + bytes.length) := by
  induction bytes generalizing m start with
  | nil => simp [writeAll]
  | cons byte rest ih =>
      rw [List.length_cons] at hfits
      have hcell : start < m.cells.toList.length := by
        rw [Vector.length_toList]
        omega
      have htake : (m.cells.toList.set start byte).take (start + 1) =
          m.cells.toList.take start ++ [byte] := by
        rw [List.take_add_one, List.take_set_of_le (Nat.le_refl start),
          List.getElem?_set_self hcell, Option.toList_some]
      have hdrop : (m.cells.toList.set start byte).drop (start + 1 + rest.length) =
          m.cells.toList.drop (start + (rest.length + 1)) := by
        rw [List.drop_set_of_lt (by omega), Nat.add_assoc, Nat.add_comm 1]
      have hrest := ih (m.write start byte.toNat) (start + 1) (by omega)
      rw [Int.natCast_succ, toList_write m (by omega), htake, hdrop] at hrest
      rw [List.map_cons, writeAll, hrest, List.length_cons, List.append_assoc, List.append_assoc,
        List.append_assoc, List.singleton_append, List.cons_append]

end Memory

/-- What is put into memory: one value, or a program image. -/
inductive Store where
  | write (address value : Int)
  | load (program : List UInt8)

namespace Store

/-- A program image as single writes. -/
def byteByByte (program : List UInt8) : List (Int × Int) :=
  program.mapIdx fun j byte => (0x200 + j, byte.toNat)

/-- The single writes, address and value, that a store amounts to. An image that
does not fit amounts to none. -/
def writes : Store → List (Int × Int)
  | write address value => [(address, value)]
  | load program => if program.length ≤ 3584 then byteByByte program else []

end Store

namespace Memory

/-- Memory after a store. An image that does not fit leaves it as it is. -/
def put (m : Memory) : Store → Memory
  | .write address value => m.write address value
  | .load program => (m.load program).toOption.getD m

/-- Memory after a history of stores. -/
def after (m : Memory) (history : List Store) : Memory := history.foldl put m

/-- Memory after single writes. -/
def writeEach (m : Memory) (cells : List (Int × Int)) : Memory :=
  cells.foldl (fun m cell => m.write cell.1 cell.2) m

/-- The value that was written last to an address, under whatever number the
address was given. -/
def lastWritten? (cells : List (Int × Int)) (address : Int) : Option Int :=
  (cells.reverse.find? fun cell => cell.1 % 4096 = address % 4096).map Prod.snd

/-- The value that a history stored last at an address. -/
def lastStored? (history : List Store) (address : Int) : Option Int :=
  lastWritten? (history.flatMap Store.writes) address

/-- The byte that is at an address before anything is stored. -/
def initialByte (address : Int) : Int := font.getD (address % 4096).toNat 0

theorem writeEach_append (m : Memory) (first second : List (Int × Int)) :
    m.writeEach (first ++ second) = (m.writeEach first).writeEach second :=
  List.foldl_append

/-- The last of the writes to an address is the one that counts. -/
theorem read_writeEach (m : Memory) (cells : List (Int × Int)) (address : Int) :
    (m.writeEach cells).read address =
      (lastWritten? cells address).elim (m.read address) lowByte := by
  induction cells generalizing m with
  | nil => rfl
  | cons cell rest ih =>
      have hstep : m.writeEach (cell :: rest) = (m.write cell.1 cell.2).writeEach rest := rfl
      rw [hstep, ih, read_write_eq]
      unfold lastWritten?
      rw [List.reverse_cons, List.find?_append, List.find?_singleton]
      cases rest.reverse.find? fun cell => cell.1 % 4096 = address % 4096 with
      | some later => rfl
      | none =>
          by_cases hcell : cell.1 % 4096 = address % 4096
          · simp [hcell]
          · simp [hcell]

theorem writeAll_eq_writeEach (m : Memory) (start : Int) (values : List Int) :
    m.writeAll start values = m.writeEach (values.mapIdx fun j value => (start + j, value)) := by
  induction values generalizing m start with
  | nil => rfl
  | cons value rest ih =>
      have hnext (j : Nat) : start + 1 + (j : Int) = start + ((j + 1 : Nat) : Int) := by omega
      rw [writeAll, ih, List.mapIdx_cons]
      simp only [hnext, writeEach, List.foldl_cons, Int.natCast_zero, Int.add_zero]

theorem load_of_fits (m : Memory) {program : List UInt8} (h : program.length ≤ 3584) :
    m.load program = .ok (m.writeAll 0x200 (program.map fun byte => (byte.toNat : Int))) :=
  if_pos h

theorem load_of_large (m : Memory) {program : List UInt8} (h : 3584 < program.length) :
    m.load program = .error (.programTooLarge program.length) :=
  if_neg (Nat.not_le.mpr h)

theorem writeAll_program (m : Memory) (program : List UInt8) :
    m.writeAll 0x200 (program.map fun byte => (byte.toNat : Int)) =
      m.writeEach (Store.byteByByte program) := by
  rw [writeAll_eq_writeEach]
  congr 1
  apply List.ext_getElem?
  simp [Store.byteByByte, Function.comp_def]

theorem read_writeAll_program (m : Memory) {program : List UInt8} {address : Int}
    (hfits : program.length ≤ 3584)
    (hoff : address % 4096 < 0x200 ∨ 0x200 + program.length ≤ address % 4096) :
    (m.writeAll 0x200 (program.map fun byte => (byte.toNat : Int))).read address =
      m.read address := by
  rcases read_writeAll m 0x200 address (program.map fun byte => (byte.toNat : Int)) with
    hkept | ⟨j, hj, haddress⟩
  · exact hkept
  · rw [List.length_map] at hj
    omega

theorem put_eq_writeEach (m : Memory) (s : Store) : m.put s = m.writeEach s.writes := by
  cases s with
  | write address value => rfl
  | load program =>
      rw [put, Store.writes]
      split
      · next hfits =>
          rw [load_of_fits m hfits, ← writeAll_program]
          rfl
      · next hlarge =>
          rw [load_of_large m (Nat.not_le.mp hlarge)]
          rfl

theorem after_eq_writeEach (m : Memory) (history : List Store) :
    m.after history = m.writeEach (history.flatMap Store.writes) := by
  induction history generalizing m with
  | nil => rfl
  | cons s rest ih =>
      rw [List.flatMap_cons, writeEach_append, ← put_eq_writeEach, ← ih]
      rfl

theorem read_after (m : Memory) (history : List Store) (address : Int) :
    (m.after history).read address =
      (lastStored? history address).elim (m.read address) lowByte := by
  rw [after_eq_writeEach, read_writeEach, lastStored?]

theorem read_fresh (address : Int) : (fresh.read address : Int) = initialByte address := by
  have hplace : address % 4096 = (0 + ((address % 4096).toNat : Int)) % 4096 := by omega
  rw [initialByte, List.getD_eq_getElem?_getD]
  by_cases hfont : (address % 4096).toNat < font.length
  · have hbytes : ∀ value ∈ font, 0 ≤ value ∧ value < 256 := by decide
    have hbyte := hbytes _ (List.getElem_mem hfont)
    rw [read_congr _ hplace, fresh,
      read_writeAll_of_getElem? _ 0 (by decide) (List.getElem?_eq_getElem hfont), lowByte_eq,
      List.getElem?_eq_getElem hfont, Option.getD_some, Int.emod_eq_of_lt hbyte.1 hbyte.2]
  · rw [List.getElem?_eq_none (Nat.not_lt.mp hfont), Option.getD_none]
    rcases read_writeAll ⟨Vector.replicate 4096 0⟩ 0 address font with hkept | ⟨j, hj, haddress⟩
    · rw [fresh, hkept]
      simp [read]
    · have hlength : font.length = 80 := rfl
      omega

theorem wordAt_eq_or (m : Memory) (address : Int) :
    m.wordAt address = m.read address <<< 8 ||| m.read (address + 1) := by
  rw [← Nat.shiftLeft_add_eq_or_of_lt (m.read_lt (address + 1)), Nat.shiftLeft_eq, wordAt,
    Nat.mul_comm]

/-- After any history of stores, a read gives the low byte of what was stored last
at its address, counted modulo 4096, or else what was there at power-on. A
program that fits is put in place of the cells from `0x200` on, which is the same
as writing its bytes one by one and leaves all other addresses alone; a larger one
is refused and changes nothing. A list of bytes has the read of each address in
it, however long it is, and a word is two reads. -/
theorem reads_see_last_store :
    (∀ (history : List Store) (address : Int),
      ((fresh.after history).read address : Int) =
        (lastStored? history address).elim (initialByte address) (· % 256)) ∧
    (∀ (m : Memory) (program : List UInt8), program.length ≤ 3584 →
      ∃ loaded, m.load program = .ok loaded ∧
        loaded = m.writeEach (Store.byteByByte program) ∧
        loaded.cells.toList =
          m.cells.toList.take 0x200 ++ program ++ m.cells.toList.drop (0x200 + program.length) ∧
        ∀ address : Int, address % 4096 < 0x200 ∨ 0x200 + program.length ≤ address % 4096 →
          loaded.read address = m.read address) ∧
    (∀ (m : Memory) (program : List UInt8), 3584 < program.length →
      m.load program = .error (.programTooLarge program.length) ∧ m.put (.load program) = m) ∧
    (∀ (m : Memory) (start length : Int),
      (m.bytesFrom start length).length = length.toNat ∧
      ∀ j : Nat, j < length → (m.bytesFrom start length)[j]? = some (m.read (start + j))) ∧
    (∀ (m : Memory) (address : Int),
      m.wordAt address = 256 * m.read address + m.read (address + 1) ∧
      m.wordAt address = m.read address <<< 8 ||| m.read (address + 1)) := by
  refine ⟨fun history address => ?_, fun m program hfits => ?_, fun m program hlarge => ?_,
    fun m start length => ?_, fun m address => ⟨rfl, m.wordAt_eq_or address⟩⟩
  · rw [read_after]
    cases lastStored? history address with
    | none => exact read_fresh address
    | some value => exact lowByte_eq value
  · exact ⟨_, load_of_fits m hfits, writeAll_program m program,
      toList_writeAll m 0x200 (by omega), fun address => read_writeAll_program m hfits⟩
  · refine ⟨load_of_large m hlarge, ?_⟩
    rw [put, load_of_large m hlarge]
    rfl
  · refine ⟨by simp [bytesFrom], fun j hj => ?_⟩
    exact getElem?_bytesFrom m start hj

/-- An image between two single writes with addresses and values out of range,
then an image that fills memory to its end and one that is a byte too large. -/
theorem image_between_writes :
    let m := fresh.after [.write 0x1FFF 0x1AB, .load [0x12, 0x34], .write (-0xE00) (-1)]
    (m.read (-1) : Int) = 0xAB ∧ (m.read 0x200 : Int) = 0xFF ∧ (m.read 0x1201 : Int) = 0x34 ∧
      (m.read 0x1000 : Int) = 0xF0 ∧
      (∃ loaded, m.load (List.replicate 3584 7) = .ok loaded ∧
        loaded.read 0x11FF = m.read 0x11FF) ∧
      m.put (.load (List.replicate 3585 7)) = m ∧
      (m.bytesFrom (-1) 5000)[4096]? = some (m.read 0xFFF) := by
  intro m
  obtain ⟨hread, hload, hlarge, hbytes, -⟩ := reads_see_last_store
  obtain ⟨loaded, hloaded, -, -, hkept⟩ :=
    hload m (List.replicate 3584 7) (Nat.le_of_eq List.length_replicate)
  have htoo : 3584 < (List.replicate 3585 (7 : UInt8)).length := by
    rw [List.length_replicate]
    decide
  exact ⟨hread _ _, hread _ _, hread _ _, hread _ _,
    ⟨loaded, hloaded, hkept _ (Or.inl (by decide))⟩, (hlarge m _ htoo).2,
    (hbytes m (-1) 5000).2 4096 (by decide)⟩

end Memory

end ChipEight
