import ChipEight.Instruction.Assembly
import ChipEight.Proofs.Machine.BlockTransfer

/-!
What an instruction with any numbers in its fields stops at, and what it leaves
behind then. It asks for the registers that its line names, so it stops where one
of them is not there. Two operations ask later than the others: a wait for a key
asks when it has a key to store, and a block of registers asks for one register
after another, so that it stops behind the last one. Everything is read before
anything is written, and a stopped instruction has changed nothing; only a random
byte is drawn before its register is looked for, and a block has moved the sixteen
registers there are.
-/

namespace ChipEight

/-- The line of an instruction names a register that is not there. -/
def Instruction.NamesMissing (i : Instruction) : Prop :=
  .x ∈ i.op.operands ∧ ¬ (0 ≤ i.x ∧ i.x < 16) ∨ .y ∈ i.op.operands ∧ ¬ (0 ≤ i.y ∧ i.y < 16)

namespace Machine

open Registers (missing missing_eq_some_iff)

/-- An instruction asks for a register that is not there exactly where its line
names one, but for the two kinds that ask later. -/
theorem exists_missing_iff (m : Machine) (i : Instruction) :
    (∃ k ∈ m.needs i, ¬ (0 ≤ k ∧ k < 16)) ↔
      i.NamesMissing ∧ (i.op = .awaitKey → ¬ m.keypad.Idle) ∧
        (i.op ∈ [.storeRegs, .loadRegs] → 16 ≤ i.x) := by
  unfold needs Instruction.NamesMissing
  cases i.op with
  | awaitKey => by_cases hidle : m.keypad.Idle <;> simp [Operation.operands, hidle]
  | storeRegs | loadRegs =>
      by_cases hx : 0 ≤ i.x
      · simp [Operation.operands, hx]
      · simp [Operation.operands, hx]
        omega
  | _ => simp [Operation.operands]

theorem onRegisters_of_fault {m : Machine} {f : Registers → Except Fault Registers}
    (h : (m.onRegisters f).fault ≠ none) : (m.onRegisters f).machine = m := by
  cases hf : f m.registers with
  | ok r => exact absurd (by rw [onRegisters_of_ok hf]) h
  | error fault => rw [onRegisters_of_error hf]

/-- The flag is written after the screen, but the flag register is always there. -/
theorem drawSprite_of_fault {m : Machine} {x y n : Int} (h : (m.drawSprite x y n).fault ≠ none) :
    (m.drawSprite x y n).machine = m := by
  unfold drawSprite at h ⊢
  dsimp only at h ⊢
  split at h
  · rfl
  · rw [onRegisters_fault, Registers.faultOf_setFlag] at h
    exact absurd rfl h

theorem awaitKey_of_fault {m : Machine} {x : Int} (h : (m.awaitKey x).fault ≠ none) :
    (m.awaitKey x).machine = m := by
  unfold awaitKey at h ⊢
  split at h
  · exact onRegisters_of_fault h
  · exact absurd rfl h

theorem storeDecimal_of_fault {m : Machine} {x : Int} (h : (m.storeDecimal x).fault ≠ none) :
    (m.storeDecimal x).machine = m := by
  unfold storeDecimal at h ⊢
  split at h
  · rfl
  · exact absurd rfl h

theorem execute_random_of_fault {m : Machine} {i : Instruction} (h : (m.execute i).fault ≠ none)
    (hop : i.op = .random) :
    (m.execute i).machine = { m with generator := m.generator.byte.2 } := by
  have hexecute : m.execute i = m.drawRandom i.x i.kk := by
    unfold execute
    rw [hop]
  rw [hexecute] at h ⊢
  exact onRegisters_of_fault h

theorem execute_of_fault {m : Machine} {i : Instruction} (h : (m.execute i).fault ≠ none)
    (hop : i.op ∉ [.random, .storeRegs, .loadRegs]) : (m.execute i).machine = m := by
  unfold execute at h ⊢
  cases hi : i.op with
  | clear =>
      rw [hi] at h
      exact absurd rfl h
  | random | storeRegs | loadRegs => exact absurd (by simp [hi]) hop
  | draw =>
      rw [hi] at h
      exact drawSprite_of_fault h
  | awaitKey =>
      rw [hi] at h
      exact awaitKey_of_fault h
  | storeDecimal =>
      rw [hi] at h
      exact storeDecimal_of_fault h
  | _ =>
      rw [hi] at h
      exact onRegisters_of_fault h

theorem storeBlock_of_large (m : Machine) {count : Nat} (h : 16 ≤ count) :
    (m.storeBlock count).machine = (m.storeBlock 16).machine := by
  have hlength : m.registers.v.toList.length = 16 := Vector.length_toList
  have htake (n : Nat) (hn : 16 ≤ n) : m.registers.v.toList.take n = m.registers.v.toList :=
    List.take_of_length_le (by omega)
  simp only [storeBlock, htake count h, htake 16 (Nat.le_refl 16)]

theorem loadBlock_of_large (m : Machine) {count : Nat} (h : 16 ≤ count) :
    (m.loadBlock count).machine = (m.loadBlock 16).machine := by
  have hbelow (k : Fin 16) : k.val < count := Nat.lt_of_lt_of_le k.isLt h
  simp only [loadBlock, hbelow, Fin.is_lt]

/-- A block that is too long has done what the block of all registers does. -/
theorem execute_large_block {m : Machine} {i : Instruction}
    (hop : i.op = .storeRegs ∨ i.op = .loadRegs) (hx : 16 ≤ i.x) :
    ∃ full : Instruction, full.op = i.op ∧ full.x = (15 : Fin 16).val ∧
      (m.execute i).machine = (m.execute full).machine := by
  have hcount : 16 ≤ (i.x + 1).toNat := by omega
  refine ⟨{ i with x := 15 }, rfl, rfl, ?_⟩
  rcases hop with hop | hop
  · have hfull := execute_eq_storeBlock m (i := { i with x := 15 }) hop
    rw [execute_eq_storeBlock m hop, hfull, storeBlock_of_large m hcount]
    rfl
  · have hfull := execute_eq_loadBlock m (i := { i with x := 15 }) hop
    rw [execute_eq_loadBlock m hop, hfull, loadBlock_of_large m hcount]
    rfl

/-- A block that ends below the first register is empty. -/
theorem execute_empty_block {m : Machine} {i : Instruction}
    (hop : i.op = .storeRegs ∨ i.op = .loadRegs) (hx : i.x < 0) :
    m.execute i = { machine := m } := by
  have hcount : (i.x + 1).toNat = 0 := by omega
  have hvalues : (Vector.ofFn fun k => m.registers.v.get k) = m.registers.v := by
    apply Vector.ext
    intro k hk
    rw [Vector.getElem_ofFn]
    rfl
  rcases hop with hop | hop
  · rw [execute_eq_storeBlock m hop, hcount, storeBlock, List.take_zero]
    rfl
  · rw [execute_eq_loadBlock m hop, hcount]
    simp only [loadBlock, Nat.not_lt_zero, if_false, hvalues]
    rfl

theorem execute_fault_iff {m : Machine} (hm : m.WellFormed) (i : Instruction) (fault : Fault) :
    (m.execute i).fault = some fault ↔
      fault = .badRegister ∧ i.NamesMissing ∧ (i.op = .awaitKey → ¬ m.keypad.Idle) ∧
          (i.op ∈ [.storeRegs, .loadRegs] → 16 ≤ i.x) ∨
        fault = .stackOverflow ((m.registers.pc - 2) % 4096) 16 ∧ i.op = .call ∧
          m.registers.stack.length = 16 ∨
        fault = .stackUnderflow ((m.registers.pc - 2) % 4096) ∧ i.op = .ret ∧
          m.registers.stack = [] := by
  have hdepth := hm.registers.depth
  have haddress : m.registers.currentAddress = (m.registers.pc - 2) % 4096 := lowAddress_eq _
  rw [execute_fault, expectedFault, haddress]
  split
  · next hop =>
      have hnames : ¬ i.NamesMissing := by simp [Instruction.NamesMissing, hop, Operation.operands]
      by_cases hroom : m.registers.stack.length < Registers.stackLimit
      · have hless : m.registers.stack.length ≠ 16 := Nat.ne_of_lt hroom
        simp [hroom, hop, hnames, hless]
      · have hfull : m.registers.stack.length = 16 := Nat.le_antisymm hdepth (Nat.not_lt.mp hroom)
        simp [Registers.stackLimit, hop, hnames, hfull, eq_comm]
  · next hop =>
      have hnames : ¬ i.NamesMissing := by simp [Instruction.NamesMissing, hop, Operation.operands]
      by_cases hempty : m.registers.stack = []
      · simp [hempty, hop, hnames, eq_comm]
      · simp [hempty, hop, hnames]
  · next hcall hret =>
      rw [missing_eq_some_iff, exists_missing_iff]
      refine ⟨Or.inl, ?_⟩
      rintro (h | ⟨-, hop, -⟩ | ⟨-, hop, -⟩)
      · exact h
      · exact (hcall hop).elim
      · exact (hret hop).elim

theorem large_of_fault {m : Machine} (hm : m.WellFormed) {i : Instruction}
    (hop : i.op ∈ [.storeRegs, .loadRegs]) (hfault : (m.execute i).fault ≠ none) : 16 ≤ i.x := by
  obtain ⟨fault, hsome⟩ := Option.ne_none_iff_exists'.mp hfault
  rcases (execute_fault_iff hm i fault).mp hsome with ⟨-, -, -, hx⟩ | ⟨-, h, -⟩ | ⟨-, h, -⟩
  · exact hx hop
  · simp [h] at hop
  · simp [h] at hop

theorem execute_large_store {m : Machine} (hm : m.WellFormed) {i : Instruction}
    (hop : i.op = .storeRegs) (hx : 16 ≤ i.x) :
    let index := m.registers.index
    let after := (m.execute i).machine
    after = { m with memory := after.memory } ∧
    (∀ k : Fin 16, (after.memory.read ((index + k.val) % 4096) : Int) = m.registers.v.get k) ∧
    ∀ address : Int, (∀ k : Fin 16, address % 4096 ≠ (index + k.val) % 4096) →
      after.memory.read address = m.memory.read address := by
  intro index after
  obtain ⟨full, hfull, hlast, hafter⟩ := execute_large_block (m := m) (Or.inl hop) hx
  rw [hop] at hfull
  have hsame : after = (m.execute full).machine := hafter
  refine ⟨?_, fun k => ?_, fun address hoff => ?_⟩
  · rw [hsame, execute_storeRegs m hfull hlast]
  · have hbyte := hm.registers.values k
    rw [hsame, Memory.read_congr _ (Int.emod_emod _ _),
      read_storeRegs m hfull hlast (Nat.le_of_lt_succ k.isLt), lowByte_eq]
    omega
  · rw [hsame]
    rcases execute_memory m full address with hkept | ⟨j, haddress, ⟨hdecimal, -⟩ | ⟨-, hj⟩⟩
    · exact hkept
    · rw [hfull] at hdecimal
      cases hdecimal
    · rw [hlast] at hj
      exact absurd haddress (hoff ⟨j, Nat.lt_succ_of_le (Int.ofNat_le.mp hj)⟩)

theorem execute_large_load {m : Machine} {i : Instruction} (hop : i.op = .loadRegs)
    (hx : 16 ≤ i.x) :
    let after := (m.execute i).machine
    after = { m with registers := { m.registers with v := after.registers.v } } ∧
    ∀ k : Fin 16,
      after.registers.v.get k = m.memory.read ((m.registers.index + k.val) % 4096) := by
  intro after
  obtain ⟨full, hfull, hlast, hafter⟩ := execute_large_block (m := m) (Or.inr hop) hx
  rw [hop] at hfull
  refine ⟨?_, fun k => ?_⟩
  · have hrest : after = (m.loadBlock (i.x + 1).toNat).machine := by
      rw [← execute_eq_loadBlock m hop]
    rw [hrest]
    simp only [loadBlock]
  · have hsame : after = (m.execute full).machine := hafter
    rw [hsame, m.memory.read_congr (Int.emod_emod _ _)]
    exact (execute_loadRegs m hfull hlast).values k (Nat.le_of_lt_succ k.isLt)

/-- Whatever numbers its fields hold, an instruction stops at a register that its
line names and that is not there, where a wait for a key does not look without a
key and a block does not look below the first register; at a call with sixteen
entries on the stack; and at a return with none. It stops at nothing else. A
stopped instruction leaves the machine as it was, except that a random byte is
spent and that a block has moved all sixteen registers. -/
theorem instructions_stop_at_missing_registers (m : Machine) (hm : m.WellFormed)
    (i : Instruction) :
    let index := m.registers.index
    let after := (m.execute i).machine
    (∀ fault, (m.execute i).fault = some fault ↔
      fault = .badRegister ∧ i.NamesMissing ∧ (i.op = .awaitKey → ¬ m.keypad.Idle) ∧
          (i.op ∈ [.storeRegs, .loadRegs] → 16 ≤ i.x) ∨
        fault = .stackOverflow ((m.registers.pc - 2) % 4096) 16 ∧ i.op = .call ∧
          m.registers.stack.length = 16 ∨
        fault = .stackUnderflow ((m.registers.pc - 2) % 4096) ∧ i.op = .ret ∧
          m.registers.stack = []) ∧
    (i.op ∈ [.storeRegs, .loadRegs] → i.x < 0 → m.execute i = { machine := m }) ∧
    ((m.execute i).fault ≠ none →
      (i.op ∉ [.random, .storeRegs, .loadRegs] → after = m) ∧
      (i.op = .random → after = { m with generator := m.generator.byte.2 }) ∧
      (i.op = .storeRegs →
        after = { m with memory := after.memory } ∧
        (∀ k : Fin 16,
          (after.memory.read ((index + k.val) % 4096) : Int) = m.registers.v.get k) ∧
        ∀ address : Int, (∀ k : Fin 16, address % 4096 ≠ (index + k.val) % 4096) →
          after.memory.read address = m.memory.read address) ∧
      (i.op = .loadRegs →
        after = { m with registers := { m.registers with v := after.registers.v } } ∧
        ∀ k : Fin 16,
          after.registers.v.get k = m.memory.read ((index + k.val) % 4096))) := by
  intro index after
  refine ⟨execute_fault_iff hm i, fun hop hx => ?_, fun hfault =>
    ⟨execute_of_fault hfault, execute_random_of_fault hfault, ?_, ?_⟩⟩
  · exact execute_empty_block (by simpa using hop) hx
  · intro hop
    exact execute_large_store hm hop (large_of_fault hm (by simp [hop]) hfault)
  · intro hop
    exact execute_large_load hop (large_of_fault hm (by simp [hop]) hfault)

/-- A block beyond the last register, across the end of memory; a copy from a
register that is not there; and a wait for a key that has no register to store it
in, but no key either. -/
theorem blockAcrossEnd_stops_behind_last :
    let store : Instruction := { op := .storeRegs, x := 18 }
    let copy : Instruction := { op := .copyReg, x := 3, y := -1 }
    let wait : Instruction := { op := .awaitKey, x := 16 }
    blockAcrossEnd.WellFormed ∧
      (blockAcrossEnd.execute store).fault = some .badRegister ∧
      ((blockAcrossEnd.execute store).machine.memory.read 0 : Int) = 0x0C ∧
      (blockAcrossEnd.execute store).machine.memory.read 14 = 0xF0 ∧
      (blockAcrossEnd.execute copy).fault = some .badRegister ∧
      (blockAcrossEnd.execute copy).machine = blockAcrossEnd ∧
      (blockAcrossEnd.execute wait).fault = none := by
  intro store copy wait
  have hwell : blockAcrossEnd.WellFormed := (afterRun_reachable _ _).wellFormed
  have hstate : blockAcrossEnd.registers.index = 0xFFE ∧
      blockAcrossEnd.registers.v.get 2 = 0x0C ∧ blockAcrossEnd.memory.read 14 = 0xF0 ∧
      blockAcrossEnd.keypad.Idle := by
    decide +kernel
  obtain ⟨hindex, hvalue, hfont, hidle⟩ := hstate
  obtain ⟨hstores, -, hstoreLeaves⟩ :=
    instructions_stop_at_missing_registers blockAcrossEnd hwell store
  obtain ⟨hcopies, -, hcopyLeaves⟩ :=
    instructions_stop_at_missing_registers blockAcrossEnd hwell copy
  obtain ⟨hwaits, -, -⟩ := instructions_stop_at_missing_registers blockAcrossEnd hwell wait
  have hstore := (hstores .badRegister).mpr
    (Or.inl ⟨rfl, Or.inl ⟨by decide, by decide⟩, by simp [store], by simp [store]⟩)
  have hcopy := (hcopies .badRegister).mpr
    (Or.inl ⟨rfl, Or.inr ⟨by decide, by decide⟩, by simp [copy], by simp [copy]⟩)
  obtain ⟨-, -, hblock, -⟩ := hstoreLeaves (by rw [hstore]; decide)
  obtain ⟨-, hcells, hothers⟩ := hblock rfl
  have hcell := hcells 2
  rw [hindex, hvalue] at hcell
  have hkept := hothers 14 (by rw [hindex]; omega)
  have hwait : (blockAcrossEnd.execute wait).fault = none := by
    rw [Option.eq_none_iff_forall_ne_some]
    intro fault hfault
    rcases (hwaits fault).mp hfault with ⟨-, -, hdown, -⟩ | ⟨-, hop, -⟩ | ⟨-, hop, -⟩
    · exact hdown rfl hidle
    · cases hop
    · cases hop
  exact ⟨hwell, hstore, hcell, hkept.trans hfont, hcopy,
    (hcopyLeaves (by rw [hcopy]; decide)).1 (by decide), hwait⟩

end Machine

end ChipEight
