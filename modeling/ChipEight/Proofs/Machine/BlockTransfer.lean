import ChipEight.Proofs.Machine.Footprint

/-!
Blocks of registers in memory. Storing and loading registers visit the same cells,
around the end of memory, and no cell twice, so each takes back what the other
did.
-/

namespace ChipEight

namespace Machine

/-- The registers from the first to `Vx`. -/
def block (m : Machine) (x : Fin 16) : List Int := m.registers.v.toList.take (x.val + 1)

theorem length_block (m : Machine) (x : Fin 16) : (m.block x).length = x.val + 1 := by
  rw [block, List.length_take, Vector.length_toList]
  omega

theorem block_fits (m : Machine) (x : Fin 16) : (m.block x).length ≤ 4096 := by
  rw [length_block]
  omega

theorem getElem?_block {m : Machine} {x : Fin 16} {j : Nat} {value : Int} :
    (m.block x)[j]? = some value ↔
      ∃ k : Fin 16, k.val = j ∧ k ≤ x ∧ m.registers.v.get k = value := by
  have hcell (k : Fin 16) (hk : k ≤ x) : (m.block x)[k.val]? = some (m.registers.v.get k) := by
    rw [block, List.getElem?_take_of_lt (Nat.lt_succ_of_le hk), Vector.getElem?_toList,
      Vector.getElem?_eq_getElem k.isLt]
    rfl
  constructor
  · intro hvalue
    obtain ⟨hj, -⟩ := List.getElem?_eq_some_iff.mp hvalue
    rw [length_block] at hj
    have hk : (⟨j, by omega⟩ : Fin 16) ≤ x := Nat.le_of_lt_succ hj
    refine ⟨⟨j, by omega⟩, rfl, hk, ?_⟩
    rw [hcell _ hk] at hvalue
    exact Option.some.inj hvalue
  · rintro ⟨k, rfl, hk, rfl⟩
    exact hcell k hk

/-- A block that ends at one of the sixteen registers has no register missing. -/
theorem blockFault_of_register (x : Fin 16) : blockFault (x.val + 1) = none :=
  if_pos x.isLt

theorem execute_storeRegs (m : Machine) {i : Instruction} {x : Fin 16} (hop : i.op = .storeRegs)
    (hx : i.x = x.val) :
    m.execute i =
      { machine := { m with memory := m.memory.writeAll m.registers.index (m.block x) } } := by
  have hcount : (i.x + 1).toNat = x.val + 1 := by omega
  rw [execute_eq_storeBlock m hop, hcount, storeBlock, blockFault_of_register]
  rfl

theorem read_storeRegs (m : Machine) {i : Instruction} {x k : Fin 16} (hop : i.op = .storeRegs)
    (hx : i.x = x.val) (hk : k ≤ x) :
    (m.execute i).machine.memory.read (m.registers.index + k.val) =
      lowByte (m.registers.v.get k) := by
  rw [execute_storeRegs m hop hx]
  apply Memory.read_writeAll_of_getElem? _ _ (m.block_fits x)
  exact getElem?_block.mpr ⟨k, rfl, hk, rfl⟩

/-- What loading the registers up to `Vx` leaves behind. -/
structure Loaded (m : Machine) (x : Fin 16) (o : Outcome) : Prop where
  fault : o.fault = none
  memory : o.machine.memory = m.memory
  index : o.machine.registers.index = m.registers.index
  values : ∀ k, k ≤ x → o.machine.registers.v.get k = m.memory.read (m.registers.index + k.val)
  others : ∀ k, x < k → o.machine.registers.v.get k = m.registers.v.get k

theorem execute_loadRegs (m : Machine) {i : Instruction} {x : Fin 16} (hop : i.op = .loadRegs)
    (hx : i.x = x.val) : m.Loaded x (m.execute i) := by
  have hcount : (i.x + 1).toNat = x.val + 1 := by omega
  rw [execute_eq_loadBlock m hop, hcount]
  refine ⟨blockFault_of_register x, by simp only [loadBlock], by simp only [loadBlock], ?_, ?_⟩
  · intro k hk
    rw [loadBlock_value, if_pos (Nat.lt_succ_of_le hk)]
  · intro k hk
    rw [loadBlock_value, if_neg (Nat.not_lt.mpr hk)]

/-- Storing what was just loaded puts back the bytes that are there. -/
theorem storeRegs_loaded {m : Machine} {x : Fin 16} {o : Outcome} (h : m.Loaded x o)
    {i : Instruction} (hop : i.op = .storeRegs) (hx : i.x = x.val) :
    (o.machine.execute i).machine.memory = m.memory := by
  rw [execute_storeRegs o.machine hop hx, h.index, h.memory]
  apply Memory.writeAll_eq_self _ _ (o.machine.block_fits x)
  intro j value hvalue
  obtain ⟨k, rfl, hk, rfl⟩ := getElem?_block.mp hvalue
  rw [h.values k hk, lowByte_of_lt (m.memory.read_lt _)]

/-- Loading takes back what storing the same registers did, whatever became of
the registers in between, and storing takes back what loading did. A store
changes the cells of its block and no others, around the end of memory, and
neither moves the index register. -/
theorem store_and_load_invert (m : Machine) (hm : m.WellFormed) (x : Fin 16)
    (store load : Instruction) (hstore : store.op = .storeRegs ∧ store.x = x.val)
    (hload : load.op = .loadRegs ∧ load.x = x.val) :
    let index := m.registers.index
    let stored := m.execute store
    let loaded := m.execute load
    (stored.fault = none ∧ stored.machine.registers.index = index ∧
      loaded.fault = none ∧ loaded.machine.registers.index = index) ∧
    (∀ k : Fin 16, k ≤ x →
      (stored.machine.memory.read ((index + k.val) % 4096) : Int) = m.registers.v.get k) ∧
    (∀ address : Int,
      (∀ k : Fin 16, k ≤ x → address % 4096 ≠ (index + k.val) % 4096) →
      stored.machine.memory.read address = m.memory.read address) ∧
    (∀ between : Machine, between.memory = stored.machine.memory →
      between.registers.index = index →
      let after := between.execute load
      after.fault = none ∧ after.machine.registers.index = index ∧
      (∀ k, k ≤ x → after.machine.registers.v.get k = m.registers.v.get k) ∧
      (∀ k, x < k → after.machine.registers.v.get k = between.registers.v.get k)) ∧
    ((loaded.machine.execute store).fault = none ∧
      (loaded.machine.execute store).machine.memory = m.memory) := by
  intro index stored loaded
  obtain ⟨hstoreOp, hstoreX⟩ := hstore
  obtain ⟨hloadOp, hloadX⟩ := hload
  have hstored : stored = _ := execute_storeRegs m hstoreOp hstoreX
  have hloaded : m.Loaded x loaded := execute_loadRegs m hloadOp hloadX
  have hread (k : Fin 16) (hk : k ≤ x) :
      (stored.machine.memory.read (index + k.val) : Int) = m.registers.v.get k := by
    have hbyte := hm.registers.values k
    rw [read_storeRegs m hstoreOp hstoreX hk]
    unfold lowByte
    omega
  refine ⟨⟨by rw [hstored], by rw [hstored], hloaded.fault, hloaded.index⟩, ?_, ?_, ?_, ?_⟩
  · intro k hk
    rw [Memory.read_congr _ (Int.emod_emod _ _), hread k hk]
  · intro address hoff
    rw [hstored]
    rcases Memory.read_writeAll m.memory index address (m.block x) with hkept | ⟨j, hj, haddress⟩
    · exact hkept
    · rw [length_block] at hj
      exact absurd haddress (hoff ⟨j, by omega⟩ (Nat.le_of_lt_succ hj))
  · intro between hmemory hindex after
    have hafter : between.Loaded x after := execute_loadRegs between hloadOp hloadX
    refine ⟨hafter.fault, hafter.index.trans hindex, ?_, hafter.others⟩
    intro k hk
    rw [hafter.values k hk, hmemory, hindex, hread k hk]
  · refine ⟨?_, storeRegs_loaded hloaded hstoreOp hstoreX⟩
    rw [execute_storeRegs loaded.machine hstoreOp hstoreX]

/-- A program that sets three registers and points at the last two bytes of
memory, after its four steps. -/
def blockAcrossEnd : Machine :=
  afterRun [0x60, 0x0A, 0x61, 0x0B, 0x62, 0x0C, 0xAF, 0xFE] 4

/-- The machine with its general registers at zero. -/
def cleared (m : Machine) : Machine :=
  { m with registers := { m.registers with v := Vector.replicate 16 0 } }

theorem cleared_keeps (m : Machine) :
    m.cleared.memory = m.memory ∧ m.cleared.registers.index = m.registers.index :=
  ⟨rfl, rfl⟩

/-- The third register goes over the first byte of the font, the fourth byte of
which stays, and comes back after all registers were cleared. -/
theorem blockAcrossEnd_comes_back :
    let store : Instruction := { op := .storeRegs, x := 2 }
    let load : Instruction := { op := .loadRegs, x := 2 }
    blockAcrossEnd.WellFormed ∧ store.op = .storeRegs ∧ load.op = .loadRegs ∧
      blockAcrossEnd.registers.index = 0xFFE ∧
      ((blockAcrossEnd.execute store).machine.memory.read 0 : Int) = 0x0C ∧
      (blockAcrossEnd.execute store).machine.memory.read 3 = 0x90 ∧
      ((blockAcrossEnd.execute store).machine.cleared.execute load).machine.registers.v.get 2 =
        0x0C ∧
      ((blockAcrossEnd.execute load).machine.execute store).machine.memory =
        blockAcrossEnd.memory := by
  intro store load
  have hwell : blockAcrossEnd.WellFormed := (afterRun_reachable _ _).wellFormed
  have hstate : blockAcrossEnd.registers.index = 0xFFE ∧
      blockAcrossEnd.registers.v.get 2 = 0x0C ∧ blockAcrossEnd.memory.read 3 = 0x90 := by
    decide +kernel
  obtain ⟨hindex, hvalue, hfont⟩ := hstate
  obtain ⟨⟨-, hmoved, -⟩, hcells, hothers, hback, -, hsame⟩ :=
    store_and_load_invert blockAcrossEnd hwell 2 store load ⟨rfl, rfl⟩ ⟨rfl, rfl⟩
  have hcell := hcells 2 (Fin.le_refl 2)
  have hwraps : (0xFFE + ((2 : Fin 16).val : Int)) % 4096 = 0 := rfl
  rw [hindex, hvalue, hwraps] at hcell
  have hkept : (blockAcrossEnd.execute store).machine.memory.read 3 = 0x90 := by
    rw [hothers 3, hfont]
    rw [hindex]
    intro k hk
    omega
  obtain ⟨hmemory, hplace⟩ := (blockAcrossEnd.execute store).machine.cleared_keeps
  obtain ⟨-, -, hloaded, -⟩ := hback _ hmemory (hplace.trans hmoved)
  have hreturned := hloaded 2 (Fin.le_refl 2)
  rw [hvalue] at hreturned
  exact ⟨hwell, rfl, rfl, hindex, hcell, hkept, hreturned, hsame⟩

end Machine

end ChipEight
