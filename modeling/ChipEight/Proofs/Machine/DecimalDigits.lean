import ChipEight.Proofs.Machine.BlockTransfer

/-!
The decimal digits of a register on their way to the screen: one instruction
stores them in three cells, a second loads the cells into the first three
registers, and a third points the index register at the glyph of a digit. The
three cells may lie across the end of memory, and the register that was spelled
out may be one of those that are loaded.
-/

namespace ChipEight

namespace Machine

/-- The decimal digits of a byte. -/
def decimalDigits (value : Int) : List Int := [value / 100, value / 10 % 10, value % 10]

theorem exists_digits {value : Int} (h : 0 ≤ value ∧ value ≤ 255) :
    ∃ a b c : Nat, a ≤ 9 ∧ b ≤ 9 ∧ c ≤ 9 ∧ (100 * a + 10 * b + c : Int) = value ∧
      decimalDigits value = [(a : Int), (b : Int), (c : Int)] := by
  refine ⟨(value / 100).toNat, (value / 10 % 10).toNat, (value % 10).toNat, ?_⟩
  simp only [decimalDigits, List.cons.injEq, and_true]
  omega

theorem execute_storeDecimal (m : Machine) {i : Instruction} {x : Fin 16}
    (hop : i.op = .storeDecimal) (hx : i.x = x.val) :
    m.execute i =
      { machine :=
          { m with
            memory := m.memory.writeAll m.registers.index
              (decimalDigits (m.registers.v.get x)) } } := by
  rw [execute_eq_storeDecimal m hop, hx, storeDecimal, Registers.get_natCast]
  rfl

/-- Three digits stand in the cells from the index register on, and nothing else
changed. -/
structure SpelledOut (m : Machine) (a b c : Nat) (o : Outcome) : Prop where
  fault : o.fault = none
  rest : o.machine = { m with memory := o.machine.memory }
  first : o.machine.memory.read m.registers.index = a
  second : o.machine.memory.read (m.registers.index + 1) = b
  third : o.machine.memory.read (m.registers.index + 2) = c
  others : ∀ address : Int,
    (∀ j : Nat, j < 3 → address % 4096 ≠ (m.registers.index + j) % 4096) →
    o.machine.memory.read address = m.memory.read address

theorem spelledOut_of_digits {m : Machine} {a b c : Nat} {o : Outcome} (ha : a ≤ 9) (hb : b ≤ 9)
    (hc : c ≤ 9)
    (ho : o =
      { machine :=
          { m with
            memory := m.memory.writeAll m.registers.index [(a : Int), (b : Int), (c : Int)] } }) :
    m.SpelledOut a b c o := by
  subst ho
  have hcell {j d : Nat} (hd : d ≤ 9)
      (hj : [(a : Int), (b : Int), (c : Int)][j]? = some (d : Int)) :
      (m.memory.writeAll m.registers.index [(a : Int), (b : Int), (c : Int)]).read
        (m.registers.index + j) = d := by
    rw [Memory.read_writeAll_of_getElem? _ _ (by simp) hj, lowByte_of_lt (by omega)]
  refine ⟨rfl, rfl, ?_, hcell (j := 1) hb rfl, hcell (j := 2) hc rfl, ?_⟩
  · have hfirst := hcell (j := 0) ha rfl
    rwa [Int.natCast_zero, Int.add_zero] at hfirst
  · intro address hoff
    rcases Memory.read_writeAll m.memory m.registers.index address [(a : Int), (b : Int), (c : Int)]
      with hkept | ⟨j, hj, haddress⟩
    · exact hkept
    · exact absurd haddress (hoff j hj)

/-- What was spelled out is loaded into the first three registers. -/
theorem SpelledOut.values {m : Machine} {a b c : Nat} {o loaded : Outcome}
    (h : m.SpelledOut a b c o) (hloaded : o.machine.Loaded 2 loaded) :
    loaded.machine.registers.v.get 0 = a ∧ loaded.machine.registers.v.get 1 = b ∧
      loaded.machine.registers.v.get 2 = c := by
  have hindex : o.machine.registers.index = m.registers.index := by rw [h.rest]
  have hvalue (k : Fin 16) (hk : k ≤ 2) := hloaded.values k hk
  rw [hindex] at hvalue
  refine ⟨?_, ?_, ?_⟩
  · rw [hvalue 0 (by decide), ← h.first]
    congr 2
    exact Int.add_zero _
  · rw [hvalue 1 (by decide), ← h.second]
    rfl
  · rw [hvalue 2 (by decide), ← h.third]
    rfl

/-- The glyphs lie five bytes apart. -/
theorem execute_pointAtGlyph (m : Machine) {i : Instruction} {k : Fin 16} {d : Nat}
    (hop : i.op = .pointAtGlyph) (hk : i.x = k.val) (hd : d ≤ 9)
    (hvalue : m.registers.v.get k = d) :
    m.execute i = { machine := { m with registers := { m.registers with index := 5 * d } } } := by
  have hglyph : m.registers.pointAtGlyph d = { m.registers with index := 5 * d } := by
    rw [Registers.pointAtGlyph, Memory.glyphAddress, Int.emod_eq_of_lt (by omega) (by omega)]
  have hexecute : m.execute i =
      m.onRegisters fun r => do return r.pointAtGlyph (← r.get i.x) := by
    unfold execute
    rw [hop]
  rw [hexecute]
  apply onRegisters_of_ok
  rw [hk, Registers.get_natCast, hvalue, ← hglyph]
  rfl

/-- The three cells from the index register on, around the end of memory, take the
decimal digits of a register, and nothing else changes. Loading three registers
then brings the digits into the first three and leaves the others, the index
register and memory alone, and pointing at the glyph of one of the three sets the
index register to five times its digit. -/
theorem decimal_digits_come_back (m : Machine) (hm : m.WellFormed) (x : Fin 16)
    (store load : Instruction) (hstore : store.op = .storeDecimal ∧ store.x = x.val)
    (hload : load.op = .loadRegs ∧ load.x = 2) :
    let index := m.registers.index
    let stored := m.execute store
    let loaded := stored.machine.execute load
    ∃ a b c : Nat,
      (a ≤ 9 ∧ b ≤ 9 ∧ c ≤ 9 ∧ (100 * a + 10 * b + c : Int) = m.registers.v.get x) ∧
      (stored.fault = none ∧
        stored.machine = { m with memory := stored.machine.memory } ∧
        stored.machine.memory.read (index % 4096) = a ∧
        stored.machine.memory.read ((index + 1) % 4096) = b ∧
        stored.machine.memory.read ((index + 2) % 4096) = c ∧
        ∀ address : Int,
          (∀ j : Nat, j < 3 → address % 4096 ≠ (index + j) % 4096) →
          stored.machine.memory.read address = m.memory.read address) ∧
      (loaded.fault = none ∧
        loaded.machine.registers.v.get 0 = a ∧ loaded.machine.registers.v.get 1 = b ∧
        loaded.machine.registers.v.get 2 = c ∧
        (∀ k, 2 < k → loaded.machine.registers.v.get k = m.registers.v.get k) ∧
        loaded.machine.registers.index = index ∧
        loaded.machine.memory = stored.machine.memory) ∧
      ∀ glyph : Instruction, glyph.op = .pointAtGlyph → ∀ d : Nat,
        (glyph.x = 0 ∧ d = a ∨ glyph.x = 1 ∧ d = b ∨ glyph.x = 2 ∧ d = c) →
        loaded.machine.execute glyph =
          { machine :=
              { loaded.machine with
                registers := { loaded.machine.registers with index := 5 * d } } } := by
  intro index stored loaded
  obtain ⟨a, b, c, ha, hb, hc, hsum, hdigits⟩ := exists_digits (hm.registers.values x)
  have hspelled : m.SpelledOut a b c stored := by
    apply spelledOut_of_digits ha hb hc
    rw [← hdigits]
    exact execute_storeDecimal m hstore.1 hstore.2
  have hloaded : stored.machine.Loaded 2 loaded := execute_loadRegs _ hload.1 hload.2
  have hregisters : stored.machine.registers = m.registers := by rw [hspelled.rest]
  have hwrap (n : Int) : stored.machine.memory.read (n % 4096) = stored.machine.memory.read n :=
    Memory.read_congr _ (Int.emod_emod n 4096)
  obtain ⟨hv0, hv1, hv2⟩ := hspelled.values hloaded
  refine ⟨a, b, c, ⟨ha, hb, hc, hsum⟩,
    ⟨hspelled.fault, hspelled.rest, (hwrap _).trans hspelled.first,
      (hwrap _).trans hspelled.second, (hwrap _).trans hspelled.third, hspelled.others⟩,
    ⟨hloaded.fault, hv0, hv1, hv2, ?_, ?_, hloaded.memory⟩, ?_⟩
  · intro k hk
    rw [hloaded.others k hk, hregisters]
  · rw [hloaded.index, hregisters]
  · rintro glyph hop d (⟨hx, rfl⟩ | ⟨hx, rfl⟩ | ⟨hx, rfl⟩)
    · exact execute_pointAtGlyph loaded.machine hop hx ha hv0
    · exact execute_pointAtGlyph loaded.machine hop hx hb hv1
    · exact execute_pointAtGlyph loaded.machine hop hx hc hv2

/-- A program that puts 156 into `V1` and points at the last two bytes of memory,
after its two steps. -/
def byteBeforeEnd : Machine :=
  afterRun [0x61, 0x9C, 0xAF, 0xFE] 2

/-- The last digit goes over the first byte of the font, and `V1` is loaded with a
digit of its own. -/
theorem byteBeforeEnd_comes_back :
    let store : Instruction := { op := .storeDecimal, x := 1 }
    let load : Instruction := { op := .loadRegs, x := 2 }
    let glyph : Instruction := { op := .pointAtGlyph, x := 1 }
    byteBeforeEnd.WellFormed ∧ byteBeforeEnd.registers.v.get 1 = 156 ∧
      byteBeforeEnd.registers.index = 0xFFE ∧
      (byteBeforeEnd.execute store).machine.memory.read 0xFFF = 5 ∧
      (byteBeforeEnd.execute store).machine.memory.read 0 = 6 ∧
      (byteBeforeEnd.execute store).machine.memory.read 1 = 0x90 ∧
      ((byteBeforeEnd.execute store).machine.execute load).machine.registers.v.get 1 = 5 ∧
      (((byteBeforeEnd.execute store).machine.execute load).machine.execute
        glyph).machine.registers.index = 25 := by
  intro store load glyph
  have hwell : byteBeforeEnd.WellFormed := (afterRun_reachable _ _).wellFormed
  have hstate : byteBeforeEnd.registers.v.get 1 = 156 ∧
      byteBeforeEnd.registers.index = 0xFFE ∧ byteBeforeEnd.memory.read 1 = 0x90 := by
    decide +kernel
  obtain ⟨hvalue, hindex, hfont⟩ := hstate
  obtain ⟨a, b, c, ⟨ha, hb, hc, hsum⟩, ⟨-, -, -, hsecond, hthird, hothers⟩, ⟨-, -, hv1, -⟩,
      hglyph⟩ :=
    decimal_digits_come_back byteBeforeEnd hwell 1 store load ⟨rfl, rfl⟩ ⟨rfl, rfl⟩
  rw [hvalue] at hsum
  obtain ⟨rfl, rfl, rfl⟩ : a = 1 ∧ b = 5 ∧ c = 6 := by omega
  rw [hindex] at hsecond hthird hothers
  have hkept := hothers 1 (by omega)
  have hpoint := hglyph glyph rfl 5 (Or.inr (Or.inl ⟨rfl, rfl⟩))
  exact ⟨hwell, hvalue, hindex, hsecond, hthird, hkept.trans hfont, hv1,
    congrArg (·.machine.registers.index) hpoint⟩

end Machine

end ChipEight
