import ChipEight.Machine.Step
import ChipEight.Proofs.Instruction.Grammar
import ChipEight.Proofs.Machine.RegisterChange

/-!
What one instruction and one step can do to the machine. An instruction has
one of five effects (`Effect`), whether it stops with a fault or not, and all
five keep the seed, the keypad, the program, the fetched word and the count of
cycles. A step looks for a key, passes over a word, or carries out the
instruction of the word (`step_cases`).
-/

namespace ChipEight.Machine

/-- What an instruction can do to the machine. -/
inductive Effect (i : Instruction) (m : Machine) : Machine → Prop where
  | registers {r : Registers} (h : m.registers.Change i r) :
      Effect i m { m with registers := r }
  | paint (hop : i.op = .clear ∨ i.op = .draw) (screen : Screen) {r : Registers}
      (h : m.registers.ValuesOnly r) :
      Effect i m { m with screen := screen, registers := r }
  | store (hop : i.op = .storeDecimal ∨ i.op = .storeRegs) (memory : Memory) :
      Effect i m { m with memory := memory }
  | random (hop : i.op = .random) {r : Registers} (h : m.registers.ValuesOnly r) :
      Effect i m { m with generator := m.generator.byte.2, registers := r }
  | park (hop : i.op = .awaitKey) (hnone : m.keypad.lowest? = none) :
      Effect i m
        { m with
          registers := { m.registers with pc := m.registers.currentAddress }
          waitRegister := i.x
          mode := .awaitingKey }

theorem Effect.refl (i : Instruction) (m : Machine) : Effect i m m :=
  .registers (.values (.refl m.registers))

theorem onRegisters_of_ok {m : Machine} {f : Registers → Except Fault Registers}
    {r : Registers} (h : f m.registers = .ok r) :
    m.onRegisters f = { machine := { m with registers := r } } := by
  rw [onRegisters, h]

theorem onRegisters_of_error {m : Machine} {f : Registers → Except Fault Registers}
    {fault : Fault} (h : f m.registers = .error fault) :
    m.onRegisters f = { machine := m, fault := some fault } := by
  rw [onRegisters, h]

theorem onRegisters_effect {i : Instruction} {m : Machine}
    {f : Registers → Except Fault Registers}
    (hf : ∀ r, f m.registers = .ok r → m.registers.Change i r) :
    Effect i m (m.onRegisters f).machine := by
  unfold onRegisters
  split
  · next r hr => exact .registers (hf r hr)
  · exact .refl i m

/-- An operation that reads one register first. -/
theorem onRegisters_get_effect {i : Instruction} {m : Machine} {k : Int}
    {f : Registers → Int → Registers}
    (hf : ∀ j : Fin 16, m.registers.Change i (f m.registers (m.registers.v.get j))) :
    Effect i m (m.onRegisters fun r => do return f r (← r.get k)).machine := by
  apply onRegisters_effect
  intro r h
  simp only [followed_ok_iff] at h
  obtain ⟨value, hget, h⟩ := h
  obtain ⟨j, rfl⟩ := Registers.exists_of_get hget
  cases h
  exact hf j

/-- An operation that reads two registers first. -/
theorem onRegisters_get_get_effect {i : Instruction} {m : Machine} {j k : Int}
    {f : Registers → Int → Int → Registers}
    (hf : ∀ a b : Int, m.registers.Change i (f m.registers a b)) :
    Effect i m (m.onRegisters fun r => do return f r (← r.get j) (← r.get k)).machine := by
  apply onRegisters_effect
  intro r h
  simp only [followed_ok_iff] at h
  obtain ⟨a, -, b, -, h⟩ := h
  cases h
  exact hf a b

theorem drawSprite_effect {i : Instruction} (hop : i.op = .draw) (m : Machine) (x y n : Int) :
    Effect i m (m.drawSprite x y n).machine := by
  unfold drawSprite
  dsimp only
  split
  · exact .refl i m
  · unfold onRegisters
    dsimp only
    split
    · next r hflag => exact .paint (Or.inr hop) _ (Registers.setFlag_valuesOnly hflag)
    · exact .paint (Or.inr hop) _ (.refl m.registers)

theorem awaitKey_effect {i : Instruction} (hop : i.op = .awaitKey) (m : Machine) :
    Effect i m (m.awaitKey i.x).machine := by
  unfold awaitKey
  split
  · exact onRegisters_effect fun r h => .values (Registers.set_valuesOnly h)
  · next hnone => exact .park hop hnone

theorem storeDecimal_effect {i : Instruction} (hop : i.op = .storeDecimal) (m : Machine) :
    Effect i m (m.storeDecimal i.x).machine := by
  unfold storeDecimal
  split
  · exact .refl i m
  · exact .store (Or.inl hop) _

theorem loadBlock_value (m : Machine) (count : Nat) (k : Fin 16) :
    (m.loadBlock count).machine.registers.v.get k =
      if k.val < count then (m.memory.read (m.registers.index + k.val) : Int)
      else m.registers.v.get k := by
  change (Vector.ofFn _)[k.val] = _
  rw [Vector.getElem_ofFn]

theorem loadBlock_effect (i : Instruction) (m : Machine) (count : Nat) :
    Effect i m (m.loadBlock count).machine := by
  refine .registers (.values ⟨fun k => ?_, rfl⟩)
  have hloaded := loadBlock_value m count k
  have hbyte := m.memory.read_lt (m.registers.index + k.val)
  change (m.loadBlock count).machine.registers.v.get k = _ ∨ _
  split at hloaded
  · right
    change 0 ≤ (m.loadBlock count).machine.registers.v.get k ∧
      (m.loadBlock count).machine.registers.v.get k ≤ 255
    omega
  · exact Or.inl hloaded

theorem drawRandom_effect {i : Instruction} (hop : i.op = .random) (m : Machine) :
    Effect i m (m.drawRandom i.x i.kk).machine := by
  unfold drawRandom onRegisters
  dsimp only
  split
  · next r hset => exact .random hop (Registers.set_valuesOnly hset)
  · exact .random hop (.refl m.registers)

/-- Every instruction has one of the five effects, also when it stops. -/
theorem execute_effect (m : Machine) (i : Instruction) :
    Effect i m (m.execute i).machine := by
  unfold execute
  cases hop : i.op with
  | clear => exact .paint (Or.inl hop) .blank (.refl m.registers)
  | ret => exact onRegisters_effect fun r => Registers.ret_change hop
  | jump => exact .registers (.goTo i.nnn)
  | call => exact onRegisters_effect fun r => Registers.call_change hop
  | jumpOffset => exact onRegisters_get_effect fun j => .goTo _
  | skipEqByte | skipNeByte | skipPressed | skipReleased =>
      exact onRegisters_get_effect fun j => Registers.skipIf_change i _ _
  | skipEqReg | skipNeReg =>
      exact onRegisters_get_get_effect fun a b => Registers.skipIf_change i _ _
  | loadByte | readDelay =>
      exact onRegisters_effect fun r h => .values (Registers.set_valuesOnly h)
  | addByte => exact onRegisters_effect fun r h => .values (Registers.addTo_valuesOnly h)
  | copyReg | or | and | xor | addReg | sub | subFrom | shr | shl =>
      exact onRegisters_effect fun r h => .values (Registers.combine_valuesOnly h)
  | setIndex => exact .registers (.point i.nnn)
  | random => exact drawRandom_effect hop m
  | draw => exact drawSprite_effect hop m i.x i.y i.n
  | awaitKey => exact awaitKey_effect hop m
  | setDelay => exact onRegisters_get_effect fun j => .startDelay hop j
  | setSound => exact onRegisters_get_effect fun j => .startSound hop j
  | addIndex => exact onRegisters_get_effect fun j => .point _
  | pointAtGlyph => exact onRegisters_get_effect fun j => Registers.pointAtGlyph_change i _ _
  | storeDecimal => exact storeDecimal_effect hop m
  | storeRegs => exact .store (Or.inr hop) _
  | loadRegs => exact loadBlock_effect i m _

theorem execute_eq_storeDecimal (m : Machine) {i : Instruction} (h : i.op = .storeDecimal) :
    m.execute i = m.storeDecimal i.x := by
  unfold execute
  rw [h]

theorem execute_eq_storeBlock (m : Machine) {i : Instruction} (h : i.op = .storeRegs) :
    m.execute i = m.storeBlock (i.x + 1).toNat := by
  unfold execute
  rw [h]

theorem execute_eq_loadBlock (m : Machine) {i : Instruction} (h : i.op = .loadRegs) :
    m.execute i = m.loadBlock (i.x + 1).toNat := by
  unfold execute
  rw [h]

/-- Apart from calls and returns, an instruction leaves the stack alone. -/
theorem Effect.stack_eq {i : Instruction} {m m' : Machine} (h : Effect i m m')
    (hcall : i.op ≠ .call) (hret : i.op ≠ .ret) :
    m'.registers.stack = m.registers.stack := by
  cases h with
  | registers h => exact h.stack_eq hcall hret
  | paint hop screen h => exact h.stack_eq
  | store hop memory => rfl
  | random hop h => exact h.stack_eq
  | park hop hnone => rfl

theorem Effect.delay_eq {i : Instruction} {m m' : Machine} (h : Effect i m m')
    (hop : i.op ≠ .setDelay) : m'.registers.delay = m.registers.delay := by
  cases h with
  | registers h => exact h.delay_eq hop
  | paint _ _ h | random _ h => rw [h.rest]
  | store | park => rfl

theorem Effect.sound_eq {i : Instruction} {m m' : Machine} (h : Effect i m m')
    (hop : i.op ≠ .setSound) : m'.registers.sound = m.registers.sound := by
  cases h with
  | registers h => exact h.sound_eq hop
  | paint _ _ h | random _ h => rw [h.rest]
  | store | park => rfl

/-- Only the wait for a key changes the mode of the machine. -/
theorem Effect.mode_eq {i : Instruction} {m m' : Machine} (h : Effect i m m')
    (hwait : i.op ≠ .awaitKey) : m'.mode = m.mode := by
  cases h with
  | registers h => rfl
  | paint hop screen h => rfl
  | store hop memory => rfl
  | random hop h => rfl
  | park hop hnone => exact absurd hop hwait

/-- The machine in the middle of a step: the word is read, the program counter
points behind it and the cycle is counted. -/
def fetched (m : Machine) : Machine := { m.fetch with cycles := m.cycles + 1 }

/-- The machine runs, and the word at the program counter belongs to an
operation. -/
def Faces (m : Machine) (op : Operation) : Prop :=
  m.mode = .running ∧ op.pattern.Matches (m.memory.wordAt m.registers.pc)

instance (m : Machine) (op : Operation) : Decidable (m.Faces op) :=
  inferInstanceAs (Decidable (_ ∧ _))

theorem Faces.unique {m : Machine} {op op' : Operation} (h : m.Faces op) (h' : m.Faces op') :
    op = op' :=
  Operation.pattern_unique h.2 h'.2

/-- The word at the program counter as an instruction of an operation. -/
def facedInstruction (m : Machine) (op : Operation) : Instruction :=
  .ofFields op (m.memory.wordAt m.registers.pc)

theorem decode?_fetched (m : Machine) :
    Instruction.decode? m.fetched.word =
      (Operation.ofWord? (m.memory.wordAt m.registers.pc)).map m.facedInstruction :=
  Instruction.decode?_natCast (m.memory.wordAt_lt m.registers.pc)

/-- The rest of a step, once the word is decoded. -/
def carryOut (m : Machine) : Option Instruction → Outcome
  | none => { machine := m, notices := #[m.unknownNotice] }
  | some i => m.execute i

theorem step_of_running {m : Machine} (h : m.mode = .running) :
    m.step = m.fetched.carryOut
      ((Operation.ofWord? (m.memory.wordAt m.registers.pc)).map m.facedInstruction) := by
  rw [← decode?_fetched]
  unfold step
  rw [h]
  change m.cycle = _
  unfold cycle carryOut
  rfl

/-- A step that faces an operation carries it out. -/
theorem step_of_faces {m : Machine} {op : Operation} (h : m.Faces op) :
    m.step = m.fetched.execute (m.facedInstruction op) := by
  rw [step_of_running h.1, Operation.ofWord?_of_matches h.2]
  rfl

theorem step_of_awaitingKey {m : Machine} (h : m.mode = .awaitingKey) : m.step = m.takeKey := by
  unfold step
  rw [h]

/-- A step carries out the operation it faces, or passes over a word that
belongs to none, or looks for a key. -/
theorem step_cases (m : Machine) :
    (∃ op, m.Faces op ∧ m.step = m.fetched.execute (m.facedInstruction op)) ∨
    (m.mode = .running ∧ (∀ op, ¬ m.Faces op) ∧ m.step.fault = none ∧
      m.step.machine = m.fetched) ∨
    (m.mode = .awaitingKey ∧ m.step = m.takeKey) := by
  cases hmode : m.mode with
  | awaitingKey => exact Or.inr (Or.inr ⟨rfl, step_of_awaitingKey hmode⟩)
  | running =>
      cases hword : Operation.ofWord? (m.memory.wordAt m.registers.pc) with
      | some op =>
          have hfaces : m.Faces op := ⟨hmode, Operation.matches_of_ofWord? hword⟩
          exact Or.inl ⟨op, hfaces, step_of_faces hfaces⟩
      | none =>
          have hstep := step_of_running hmode
          rw [hword] at hstep
          refine Or.inr (Or.inl ⟨rfl, ?_, by rw [hstep]; rfl, by rw [hstep]; rfl⟩)
          intro op hfaces
          rw [Operation.ofWord?_of_matches hfaces.2] at hword
          cases hword

/-- A look for a key finds none, finds one that has no register to go to, or
hands it over and lets the machine go on. -/
theorem takeKey_cases (m : Machine) :
    (m.keypad.lowest? = none ∧ m.takeKey = { machine := m }) ∨
    (nibble? m.waitRegister = none ∧
      m.takeKey = { machine := m, fault := some .badRegister }) ∨
    (∃ key k, m.keypad.lowest? = some key ∧ nibble? m.waitRegister = some k ∧
      m.takeKey.fault = none ∧
      m.takeKey.machine =
        { m with registers := (m.registers.put k key.val).skip, mode := .running }) := by
  cases hkey : m.keypad.lowest? with
  | none => exact Or.inl ⟨rfl, by rw [takeKey, hkey]⟩
  | some key =>
      cases hregister : nibble? m.waitRegister with
      | none =>
          refine Or.inr (Or.inl ⟨rfl, ?_⟩)
          simp only [takeKey, hkey, Registers.set, hregister]
      | some k =>
          refine Or.inr (Or.inr ⟨key, k, rfl, rfl, ?_, ?_⟩) <;>
            simp only [takeKey, hkey, Registers.set, hregister]

/-- A look for a key changes at most a general register, the program counter
and the mode. -/
theorem takeKey_frame (m : Machine) :
    ∃ v pc mode, m.takeKey.machine =
      { m with registers := { m.registers with v := v, pc := pc }, mode := mode } := by
  rcases takeKey_cases m with ⟨-, h⟩ | ⟨-, h⟩ | ⟨key, k, -, -, -, h⟩
  · exact ⟨_, _, _, by rw [h]⟩
  · exact ⟨_, _, _, by rw [h]⟩
  · exact ⟨_, _, _, h⟩

end ChipEight.Machine
