import ChipEight.Proofs.Machine.CallStack
import ChipEight.Proofs.Machine.Waiting

/-!
When the machine stops. An instruction stops at a call with a full stack, at a
return with an empty one, and where it asks for a register that is not there
(`execute_fault`). The words of a program ask only for registers that are
there, and a machine that waits for a key has a register to put it in, so a
step stops at the two ends of the stack alone. By then it has fetched its word
and done nothing else, and the fault names the address of that word, although
the program counter has moved on and may have wrapped.
-/

namespace ChipEight

def faultOf {α : Type} : Except Fault α → Option Fault
  | .ok _ => none
  | .error fault => some fault

namespace Registers

/-- The fault of asking for registers one after another by their numbers. -/
def missing : List Int → Option Fault
  | [] => none
  | k :: rest =>
    match nibble? k with
    | some _ => missing rest
    | none => some .badRegister

theorem missing_eq_some_iff {numbers : List Int} {fault : Fault} :
    missing numbers = some fault ↔
      fault = .badRegister ∧ ∃ k ∈ numbers, ¬ (0 ≤ k ∧ k < 16) := by
  induction numbers with
  | nil => simp [missing]
  | cons k rest ih =>
      simp only [List.mem_cons, exists_eq_or_imp]
      rw [missing, nibble?]
      by_cases hk : 0 ≤ k ∧ k < 16
      · rw [dif_pos hk, or_iff_right (not_not_intro hk)]
        exact ih
      · rw [dif_neg hk]
        exact ⟨fun h => ⟨(Option.some.inj h).symm, Or.inl hk⟩, fun h => by rw [h.1]⟩

theorem missing_eq_none {numbers : List Int} (h : ∀ k ∈ numbers, 0 ≤ k ∧ k < 16) :
    missing numbers = none := by
  rw [Option.eq_none_iff_forall_ne_some]
  intro fault hfault
  obtain ⟨-, k, hk, hout⟩ := missing_eq_some_iff.mp hfault
  exact hout (h k hk)

theorem faultOf_get_bind {α : Type} {r : Registers} {k : Int} {next : Int → Except Fault α}
    {rest : List Int} (h : (nibble? k).isSome → ∀ value, faultOf (next value) = missing rest) :
    faultOf (r.get k >>= next) = missing (k :: rest) := by
  unfold get
  cases hk : nibble? k with
  | none => simp [missing, hk, faultOf, bind, Except.bind]
  | some j =>
      rw [hk] at h
      simpa [missing, hk, bind, Except.bind] using h rfl (r.v.get j)

theorem faultOf_set (r : Registers) (k value : Int) :
    faultOf (r.set k value) = missing [k] := by
  unfold set
  cases hk : nibble? k with
  | none => simp [missing, hk, faultOf]
  | some j => simp [missing, hk, faultOf]

/-- The flag register is always there. -/
theorem faultOf_setFlag (r : Registers) (flag : Option Bool) :
    faultOf (r.setFlag flag) = none := by
  cases flag with
  | none => rfl
  | some flag => exact faultOf_set r flagRegister _

theorem faultOf_combine (r : Registers) (op : ByteOp) (dst src : Int) :
    faultOf (r.combine op dst src) = missing [dst, src] := by
  unfold combine
  apply faultOf_get_bind
  intro hdst a
  apply faultOf_get_bind
  intro _ b
  obtain ⟨k, hk⟩ := Option.isSome_iff_exists.mp hdst
  have hset : r.set dst (op.eval a b).value = .ok (r.put k (op.eval a b).value) := by
    rw [set, hk]
  dsimp only
  rw [hset]
  exact faultOf_setFlag _ _

theorem faultOf_addTo (r : Registers) (k amount : Int) :
    faultOf (r.addTo k amount) = missing [k] := by
  unfold addTo
  apply faultOf_get_bind
  intro hk value
  obtain ⟨j, hj⟩ := Option.isSome_iff_exists.mp hk
  rw [faultOf_set]
  simp [missing, hj]

end Registers

namespace Machine

open Registers (missing missing_eq_none)

/-- The numbers by which an instruction asks for registers. A wait for a key
asks only when a key is down, and a block that ends below the first register
is empty. -/
def needs (m : Machine) (i : Instruction) : List Int :=
  match i.op with
  | .clear | .ret | .jump | .call | .setIndex | .jumpOffset => []
  | .skipEqReg | .skipNeReg | .copyReg | .or | .and | .xor | .addReg | .sub | .subFrom | .draw =>
    [i.x, i.y]
  | .awaitKey => if m.keypad.Idle then [] else [i.x]
  | .storeRegs | .loadRegs => if 0 ≤ i.x then [i.x] else []
  | _ => [i.x]

/-- The fault that an instruction ends with. -/
def expectedFault (m : Machine) (i : Instruction) : Option Fault :=
  match i.op with
  | .call =>
    if m.registers.stack.length < Registers.stackLimit then none
    else some (.stackOverflow m.registers.currentAddress m.registers.stack.length)
  | .ret =>
    if m.registers.stack = [] then some (.stackUnderflow m.registers.currentAddress) else none
  | _ => missing (m.needs i)

theorem onRegisters_fault (m : Machine) (f : Registers → Except Fault Registers) :
    (m.onRegisters f).fault = faultOf (f m.registers) := by
  unfold onRegisters
  cases f m.registers with
  | ok r => rfl
  | error fault => rfl

theorem drawSprite_fault (m : Machine) (x y n : Int) :
    (m.drawSprite x y n).fault = missing [x, y] := by
  have hplace : faultOf (do return (← m.registers.get x, ← m.registers.get y)) =
      missing [x, y] :=
    Registers.faultOf_get_bind fun _ _ => Registers.faultOf_get_bind fun _ _ => rfl
  unfold drawSprite
  dsimp only
  split
  · next fault h =>
      rw [h] at hplace
      exact hplace
  · next left top h =>
      rw [h] at hplace
      rw [onRegisters_fault, Registers.faultOf_setFlag]
      exact hplace

theorem awaitKey_fault (m : Machine) (x : Int) :
    (m.awaitKey x).fault = missing (if m.keypad.Idle then [] else [x]) := by
  unfold awaitKey
  cases hkey : m.keypad.lowest? with
  | none =>
      rw [if_pos ((Keypad.lowest?_eq_none_iff m.keypad).mp hkey)]
      rfl
  | some key =>
      have hdown : ¬ m.keypad.Idle := by
        intro hidle
        rw [(Keypad.lowest?_eq_none_iff m.keypad).mpr hidle] at hkey
        cases hkey
      rw [if_neg hdown, ← Registers.faultOf_set m.registers x key.val]
      exact onRegisters_fault m _

theorem storeDecimal_fault (m : Machine) (x : Int) :
    (m.storeDecimal x).fault = missing [x] := by
  unfold storeDecimal Registers.get
  cases hx : nibble? x with
  | none => simp [missing, hx]
  | some k => simp [missing, hx]

theorem blockFault_eq (x : Int) :
    blockFault (x + 1).toNat = missing (if 0 ≤ x then [x] else []) := by
  unfold blockFault
  by_cases hx : 0 ≤ x
  · by_cases hsmall : x < 16
    · rw [if_pos hx, if_pos (by omega)]
      exact (missing_eq_none (by simp [hx, hsmall])).symm
    · rw [if_pos hx, if_neg (by omega)]
      simp [missing, nibble?, hsmall]
  · rw [if_neg hx, if_pos (by omega)]
    rfl

theorem drawRandom_fault (m : Machine) (x mask : Int) :
    (m.drawRandom x mask).fault = missing [x] := by
  unfold drawRandom
  rw [onRegisters_fault]
  exact Registers.faultOf_set _ x _

/-- Every instruction, whatever its fields, stops at an end of the stack or at
the first register that is not there. -/
theorem execute_fault (m : Machine) (i : Instruction) :
    (m.execute i).fault = m.expectedFault i := by
  unfold execute expectedFault needs
  cases hop : i.op with
  | clear | jump | setIndex => rfl
  | ret =>
      rw [onRegisters_fault, Registers.ret]
      cases hstack : m.registers.stack with
      | nil => rfl
      | cons target rest => rfl
  | call =>
      rw [onRegisters_fault, Registers.call]
      split <;> rfl
  | jumpOffset => exact onRegisters_fault m _
  | skipEqByte | skipNeByte | skipPressed | skipReleased | setDelay | setSound | addIndex
  | pointAtGlyph =>
      rw [onRegisters_fault]
      exact Registers.faultOf_get_bind fun _ _ => rfl
  | skipEqReg | skipNeReg =>
      rw [onRegisters_fault]
      exact Registers.faultOf_get_bind fun _ _ => Registers.faultOf_get_bind fun _ _ => rfl
  | loadByte | readDelay =>
      rw [onRegisters_fault]
      exact Registers.faultOf_set _ i.x _
  | addByte =>
      rw [onRegisters_fault]
      exact Registers.faultOf_addTo _ i.x i.kk
  | copyReg | or | and | xor | addReg | sub | subFrom =>
      rw [onRegisters_fault]
      exact Registers.faultOf_combine _ _ i.x i.y
  | shr | shl =>
      -- Both operands are the one register, and asking for it twice is asking once.
      rw [onRegisters_fault, Registers.faultOf_combine]
      cases hx : nibble? i.x <;> simp [missing, hx]
  | random => exact drawRandom_fault m i.x i.kk
  | draw => exact drawSprite_fault m i.x i.y i.n
  | awaitKey => exact awaitKey_fault m i.x
  | storeDecimal => exact storeDecimal_fault m i.x
  | storeRegs | loadRegs => exact blockFault_eq i.x

theorem eq_field_of_mem_needs {m : Machine} {i : Instruction} {k : Int} (h : k ∈ m.needs i) :
    k = i.x ∨ k = i.y := by
  unfold needs at h
  split at h <;> grind

/-- The fields of a word that name registers are nibbles. -/
theorem expectedFault_of_word {m : Machine} {op : Operation} (w : Nat) (hcall : op ≠ .call)
    (hret : op ≠ .ret) : m.expectedFault (.ofFields op w) = none := by
  have hpresent : missing (m.needs (.ofFields op w)) = none := by
    apply missing_eq_none
    intro k hk
    rcases eq_field_of_mem_needs hk with rfl | rfl <;> simp only [Instruction.ofFields] <;> omega
  unfold expectedFault
  split
  · next hop => exact absurd hop hcall
  · next hop => exact absurd hop hret
  · exact hpresent

theorem step_fault_of_other {m : Machine} {op : Operation} (h : m.Faces op)
    (hcall : op ≠ .call) (hret : op ≠ .ret) : m.step.fault = none := by
  rw [step_of_faces h, execute_fault]
  exact expectedFault_of_word _ hcall hret

theorem fetched_eq (m : Machine) :
    m.fetched =
      { m with
        word := m.memory.wordAt m.registers.pc
        registers := { m.registers with pc := (m.registers.pc + 2) % 4096 }
        cycles := m.cycles + 1 } := by
  rw [← lowAddress_eq]
  rfl

/-- The address of a fetched word, found again from behind it. -/
theorem WellFormed.currentAddress_fetched {m : Machine} (hm : m.WellFormed) :
    m.fetched.registers.currentAddress = m.registers.pc := by
  have hpc := hm.registers.pc
  rw [Machine.currentAddress_fetched, lowAddress_eq]
  omega

def MeetsFullStack (m : Machine) : Prop :=
  m.Faces .call ∧ m.registers.stack.length = 16

def MeetsEmptyStack (m : Machine) : Prop :=
  m.Faces .ret ∧ m.registers.stack = []

theorem step_of_fullStack {m : Machine} (hm : m.WellFormed) (h : m.MeetsFullStack) :
    m.step = { machine := m.fetched, fault := some (.stackOverflow m.registers.pc 16) } := by
  obtain ⟨hfaces, hdepth⟩ := h
  rw [step_of_call_full hfaces (by rw [hdepth]; decide), hm.currentAddress_fetched, hdepth]

theorem step_of_emptyStack {m : Machine} (hm : m.WellFormed) (h : m.MeetsEmptyStack) :
    m.step = { machine := m.fetched, fault := some (.stackUnderflow m.registers.pc) } := by
  obtain ⟨hfaces, hempty⟩ := h
  rw [step_of_ret_empty hfaces hempty, hm.currentAddress_fetched]

theorem step_fault_of_neither {m : Machine} (hm : m.WellFormed) (hparked : m.Parked)
    (hfull : ¬ m.MeetsFullStack) (hempty : ¬ m.MeetsEmptyStack) : m.step.fault = none := by
  have hdepth := hm.registers.depth
  rcases step_cases m with ⟨op, hfaces, -⟩ | ⟨-, -, hfault, -⟩ | ⟨hmode, h⟩
  · by_cases hcall : op = .call
    · subst hcall
      have hnot : m.registers.stack.length ≠ 16 := fun hequal => hfull ⟨hfaces, hequal⟩
      have hroom : m.registers.stack.length < Registers.stackLimit := by
        change _ < 16
        omega
      rw [step_of_call hfaces hroom]
    · by_cases hret : op = .ret
      · subst hret
        obtain ⟨target, rest, hstack⟩ :=
          List.exists_cons_of_ne_nil fun hnil => hempty ⟨hfaces, hnil⟩
        rw [step_of_ret hfaces hstack]
      · exact step_fault_of_other hfaces hcall hret
  · exact hfault
  · obtain ⟨x, hx⟩ := hparked hmode
    rw [h]
    exact hx.takeKey_fault

/-- A step is stopped by a full stack, stopped by an empty one, or not stopped
at all. -/
theorem step_fault_cases {m : Machine} (hm : m.WellFormed) (hparked : m.Parked) :
    (m.MeetsFullStack ∧
      m.step = { machine := m.fetched, fault := some (.stackOverflow m.registers.pc 16) }) ∨
    (m.MeetsEmptyStack ∧
      m.step = { machine := m.fetched, fault := some (.stackUnderflow m.registers.pc) }) ∨
    m.step.fault = none := by
  by_cases hfull : m.MeetsFullStack
  · exact Or.inl ⟨hfull, step_of_fullStack hm hfull⟩
  · by_cases hempty : m.MeetsEmptyStack
    · exact Or.inr (Or.inl ⟨hempty, step_of_emptyStack hm hempty⟩)
    · exact Or.inr (Or.inr (step_fault_of_neither hm hparked hfull hempty))

/-- In every machine that commands can bring about, a step stops exactly at a
call with sixteen entries on the stack and at a return with none, and names the
address of that call or return. A step that stops has fetched its word, moved
the program counter on and counted the cycle; all else is as before. -/
theorem step_stops_only_at_stack_ends (m : Machine) (hm : m.Reachable) :
    let word := m.memory.wordAt m.registers.pc
    (∀ fault, m.step.fault = some fault ↔
      m.mode = .running ∧
        (word / 4096 = 0x2 ∧ m.registers.stack.length = 16 ∧
            fault = .stackOverflow m.registers.pc 16 ∨
          word = 0x00EE ∧ m.registers.stack = [] ∧
            fault = .stackUnderflow m.registers.pc)) ∧
    (m.step.fault ≠ none →
      m.step.machine =
        { m with
          word := word
          registers := { m.registers with pc := (m.registers.pc + 2) % 4096 }
          cycles := m.cycles + 1 }) := by
  intro word
  have hwell := hm.wellFormed
  have hcases := step_fault_cases hwell hm.parked
  constructor
  · intro fault
    constructor
    · intro hfault
      rcases hcases with ⟨⟨⟨hmode, hword⟩, hdepth⟩, h⟩ | ⟨⟨⟨hmode, hword⟩, hstack⟩, h⟩ | h
      · rw [h] at hfault
        exact ⟨hmode, Or.inl ⟨hword, hdepth, (Option.some.inj hfault).symm⟩⟩
      · rw [h] at hfault
        exact ⟨hmode, Or.inr ⟨hword, hstack, (Option.some.inj hfault).symm⟩⟩
      · rw [h] at hfault
        cases hfault
    · rintro ⟨hmode, ⟨hword, hdepth, rfl⟩ | ⟨hword, hstack, rfl⟩⟩
      · rw [step_of_fullStack hwell ⟨⟨hmode, hword⟩, hdepth⟩]
      · rw [step_of_emptyStack hwell ⟨⟨hmode, hword⟩, hstack⟩]
  · intro hstopped
    rw [← fetched_eq]
    rcases hcases with ⟨-, h⟩ | ⟨-, h⟩ | h
    · rw [h]
    · rw [h]
    · exact absurd h hstopped

/-- A program that stores a return across the end of memory and jumps to it,
after its five steps. -/
def returnAcrossEnd : Machine :=
  afterRun [0x60, 0x00, 0x61, 0xEE, 0xAF, 0xFF, 0xF1, 0x55, 0x1F, 0xFF] 5

theorem returnAcrossEnd_stops :
    returnAcrossEnd.Reachable ∧ returnAcrossEnd.registers.pc = 0xFFF ∧
      returnAcrossEnd.step.fault = some (.stackUnderflow 0xFFF) ∧
      returnAcrossEnd.step.machine =
        { returnAcrossEnd with
          word := 0x00EE
          registers := { returnAcrossEnd.registers with pc := 1 }
          cycles := 6 } := by
  have hreached : returnAcrossEnd.Reachable := afterRun_reachable _ _
  have hstate : returnAcrossEnd.mode = .running ∧ returnAcrossEnd.registers.pc = 0xFFF ∧
      returnAcrossEnd.registers.stack = [] ∧ returnAcrossEnd.cycles = 5 ∧
      returnAcrossEnd.memory.wordAt 0xFFF = 0x00EE := by
    decide +kernel
  obtain ⟨hmode, hpc, hstack, hcycles, hword⟩ := hstate
  obtain ⟨hlaw, hafter⟩ := step_stops_only_at_stack_ends returnAcrossEnd hreached
  rw [hpc, hword, hcycles] at hafter
  have hfault : returnAcrossEnd.step.fault = some (.stackUnderflow 0xFFF) :=
    (hlaw _).mpr ⟨hmode, Or.inr ⟨by rw [hpc, hword], hstack, by rw [hpc]⟩⟩
  exact ⟨hreached, hpc, hfault, hafter (by rw [hfault]; decide)⟩

end Machine

end ChipEight
