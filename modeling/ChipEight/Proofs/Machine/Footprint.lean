import ChipEight.Proofs.Machine.Stopping

/-!
What a step can touch. For every part of the machine there is a short list of
operations that can change it, and any other instruction leaves the part alone,
whatever numbers its fields hold and whether it stops or not (`execute_frame`).
A step of a running machine fetches its word first, so it changes nothing else
but what the operation of that word is listed for, and it goes on behind the
word unless the operation is about the flow of the program (`pcAfter`).
-/

namespace ChipEight

namespace Operation

/-- The operations that put a byte into `Vx`. -/
def onRegister : List Operation :=
  [loadByte, addByte, copyReg, or, and, xor, addReg, sub, shr, subFrom, shl, random, readDelay,
   awaitKey]

/-- The operations that put a flag into `VF`. -/
def onFlag : List Operation := [addReg, sub, shr, subFrom, shl, draw]

/-- The operations that point the index register at an address. -/
def onIndex : List Operation := [setIndex, addIndex, pointAtGlyph]

/-- The operations that may go on somewhere else than behind their word. -/
def onFlow : List Operation :=
  [ret, jump, call, jumpOffset, skipEqByte, skipNeByte, skipEqReg, skipNeReg, skipPressed,
   skipReleased, awaitKey]

end Operation

namespace Instruction

/-- The general registers that an instruction may write. -/
def Writes (i : Instruction) (k : Fin 16) : Prop :=
  i.x = k.val ∧ i.op ∈ Operation.onRegister ∨ k = 15 ∧ i.op ∈ Operation.onFlag ∨
    (k.val : Int) ≤ i.x ∧ i.op = .loadRegs

/-- The addresses that an instruction may store to. -/
def Stores (i : Instruction) (index address : Int) : Prop :=
  ∃ j : Nat, address % 4096 = (index + j) % 4096 ∧
    (i.op = .storeDecimal ∧ j < 3 ∨ i.op = .storeRegs ∧ (j : Int) ≤ i.x)

end Instruction

namespace Registers

theorem get_natCast (r : Registers) (k : Fin 16) : r.get (k.val : Int) = .ok (r.v.get k) := by
  rw [get, nibble?_natCast]

theorem set_natCast (r : Registers) (k : Fin 16) (value : Int) :
    r.set (k.val : Int) value = .ok (r.put k value) := by
  rw [set, nibble?_natCast]

theorem put_value (r : Registers) (k j : Fin 16) (value : Int) :
    (r.put k value).v.get j = r.v.get j ∨ k = j := by
  rw [get_put]
  by_cases h : k = j
  · exact Or.inr h
  · exact Or.inl (if_neg h)

theorem set_value {r r' : Registers} {k value : Int} (h : r.set k value = .ok r') (j : Fin 16) :
    r'.v.get j = r.v.get j ∨ k = j.val := by
  unfold set nibble? at h
  by_cases hk : 0 ≤ k ∧ k < 16
  · rw [dif_pos hk] at h
    cases h
    rcases put_value r ⟨k.toNat, by omega⟩ j value with hkept | rfl
    · exact Or.inl hkept
    · right
      change k = (k.toNat : Int)
      omega
  · rw [dif_neg hk] at h
    cases h

theorem setFlag_value {r r' : Registers} {flag : Option Bool} (h : r.setFlag flag = .ok r')
    (j : Fin 16) : r'.v.get j = r.v.get j ∨ j = 15 ∧ flag ≠ none := by
  cases flag with
  | none =>
      cases h
      exact Or.inl rfl
  | some flag =>
      rcases set_value (k := flagRegister) h j with hkept | hj
      · exact Or.inl hkept
      · refine Or.inr ⟨Fin.ext ?_, by simp⟩
        have : (15 : Int) = j.val := hj
        omega

theorem combine_value {r r' : Registers} {op : ByteOp} {dst src : Int}
    (h : r.combine op dst src = .ok r') (j : Fin 16) :
    r'.v.get j = r.v.get j ∨ dst = j.val ∨ j = 15 ∧ op ∉ [.copy, .or, .and, .xor] := by
  simp only [combine, followed_ok_iff] at h
  obtain ⟨a, -, b, -, written, hset, hflag⟩ := h
  rcases setFlag_value hflag j with hkept | ⟨hj, hsome⟩
  · rw [hkept]
    exact (set_value hset j).imp_right Or.inl
  · refine Or.inr (Or.inr ⟨hj, fun hop => hsome ?_⟩)
    simp only [List.mem_cons, List.not_mem_nil, or_false] at hop
    rcases hop with rfl | rfl | rfl | rfl <;> rfl

theorem addTo_value {r r' : Registers} {k amount : Int} (h : r.addTo k amount = .ok r')
    (j : Fin 16) : r'.v.get j = r.v.get j ∨ k = j.val := by
  simp only [addTo, followed_ok_iff] at h
  obtain ⟨a, -, hset⟩ := h
  exact set_value hset j

/-- The registers differ at most where an instruction may write them. -/
structure StaysWithin (i : Instruction) (r r' : Registers) : Prop where
  values : ∀ k, r'.v.get k = r.v.get k ∨ i.Writes k
  index : r'.index = r.index ∨ i.op ∈ Operation.onIndex
  pc : r'.pc = r.pc ∨ i.op ∈ Operation.onFlow

theorem StaysWithin.refl (i : Instruction) (r : Registers) : StaysWithin i r r :=
  ⟨fun _ => Or.inl rfl, Or.inl rfl, Or.inl rfl⟩

theorem ValuesOnly.staysWithin {i : Instruction} {r r' : Registers} (h : ValuesOnly r r')
    (hvalues : ∀ k, r'.v.get k = r.v.get k ∨ i.Writes k) : StaysWithin i r r' := by
  refine ⟨hvalues, Or.inl ?_, Or.inl ?_⟩
  · rw [h.rest]
  · rw [h.rest]

theorem set_staysWithin {i : Instruction} {r r' : Registers} {value : Int}
    (hop : i.op ∈ Operation.onRegister) (h : r.set i.x value = .ok r') : StaysWithin i r r' :=
  (set_valuesOnly h).staysWithin fun k => (set_value h k).imp_right fun hx => Or.inl ⟨hx, hop⟩

theorem combine_staysWithin {i : Instruction} {r r' : Registers} {op : ByteOp} {src : Int}
    (hop : i.op ∈ Operation.onRegister)
    (hflag : op ∉ [.copy, .or, .and, .xor] → i.op ∈ Operation.onFlag)
    (h : r.combine op i.x src = .ok r') : StaysWithin i r r' := by
  refine (combine_valuesOnly h).staysWithin fun k => ?_
  rcases combine_value h k with hkept | hx | ⟨hk, hsets⟩
  · exact Or.inl hkept
  · exact Or.inr (Or.inl ⟨hx, hop⟩)
  · exact Or.inr (Or.inr (Or.inl ⟨hk, hflag hsets⟩))

theorem flow_staysWithin {i : Instruction} (hop : i.op ∈ Operation.onFlow) (r : Registers)
    (pc : Int) (stack : List Int) : StaysWithin i r { r with pc := pc, stack := stack } :=
  ⟨fun _ => Or.inl rfl, Or.inl rfl, Or.inr hop⟩

theorem index_staysWithin {i : Instruction} (hop : i.op ∈ Operation.onIndex) (r : Registers)
    (index : Int) : StaysWithin i r { r with index := index } :=
  ⟨fun _ => Or.inl rfl, Or.inr hop, Or.inl rfl⟩

theorem skipIf_staysWithin {i : Instruction} (hop : i.op ∈ Operation.onFlow) (r : Registers)
    (condition : Bool) : StaysWithin i r (r.skipIf condition) := by
  cases condition with
  | false => exact .refl i r
  | true => exact flow_staysWithin hop r _ r.stack

theorem call_staysWithin {i : Instruction} {r r' : Registers} {target : Int}
    (hop : i.op ∈ Operation.onFlow) (h : r.call target = .ok r') : StaysWithin i r r' := by
  unfold call at h
  split at h
  · cases h
    exact flow_staysWithin hop r _ _
  · cases h

theorem ret_staysWithin {i : Instruction} {r r' : Registers} (hop : i.op ∈ Operation.onFlow)
    (h : r.ret = .ok r') : StaysWithin i r r' := by
  unfold ret at h
  split at h
  · cases h
  · cases h
    exact flow_staysWithin hop r _ _

end Registers

namespace Machine

open Registers (StaysWithin)

theorem onRegisters_staysWithin {i : Instruction} {m : Machine}
    {f : Registers → Except Fault Registers}
    (hf : ∀ r, f m.registers = .ok r → StaysWithin i m.registers r) :
    StaysWithin i m.registers (m.onRegisters f).machine.registers := by
  unfold onRegisters
  split
  · next r hr => exact hf r hr
  · exact .refl i m.registers

theorem onRegisters_get_staysWithin {i : Instruction} {m : Machine} {k : Int}
    {f : Registers → Int → Registers}
    (hf : ∀ value, StaysWithin i m.registers (f m.registers value)) :
    StaysWithin i m.registers
      (m.onRegisters fun r => do return f r (← r.get k)).machine.registers := by
  apply onRegisters_staysWithin
  intro r h
  simp only [followed_ok_iff] at h
  obtain ⟨value, -, h⟩ := h
  cases h
  exact hf value

theorem onRegisters_get_get_staysWithin {i : Instruction} {m : Machine} {j k : Int}
    {f : Registers → Int → Int → Registers}
    (hf : ∀ a b, StaysWithin i m.registers (f m.registers a b)) :
    StaysWithin i m.registers
      (m.onRegisters fun r => do return f r (← r.get j) (← r.get k)).machine.registers := by
  apply onRegisters_staysWithin
  intro r h
  simp only [followed_ok_iff] at h
  obtain ⟨a, -, b, -, h⟩ := h
  cases h
  exact hf a b

theorem loadBlock_staysWithin {i : Instruction} (hop : i.op = .loadRegs) (m : Machine) :
    StaysWithin i m.registers (m.loadBlock (i.x + 1).toNat).machine.registers := by
  unfold loadBlock
  dsimp only
  refine ⟨fun k => ?_, Or.inl rfl, Or.inl rfl⟩
  by_cases hk : k.val < (i.x + 1).toNat
  · refine Or.inr (Or.inr (Or.inr ⟨?_, hop⟩))
    omega
  · exact Or.inl ((loadBlock_value m _ k).trans (if_neg hk))

theorem drawSprite_staysWithin {i : Instruction} (hop : i.op = .draw) (m : Machine)
    (x y n : Int) : StaysWithin i m.registers (m.drawSprite x y n).machine.registers := by
  unfold drawSprite
  dsimp only
  split
  · exact .refl i m.registers
  · unfold onRegisters
    dsimp only
    split
    · next r h =>
        refine (Registers.setFlag_valuesOnly h).staysWithin fun k => ?_
        refine (Registers.setFlag_value h k).imp_right fun hk => Or.inr (Or.inl ⟨hk.1, ?_⟩)
        rw [hop]
        decide
    · exact .refl i m.registers

/-- Every instruction changes only the registers it is listed for. -/
theorem execute_staysWithin (m : Machine) (i : Instruction) :
    StaysWithin i m.registers (m.execute i).machine.registers := by
  have hflow (h : i.op ∈ Operation.onFlow) := Registers.skipIf_staysWithin h m.registers
  unfold execute
  cases hop : i.op with
  | clear | storeRegs => exact .refl i m.registers
  | jump => exact Registers.flow_staysWithin (by simp [hop, Operation.onFlow]) m.registers _ _
  | ret =>
      exact onRegisters_staysWithin fun r =>
        Registers.ret_staysWithin (by simp [hop, Operation.onFlow])
  | call =>
      exact onRegisters_staysWithin fun r =>
        Registers.call_staysWithin (by simp [hop, Operation.onFlow])
  | jumpOffset =>
      exact onRegisters_get_staysWithin fun value =>
        Registers.flow_staysWithin (by simp [hop, Operation.onFlow]) m.registers _ _
  | skipEqByte | skipNeByte | skipPressed | skipReleased =>
      exact onRegisters_get_staysWithin fun value => hflow (by simp [hop, Operation.onFlow]) _
  | skipEqReg | skipNeReg =>
      exact onRegisters_get_get_staysWithin fun a b => hflow (by simp [hop, Operation.onFlow]) _
  | loadByte | readDelay =>
      exact onRegisters_staysWithin fun r =>
        Registers.set_staysWithin (by simp [hop, Operation.onRegister])
  | addByte =>
      refine onRegisters_staysWithin fun r h => (Registers.addTo_valuesOnly h).staysWithin ?_
      exact fun k => (Registers.addTo_value h k).imp_right fun hx =>
        Or.inl ⟨hx, by simp [hop, Operation.onRegister]⟩
  | copyReg | or | and | xor | addReg | sub | subFrom | shr | shl =>
      exact onRegisters_staysWithin fun r =>
        Registers.combine_staysWithin (by simp [hop, Operation.onRegister])
          (by simp [hop, Operation.onFlag])
  | setIndex =>
      exact Registers.index_staysWithin (by simp [hop, Operation.onIndex]) m.registers _
  | addIndex | pointAtGlyph =>
      exact onRegisters_get_staysWithin fun value =>
        Registers.index_staysWithin (by simp [hop, Operation.onIndex]) m.registers _
  | setDelay | setSound =>
      exact onRegisters_get_staysWithin fun value =>
        ⟨fun _ => Or.inl rfl, Or.inl rfl, Or.inl rfl⟩
  | random =>
      exact onRegisters_staysWithin (m := { m with generator := m.generator.byte.2 }) fun r =>
        Registers.set_staysWithin (by simp [hop, Operation.onRegister])
  | draw => exact drawSprite_staysWithin hop m i.x i.y i.n
  | awaitKey =>
      change StaysWithin i m.registers (m.awaitKey i.x).machine.registers
      unfold awaitKey
      split
      · exact onRegisters_staysWithin fun r =>
          Registers.set_staysWithin (by simp [hop, Operation.onRegister])
      · exact Registers.flow_staysWithin (by simp [hop, Operation.onFlow]) m.registers _ _
  | storeDecimal =>
      change StaysWithin i m.registers (m.storeDecimal i.x).machine.registers
      unfold storeDecimal
      split <;> exact .refl i m.registers
  | loadRegs => exact loadBlock_staysWithin hop m

/-- The machine differs at most where an instruction may change it. -/
structure Frame (i : Instruction) (m m' : Machine) : Prop where
  origin : m'.seed = m.seed ∧ m'.program = m.program ∧ m'.keypad = m.keypad
  fetch : m'.word = m.word ∧ m'.cycles = m.cycles
  memory : ∀ address, m'.memory.read address = m.memory.read address ∨
    i.Stores m.registers.index address
  screen : m'.screen = m.screen ∨ i.op ∈ [.clear, .draw]
  generator : m'.generator = m.generator ∨ i.op = .random
  stack : m'.registers.stack = m.registers.stack ∨ i.op ∈ [.call, .ret]
  delay : m'.registers.delay = m.registers.delay ∨ i.op = .setDelay
  sound : m'.registers.sound = m.registers.sound ∨ i.op = .setSound
  registers : StaysWithin i m.registers m'.registers
  wait : m'.mode = m.mode ∧ m'.waitRegister = m.waitRegister ∨
    i.op = .awaitKey ∧ m.keypad.Idle

theorem execute_memory (m : Machine) (i : Instruction) (address : Int) :
    (m.execute i).machine.memory.read address = m.memory.read address ∨
      i.Stores m.registers.index address := by
  by_cases hdecimal : i.op = .storeDecimal
  · rw [execute_eq_storeDecimal m hdecimal, storeDecimal]
    split
    · exact Or.inl rfl
    · refine (Memory.read_writeAll _ _ address _).imp_right fun ⟨j, hj, haddress⟩ => ?_
      exact ⟨j, haddress, Or.inl ⟨hdecimal, hj⟩⟩
  · by_cases hblock : i.op = .storeRegs
    · rw [execute_eq_storeBlock m hblock, storeBlock]
      refine (Memory.read_writeAll _ _ address _).imp_right fun ⟨j, hj, haddress⟩ => ?_
      refine ⟨j, haddress, Or.inr ⟨hblock, ?_⟩⟩
      rw [List.length_take] at hj
      omega
    · have heffect := execute_effect m i
      generalize (m.execute i).machine = after at heffect ⊢
      cases heffect with
      | registers _ | paint _ _ _ | random _ _ | park _ _ => exact Or.inl rfl
      | store hop _ => exact absurd hop (not_or.mpr ⟨hdecimal, hblock⟩)

theorem Effect.origin_eq {i : Instruction} {m m' : Machine} (h : Effect i m m') :
    m'.seed = m.seed ∧ m'.program = m.program ∧ m'.keypad = m.keypad := by
  cases h with
  | registers | paint | store | random | park => exact ⟨rfl, rfl, rfl⟩

theorem Effect.fetch_eq {i : Instruction} {m m' : Machine} (h : Effect i m m') :
    m'.word = m.word ∧ m'.cycles = m.cycles := by
  cases h with
  | registers | paint | store | random | park => exact ⟨rfl, rfl⟩

theorem Effect.screen_or {i : Instruction} {m m' : Machine} (h : Effect i m m') :
    m'.screen = m.screen ∨ i.op ∈ [.clear, .draw] := by
  cases h with
  | paint hop _ _ => exact Or.inr (by simpa using hop)
  | registers | store | random | park => exact Or.inl rfl

theorem Effect.generator_or {i : Instruction} {m m' : Machine} (h : Effect i m m') :
    m'.generator = m.generator ∨ i.op = .random := by
  cases h with
  | random hop _ => exact Or.inr hop
  | registers | paint | store | park => exact Or.inl rfl

theorem Effect.wait_or {i : Instruction} {m m' : Machine} (h : Effect i m m') :
    m'.mode = m.mode ∧ m'.waitRegister = m.waitRegister ∨
      i.op = .awaitKey ∧ m.keypad.Idle := by
  cases h with
  | park hop hnone => exact Or.inr ⟨hop, (Keypad.lowest?_eq_none_iff m.keypad).mp hnone⟩
  | registers | paint | store | random => exact Or.inl ⟨rfl, rfl⟩

/-- An instruction, whatever its fields and whether it stops or not, leaves
alone what it is not listed for. -/
theorem execute_frame (m : Machine) (i : Instruction) : Frame i m (m.execute i).machine where
  origin := (execute_effect m i).origin_eq
  fetch := (execute_effect m i).fetch_eq
  memory := execute_memory m i
  screen := (execute_effect m i).screen_or
  generator := (execute_effect m i).generator_or
  stack := by
    refine Decidable.or_iff_not_imp_right.mpr fun hop => ?_
    simp only [List.mem_cons, List.not_mem_nil, or_false, not_or] at hop
    exact (execute_effect m i).stack_eq hop.1 hop.2
  delay := Decidable.or_iff_not_imp_right.mpr (execute_effect m i).delay_eq
  sound := Decidable.or_iff_not_imp_right.mpr (execute_effect m i).sound_eq
  registers := execute_staysWithin m i
  wait := (execute_effect m i).wait_or

/-- The register that the word at the program counter names first. -/
def facedX (m : Machine) : Fin 16 := ⟨m.memory.wordAt m.registers.pc / 256 % 16, by omega⟩

/-- The register that the word at the program counter names second. -/
def facedY (m : Machine) : Fin 16 := ⟨m.memory.wordAt m.registers.pc / 16 % 16, by omega⟩

/-- Is the condition of a skip met? -/
def skips (m : Machine) : Operation → Bool
  | .skipEqByte => m.registers.v.get m.facedX = (m.memory.wordAt m.registers.pc % 256 : Nat)
  | .skipNeByte => m.registers.v.get m.facedX ≠ (m.memory.wordAt m.registers.pc % 256 : Nat)
  | .skipEqReg => m.registers.v.get m.facedX = m.registers.v.get m.facedY
  | .skipNeReg => m.registers.v.get m.facedX ≠ m.registers.v.get m.facedY
  | .skipPressed => m.keypad.isDown (m.registers.v.get m.facedX)
  | .skipReleased => !m.keypad.isDown (m.registers.v.get m.facedX)
  | _ => false

/-- Where the machine goes on after a word of an operation. -/
def pcAfter (m : Machine) (op : Operation) : Int :=
  let target : Int := (m.memory.wordAt m.registers.pc % 4096 : Nat)
  let behind := (m.registers.pc + 2) % 4096
  match op with
  | .jump => target
  | .call => if m.registers.stack.length < 16 then target else behind
  | .jumpOffset => (target + m.registers.v.get 0) % 4096
  | .ret => m.registers.stack.headD behind
  | .awaitKey => if m.keypad.Idle then m.registers.pc else behind
  | op => if m.skips op then (m.registers.pc + 4) % 4096 else behind

/-- A skip goes on one word further if its condition is met, and does nothing
else. -/
theorem step_of_skip {m : Machine} {op : Operation} (h : m.Faces op)
    (hop : op ∈ [.skipEqByte, .skipNeByte, .skipEqReg, .skipNeReg, .skipPressed, .skipReleased]) :
    m.step.machine =
      { m.fetched with registers := m.fetched.registers.skipIf (m.skips op) } := by
  have hx := m.fetched.registers.get_natCast m.facedX
  have hy := m.fetched.registers.get_natCast m.facedY
  rw [step_of_faces h]
  simp only [List.mem_cons, List.not_mem_nil, or_false] at hop
  rcases hop with rfl | rfl | rfl | rfl | rfl | rfl
  all_goals
    refine congrArg Outcome.machine (onRegisters_of_ok ?_)
    change (m.fetched.registers.get m.facedX.val >>= _) = _
    rw [hx]
  -- Only the comparisons of two registers read another one.
  case inr.inr.inl | inr.inr.inr.inl =>
    change (m.fetched.registers.get m.facedY.val >>= _) = _
    rw [hy]
    rfl
  all_goals rfl

theorem fetched_pc (m : Machine) : m.fetched.registers.pc = (m.registers.pc + 2) % 4096 := by
  rw [fetched_eq]

theorem skipIf_fetched_pc (m : Machine) (condition : Bool) :
    (m.fetched.registers.skipIf condition).pc =
      if condition then (m.registers.pc + 4) % 4096 else (m.registers.pc + 2) % 4096 := by
  cases condition with
  | false => exact fetched_pc m
  | true =>
      change ((lowAddress (m.fetched.registers.pc + 2) : Nat) : Int) = _
      rw [lowAddress_eq, fetched_pc, if_pos rfl]
      omega

theorem lowAddress_nnn (m : Machine) (op : Operation) :
    lowAddress (m.facedInstruction op).nnn = m.memory.wordAt m.registers.pc % 4096 :=
  lowAddress_of_lt (Nat.mod_lt _ (by decide))

theorem step_pc_of_plain {m : Machine} {op : Operation} (h : m.Faces op)
    (hop : op ∉ Operation.onFlow) :
    m.step.machine.registers.pc = (m.registers.pc + 2) % 4096 := by
  rw [step_of_faces h, ← fetched_pc]
  exact (execute_staysWithin m.fetched (m.facedInstruction op)).pc.resolve_right hop

theorem step_pc_of_awaitKey {m : Machine} (hm : m.WellFormed) (h : m.Faces .awaitKey) :
    m.step.machine.registers.pc =
      if m.keypad.Idle then m.registers.pc else (m.registers.pc + 2) % 4096 := by
  have hstep : m.step = m.fetched.awaitKey m.facedX.val := step_of_faces h
  have hkeypad : m.fetched.keypad = m.keypad := rfl
  rw [hstep, awaitKey, hkeypad]
  cases hkey : m.keypad.lowest? with
  | none =>
      rw [if_pos ((Keypad.lowest?_eq_none_iff m.keypad).mp hkey)]
      exact hm.currentAddress_fetched
  | some key =>
      have hdown : ¬ m.keypad.Idle := by
        rw [← Keypad.lowest?_eq_none_iff, hkey]
        simp
      have hset := m.fetched.registers.set_natCast m.facedX key.val
      rw [if_neg hdown, ← fetched_pc]
      dsimp only
      rw [onRegisters_of_ok hset]
      rfl

/-- A machine goes on where `pcAfter` says, also when the step stops. -/
theorem step_pc {m : Machine} {op : Operation} (hm : m.WellFormed) (h : m.Faces op) :
    m.step.machine.registers.pc = m.pcAfter op := by
  cases op with
  | jump =>
      rw [step_of_faces h]
      exact congrArg Nat.cast (lowAddress_nnn m .jump)
  | call =>
      by_cases hroom : m.registers.stack.length < 16
      · rw [step_of_call h hroom]
        simp only [pcAfter, if_pos hroom, lowAddress_nnn]
      · rw [step_of_call_full h hroom]
        simp only [pcAfter, if_neg hroom, fetched_pc]
  | jumpOffset =>
      have hjump : m.step.machine.registers =
          m.fetched.registers.jump
            ((m.facedInstruction .jumpOffset).nnn + m.registers.v.get 0) := by
        rw [step_of_faces h]
        refine congrArg (·.machine.registers) (onRegisters_of_ok (m := m.fetched) ?_)
        change (m.fetched.registers.get ((0 : Fin 16).val : Int) >>= _) = _
        rw [Registers.get_natCast]
        rfl
      rw [hjump]
      exact lowAddress_eq _
  | ret =>
      cases hstack : m.registers.stack with
      | nil =>
          rw [step_of_ret_empty h hstack]
          simp only [pcAfter, hstack, List.headD_nil, fetched_pc]
      | cons target rest =>
          rw [step_of_ret h hstack]
          simp only [pcAfter, hstack, List.headD_cons]
  | awaitKey => exact step_pc_of_awaitKey hm h
  | skipEqByte | skipNeByte | skipEqReg | skipNeReg | skipPressed | skipReleased =>
      rw [step_of_skip h (by decide)]
      exact skipIf_fetched_pc m _
  | _ => exact step_pc_of_plain h (by decide)

/-- All that a step of a running machine may change, and where it goes on. -/
structure Footprint (m m' : Machine) : Prop where
  origin : m'.seed = m.seed ∧ m'.program = m.program ∧ m'.keypad = m.keypad
  fetch : m'.word = m.memory.wordAt m.registers.pc ∧ m'.cycles = m.cycles + 1
  memory : ∀ address : Int, m'.memory.read address ≠ m.memory.read address →
    ∃ j : Nat, address % 4096 = (m.registers.index + j) % 4096 ∧
      (m.Faces .storeDecimal ∧ j < 3 ∨ m.Faces .storeRegs ∧ j ≤ m.facedX.val)
  screen : m'.screen ≠ m.screen → ∃ op ∈ [Operation.clear, .draw], m.Faces op
  generator : m'.generator ≠ m.generator → m.Faces .random
  stack : m'.registers.stack ≠ m.registers.stack → ∃ op ∈ [Operation.call, .ret], m.Faces op
  delay : m'.registers.delay ≠ m.registers.delay → m.Faces .setDelay
  sound : m'.registers.sound ≠ m.registers.sound → m.Faces .setSound
  index : m'.registers.index ≠ m.registers.index → ∃ op ∈ Operation.onIndex, m.Faces op
  values : ∀ k, m'.registers.v.get k ≠ m.registers.v.get k →
    k = m.facedX ∧ (∃ op ∈ Operation.onRegister, m.Faces op) ∨
      k = 15 ∧ (∃ op ∈ Operation.onFlag, m.Faces op) ∨ k ≤ m.facedX ∧ m.Faces .loadRegs
  wait : m'.mode ≠ m.mode ∨ m'.waitRegister ≠ m.waitRegister →
    m.Faces .awaitKey ∧ m.keypad.Idle
  pc : ∀ op, m.Faces op → m'.registers.pc = m.pcAfter op
  unknown : (∀ op, ¬ m.Faces op) → m' =
    { m with
      word := m.memory.wordAt m.registers.pc
      registers := { m.registers with pc := (m.registers.pc + 2) % 4096 }
      cycles := m.cycles + 1 }

/-- A word that belongs to no operation changes nothing but what the fetch does. -/
theorem footprint_fetched {m : Machine} (hnone : ∀ op, ¬ m.Faces op) :
    m.Footprint m.fetched where
  origin := ⟨rfl, rfl, rfl⟩
  fetch := ⟨rfl, rfl⟩
  memory _ h := absurd rfl h
  screen h := absurd rfl h
  generator h := absurd rfl h
  stack h := absurd rfl h
  delay h := absurd rfl h
  sound h := absurd rfl h
  index h := absurd rfl h
  values _ h := absurd rfl h
  wait h := h.elim (absurd rfl) (absurd rfl)
  pc op hfaces := absurd hfaces (hnone op)
  unknown _ := fetched_eq m

/-- What the instruction of a word is listed for, as seen from before the
fetch. -/
theorem Frame.footprint {m m' : Machine} {op : Operation} (hfaces : m.Faces op)
    (h : Frame (m.facedInstruction op) m.fetched m') (hpc : m'.registers.pc = m.pcAfter op) :
    m.Footprint m' where
  origin := h.origin
  fetch := h.fetch
  memory address hne := by
    obtain ⟨j, haddress, ⟨hop, hj⟩ | ⟨hop, hj⟩⟩ := (h.memory address).resolve_left hne
    · exact ⟨j, haddress, Or.inl ⟨hop ▸ hfaces, hj⟩⟩
    · exact ⟨j, haddress, Or.inr ⟨hop ▸ hfaces, Int.ofNat_le.mp hj⟩⟩
  screen hne := ⟨op, h.screen.resolve_left hne, hfaces⟩
  generator hne := h.generator.resolve_left hne ▸ hfaces
  stack hne := ⟨op, h.stack.resolve_left hne, hfaces⟩
  delay hne := h.delay.resolve_left hne ▸ hfaces
  sound hne := h.sound.resolve_left hne ▸ hfaces
  index hne := ⟨op, h.registers.index.resolve_left hne, hfaces⟩
  values k hne := by
    rcases (h.registers.values k).resolve_left hne with ⟨hx, hop⟩ | ⟨hk, hop⟩ | ⟨hx, hop⟩
    · exact Or.inl ⟨Fin.ext (Int.ofNat.inj hx).symm, op, hop, hfaces⟩
    · exact Or.inr (Or.inl ⟨hk, op, hop, hfaces⟩)
    · exact Or.inr (Or.inr ⟨Int.ofNat_le.mp hx, hop ▸ hfaces⟩)
  wait hne := by
    rcases h.wait with ⟨hmode, hregister⟩ | ⟨hop, hidle⟩
    · exact (hne.elim (absurd hmode) (absurd hregister))
    · exact ⟨hop ▸ hfaces, hidle⟩
  pc op' hfaces' := by rw [hfaces'.unique hfaces, hpc]
  unknown hnone := absurd hfaces (hnone op)

/-- A step of a running machine, whether it stops or not, changes nothing but
what its word is listed for, and goes on behind the word unless the word says
otherwise. -/
theorem step_keeps_to_footprint (m : Machine) (hm : m.WellFormed) (hmode : m.mode = .running) :
    m.Footprint m.step.machine := by
  rcases step_cases m with ⟨op, hfaces, h⟩ | ⟨-, hnone, -, h⟩ | ⟨hwaits, -⟩
  · have hpc := step_pc hm hfaces
    rw [h] at hpc ⊢
    exact (execute_frame m.fetched (m.facedInstruction op)).footprint hfaces hpc
  · rw [h]
    exact footprint_fetched hnone
  · rw [hmode] at hwaits
    cases hwaits

/-- A program that stores a skip in the last word of memory and jumps to it,
after its five steps. -/
def skipAtEnd : Machine :=
  afterRun [0x60, 0x32, 0x61, 0x00, 0xAF, 0xFE, 0xF1, 0x55, 0x1F, 0xFE] 5

theorem skipAtEnd_goes_on_past_start :
    skipAtEnd.WellFormed ∧ skipAtEnd.mode = .running ∧ skipAtEnd.Faces .skipEqByte ∧
      skipAtEnd.Footprint skipAtEnd.step.machine ∧
      skipAtEnd.registers.pc = 0xFFE ∧ skipAtEnd.step.machine.registers.pc = 2 := by
  have hreached : skipAtEnd.Reachable := afterRun_reachable _ _
  have hstate : skipAtEnd.mode = .running ∧ skipAtEnd.Faces .skipEqByte ∧
      skipAtEnd.registers.pc = 0xFFE ∧ skipAtEnd.pcAfter .skipEqByte = 2 := by
    decide +kernel
  obtain ⟨hmode, hfaces, hpc, hafter⟩ := hstate
  have hfootprint := step_keeps_to_footprint skipAtEnd hreached.wellFormed hmode
  exact ⟨hreached.wellFormed, hmode, hfaces, hfootprint, hpc,
    (hfootprint.pc _ hfaces).trans hafter⟩

end Machine

end ChipEight
