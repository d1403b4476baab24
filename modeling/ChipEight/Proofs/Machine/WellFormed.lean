import ChipEight.Proofs.Machine.History

/-!
Every number in the machine stays in its range, whatever is done to it. The
registers hold whole numbers, and the operations cut them at different places:
a general register and the two addresses when they are written, memory when it
is stored to, a timer and a popped address not at all. The ranges therefore
hold together or not at all, as one invariant (`WellFormed`). The lengths of
the register file, of memory, of the screen and of the keypad are part of their
types.
-/

namespace ChipEight

/-- Every register holds a number of its width, and the stack is not too deep. -/
structure Registers.InRange (r : Registers) : Prop where
  values : ∀ k : Fin 16, 0 ≤ r.v.get k ∧ r.v.get k ≤ 255
  index : 0 ≤ r.index ∧ r.index ≤ 4095
  pc : 0 ≤ r.pc ∧ r.pc ≤ 4095
  delay : 0 ≤ r.delay ∧ r.delay ≤ 255
  sound : 0 ≤ r.sound ∧ r.sound ≤ 255
  depth : r.stack.length ≤ 16
  frames : ∀ address ∈ r.stack, 0 ≤ address ∧ address ≤ 4095

/-- The invariant of the whole machine. -/
structure Machine.WellFormed (m : Machine) : Prop where
  registers : m.registers.InRange
  word : m.word ≤ 65535
  program : m.program.length ≤ 3584

namespace Registers

theorem lowAddress_inRange (n : Int) : (0 : Int) ≤ lowAddress n ∧ (lowAddress n : Int) ≤ 4095 := by
  have hsmall := lowAddress_lt n
  omega

theorem initial_inRange : InRange {} := by
  have hzero (k : Fin 16) : (Vector.replicate 16 (0 : Int)).get k = 0 := by
    change (Vector.replicate 16 (0 : Int))[k.val] = 0
    simp
  refine ⟨fun k => ?_, by decide, by decide, by decide, by decide, by decide, ?_⟩
  · rw [hzero]
    decide
  · intro address member
    cases member

theorem ValuesOnly.inRange {r r' : Registers} (h : ValuesOnly r r') (hr : r.InRange) :
    r'.InRange := by
  have hvalues (k : Fin 16) : 0 ≤ r'.v.get k ∧ r'.v.get k ≤ 255 := by
    rcases h.bytes k with hkept | hbyte
    · rw [hkept]
      exact hr.values k
    · exact hbyte
  rw [h.rest]
  exact { hr with values := hvalues }

/-- A call stores the program counter and a return takes it back, so the
entries of the stack are addresses because the program counter is one. -/
theorem Change.inRange {i : Instruction} {r r' : Registers} (h : Change i r r')
    (hr : r.InRange) : r'.InRange := by
  cases h with
  | values h => exact h.inRange hr
  | goTo target => exact { hr with pc := lowAddress_inRange target }
  | call hop hroom =>
      refine { hr with pc := lowAddress_inRange i.nnn, depth := hroom, frames := ?_ }
      intro address member
      rcases List.mem_cons.mp member with rfl | hold
      · exact hr.pc
      · exact hr.frames address hold
  | ret hop hstack =>
      have hframes := hr.frames
      have hdepth := hr.depth
      rw [hstack] at hframes hdepth
      refine { hr with pc := hframes _ (by simp), depth := ?_, frames := ?_ }
      · exact Nat.le_of_succ_le hdepth
      · intro address member
        exact hframes address (List.mem_cons_of_mem _ member)
  | point address => exact { hr with index := lowAddress_inRange address }
  | startDelay hop k => exact { hr with delay := hr.values k }
  | startSound hop k => exact { hr with sound := hr.values k }

theorem countDown_inRange {n : Int} (h : 0 ≤ n ∧ n ≤ 255) :
    0 ≤ countDown n ∧ countDown n ≤ 255 := by
  unfold countDown
  split <;> omega

theorem tick_inRange {r : Registers} (hr : r.InRange) : r.tick.InRange :=
  { hr with delay := countDown_inRange hr.delay, sound := countDown_inRange hr.sound }

end Registers

namespace Machine

theorem atPowerOn_wellFormed (seed : Option Int) (entropy : Entropy) (keypad : Keypad)
    (memory : Memory) {program : List UInt8} (h : program.length ≤ 3584) :
    (atPowerOn seed entropy keypad memory program).WellFormed :=
  ⟨Registers.initial_inRange, Nat.zero_le _, h⟩

theorem PoweredOn.wellFormed {m : Machine} (h : PoweredOn m) : m.WellFormed := by
  obtain ⟨seed, entropy, keypad, memory, program, hfits, rfl⟩ := h.exists_eq
  exact atPowerOn_wellFormed seed entropy keypad memory hfits

theorem Effect.wellFormed {i : Instruction} {m m' : Machine} (h : Effect i m m')
    (hm : m.WellFormed) : m'.WellFormed := by
  cases h with
  | registers h => exact { hm with registers := h.inRange hm.registers }
  | paint hop screen h => exact { hm with registers := h.inRange hm.registers }
  | store hop memory => exact { hm with }
  | random hop h => exact { hm with registers := h.inRange hm.registers }
  | park hop hnone =>
      exact { hm with
        registers := { hm.registers with pc := Registers.lowAddress_inRange _ } }

theorem fetch_wellFormed {m : Machine} (hm : m.WellFormed) : m.fetch.WellFormed := by
  have hword := m.memory.wordAt_lt m.registers.pc
  exact { hm with
    registers := { hm.registers with pc := Registers.lowAddress_inRange _ }
    word := Nat.le_of_lt_succ hword }

theorem takeKey_wellFormed {m : Machine} (hm : m.WellFormed) :
    m.takeKey.machine.WellFormed := by
  rcases takeKey_cases m with ⟨-, h⟩ | ⟨-, h⟩ | ⟨key, k, -, -, -, h⟩
  · rw [h]
    exact hm
  · rw [h]
    exact hm
  · rw [h]
    have hput := (Registers.put_valuesOnly m.registers k key.val).inRange hm.registers
    exact { hm with
      registers := { hput with pc := Registers.lowAddress_inRange _ } }

theorem step_wellFormed (m : Machine) (hm : m.WellFormed) : m.step.machine.WellFormed := by
  have hfetched : m.fetched.WellFormed := { fetch_wellFormed hm with }
  rcases step_cases m with ⟨op, -, h⟩ | ⟨-, -, -, h⟩ | ⟨-, h⟩
  · rw [h]
    exact (execute_effect m.fetched (m.facedInstruction op)).wellFormed hfetched
  · rw [h]
    exact hfetched
  · rw [h]
    exact takeKey_wellFormed hm

theorem perform_wellFormed (m : Machine) (e : Event) (hm : m.WellFormed) :
    (m.perform e).machine.WellFormed := by
  cases e with
  | step => exact step_wellFormed m hm
  | tick => exact { hm with registers := Registers.tick_inRange hm.registers }
  | press key => exact { hm with }
  | release key => exact { hm with }
  | releaseAll => exact { hm with }

theorem load_wellFormed {m : Machine} (hm : m.WellFormed) (entropy : Entropy)
    (program : List UInt8) : (m.load entropy program).machine.WellFormed := by
  rcases load_cases m entropy program with ⟨hfits, -, memory, -, h⟩ | ⟨-, -, h⟩
  · rw [h]
    exact atPowerOn_wellFormed m.seed entropy m.keypad memory hfits
  · rw [h]
    exact hm

theorem reset_wellFormed {m : Machine} (hm : m.WellFormed) (entropy : Entropy) :
    (m.reset entropy).machine.WellFormed := by
  rcases reset_cases m entropy with ⟨hfits, -, memory, -, h⟩ | ⟨-, -, h⟩
  · rw [h]
    exact atPowerOn_wellFormed m.seed entropy m.keypad.clear memory hfits
  · rw [h]
    exact hm

theorem patch_wellFormed {m : Machine} (hm : m.WellFormed) (image : List UInt8) :
    (m.patch image).machine.WellFormed := by
  unfold patch
  split
  · exact hm
  · exact { hm with }

theorem obey_wellFormed (m : Machine) (c : Command) (hm : m.WellFormed) :
    (m.obey c).machine.WellFormed := by
  cases c with
  | event e => exact perform_wellFormed m e hm
  | run count => exact run_keeps step_wellFormed m hm count
  | load entropy program => exact load_wellFormed hm entropy program
  | reset entropy => exact reset_wellFormed hm entropy

theorem Reachable.wellFormed {m : Machine} (h : m.Reachable) : m.WellFormed :=
  h.keeps (fun seed entropy keypad => (PoweredOn.new seed entropy keypad).wellFormed)
    obey_wellFormed

/-- An operation on the registers keeps the ranges if all it does to them is
what some instruction could do. -/
theorem onRegisters_wellFormed {m : Machine} (hm : m.WellFormed) (i : Instruction)
    {f : Registers → Except Fault Registers}
    (hf : ∀ r, f m.registers = .ok r → m.registers.Change i r) :
    (m.onRegisters f).machine.WellFormed :=
  (onRegisters_effect hf).wellFormed hm

theorem access_wellFormed (m : Machine) (a : Access) (hm : m.WellFormed) :
    (m.access a).machine.WellFormed := by
  cases a with
  | command c => exact obey_wellFormed m c hm
  | fetch => exact fetch_wellFormed hm
  | execute i => exact (execute_effect m i).wellFormed hm
  | set k value =>
      exact onRegisters_wellFormed hm { op := .loadByte } fun r h =>
        .values (Registers.set_valuesOnly h)
  | combine op dst src =>
      exact onRegisters_wellFormed hm { op := .copyReg } fun r h =>
        .values (Registers.combine_valuesOnly h)
  | combineNamed name dst src =>
      exact onRegisters_wellFormed hm { op := .copyReg } fun r h =>
        .values (Registers.combineNamed_valuesOnly h)
  | addTo k amount =>
      exact onRegisters_wellFormed hm { op := .addByte } fun r h =>
        .values (Registers.addTo_valuesOnly h)
  | jump target => exact (execute_effect m { op := .jump, nnn := target }).wellFormed hm
  | skip => exact { hm with
      registers := { hm.registers with pc := Registers.lowAddress_inRange _ } }
  | call target => exact (execute_effect m { op := .call, nnn := target }).wellFormed hm
  | ret => exact (execute_effect m { op := .ret }).wellFormed hm
  | setIndex address => exact (execute_effect m { op := .setIndex, nnn := address }).wellFormed hm
  | pointAtGlyph digit =>
      have hchange := Registers.pointAtGlyph_change { op := .pointAtGlyph } m.registers digit
      exact { hm with registers := hchange.inRange hm.registers }
  | write address value => exact { hm with }
  | patch image => exact patch_wellFormed hm image
  | draw x y rows => exact { hm with }
  | clearScreen => exact { hm with }

/-- From a new machine on, every history of operations on the machine and on
its parts, with any numbers and past any faults, leaves all numbers in their
ranges. -/
theorem accesses_keep_ranges (seed : Option Int) (entropy : Entropy) (keypad : Keypad)
    (accesses : List Access) :
    let m := (new seed entropy keypad).follow access accesses
    m.WellFormed ∧
      m.registers.v.toList.length = 16 ∧ m.memory.cells.toList.length = 4096 ∧
      m.screen.cells.toList.length = 2048 ∧ m.keypad.held.toList.length = 16 := by
  intro m
  have hnew := (PoweredOn.new seed entropy keypad).wellFormed
  exact ⟨follow_keeps access_wellFormed _ hnew accesses, by simp, by simp, by simp, by simp⟩

end Machine

end ChipEight
