import ChipEight.Proofs.Machine.History
import ChipEight.Proofs.Machine.Memory

/-!
A machine that waits for a key is parked on the instruction that made it wait.
The mode, the program counter, the fetched word, the waiting register and
memory are written by different operations, and they agree in every machine
that commands can bring about (`Parked`). The instruction may lie across the
end of memory: the fetch wraps the program counter, and parking wraps it back.
So a look for a key always has a register to put it in, and without a key it
changes nothing.
-/

namespace ChipEight

theorem nibble?_natCast (k : Fin 16) : nibble? (k.val : Int) = some k := by
  have hsmall := k.isLt
  rw [nibble?, dif_pos (by omega)]
  rfl

namespace Keypad

/-- No key is down. -/
def Idle (p : Keypad) : Prop := ∀ k : Fin 16, p.held.get k = false

instance (p : Keypad) : Decidable p.Idle := inferInstanceAs (Decidable (∀ _, _))

/-- The key is down, and no lower one is. -/
def IsLowest (p : Keypad) (key : Fin 16) : Prop :=
  p.held.get key = true ∧ ∀ k < key, p.held.get k = false

theorem lowest?_eq_none_iff (p : Keypad) : p.lowest? = none ↔ p.Idle := by
  simp [lowest?, down, Idle]

theorem isLowest_of_lowest? {p : Keypad} {key : Fin 16} (h : p.lowest? = some key) :
    p.IsLowest key := by
  rw [lowest?, down, List.head?_filter, List.find?_eq_some_iff_append] at h
  obtain ⟨hdown, before, later, hsplit, hup⟩ := h
  refine ⟨hdown, fun k hk => ?_⟩
  have hordered := List.pairwise_lt_finRange 16
  have hmember : k ∈ List.finRange 16 := List.mem_finRange k
  rw [hsplit] at hordered hmember
  have hlater : ∀ j ∈ later, key < j :=
    (List.pairwise_cons.mp (List.pairwise_append.mp hordered).2.1).1
  -- The keys are searched in ascending order, so a lower one was seen before.
  rcases List.mem_append.mp hmember with hbefore | htail
  · simpa using hup k hbefore
  · rcases List.mem_cons.mp htail with rfl | hafter
    · exact absurd hk (Fin.lt_irrefl k)
    · exact absurd hk (Fin.lt_asymm (hlater k hafter))

end Keypad

namespace Machine

/-- The machine stands on the instruction that waits for a key to go into a
register, and that instruction was fetched last. -/
structure WaitsFor (m : Machine) (x : Fin 16) : Prop where
  register : m.waitRegister = x.val
  word : m.word = 0xF00A + 256 * x.val
  parked : m.memory.wordAt m.registers.pc = m.word

/-- A machine that waits is parked on the instruction it waits for. -/
def Parked (m : Machine) : Prop := m.mode = .awaitingKey → ∃ x, m.WaitsFor x

theorem parked_of_running {m : Machine} (h : m.mode = .running) : m.Parked := by
  intro hwaits
  rw [h] at hwaits
  cases hwaits

/-- Parking undoes the move of the fetch, also where the fetch wrapped. -/
theorem currentAddress_fetched (m : Machine) :
    m.fetched.registers.currentAddress = lowAddress m.registers.pc := by
  change ((lowAddress (lowAddress (m.registers.pc + 2) - 2) : Nat) : Int) = _
  simp only [lowAddress_eq]
  omega

/-- The register field of the word of a waiting instruction. -/
theorem word_of_awaitKey {w : Nat} (h : Operation.awaitKey.pattern.Matches w) :
    w = 0xF00A + 256 * (w / 256 % 16) := by
  obtain ⟨hfamily, hlow⟩ := h
  omega

theorem step_parked (m : Machine) (hm : m.Parked) : m.step.machine.Parked := by
  rcases step_cases m with ⟨op, hfaces, h⟩ | ⟨hmode, -, -, h⟩ | ⟨hmode, h⟩
  · rw [h]
    have heffect := execute_effect m.fetched (m.facedInstruction op)
    generalize (m.fetched.execute (m.facedInstruction op)).machine = after at heffect
    -- Only the last of the effects leaves a machine that waits.
    cases heffect with
    | registers _ => exact parked_of_running hfaces.1
    | paint _ _ _ => exact parked_of_running hfaces.1
    | store _ _ => exact parked_of_running hfaces.1
    | random _ _ => exact parked_of_running hfaces.1
    | park hop _ =>
        have hop : op = .awaitKey := hop
        rw [hop] at hfaces
        have hword := word_of_awaitKey hfaces.2
        intro _
        refine ⟨⟨m.memory.wordAt m.registers.pc / 256 % 16, by omega⟩, rfl, hword, ?_⟩
        change m.memory.wordAt m.fetched.registers.currentAddress = _
        rw [currentAddress_fetched, Memory.wordAt_lowAddress]
        rfl
  · rw [h]
    exact parked_of_running hmode
  · rw [h]
    rcases takeKey_cases m with ⟨-, h⟩ | ⟨-, h⟩ | ⟨key, k, -, -, -, h⟩
    · rw [h]
      exact hm
    · rw [h]
      exact hm
    · rw [h]
      exact parked_of_running rfl

/-- Ticks and keys touch nothing that a waiting machine stands on. -/
theorem perform_parked (m : Machine) (e : Event) (hm : m.Parked) :
    (m.perform e).machine.Parked := by
  cases e with
  | step => exact step_parked m hm
  | tick | press _ | release _ | releaseAll =>
      intro hwaits
      obtain ⟨x, hx⟩ := hm hwaits
      exact ⟨x, hx.register, hx.word, hx.parked⟩

theorem obey_parked (m : Machine) (c : Command) (hm : m.Parked) : (m.obey c).machine.Parked := by
  cases c with
  | event e => exact perform_parked m e hm
  | run count => exact run_keeps step_parked m hm count
  | load entropy program =>
      change (m.load entropy program).machine.Parked
      rcases load_cases m entropy program with ⟨-, -, memory, -, h⟩ | ⟨-, -, h⟩
      · rw [h]
        exact parked_of_running rfl
      · rw [h]
        exact hm
  | reset entropy =>
      change (m.reset entropy).machine.Parked
      rcases reset_cases m entropy with ⟨-, -, memory, -, h⟩ | ⟨-, -, h⟩
      · rw [h]
        exact parked_of_running rfl
      · rw [h]
        exact hm

theorem Reachable.parked {m : Machine} (h : m.Reachable) : m.Parked :=
  h.keeps (fun _ _ _ => parked_of_running rfl) obey_parked

theorem takeKey_of_key {m : Machine} {x key : Fin 16} (hregister : m.waitRegister = x.val)
    (hkey : m.keypad.lowest? = some key) :
    m.takeKey.fault = none ∧
      m.takeKey.machine =
        { m with registers := (m.registers.put x key.val).skip, mode := .running } := by
  rcases takeKey_cases m with
    ⟨hnone, -⟩ | ⟨hnone, -⟩ | ⟨found, k, hfound, hk, hfault, hmachine⟩
  · rw [hkey] at hnone
    cases hnone
  · rw [hregister, nibble?_natCast] at hnone
    cases hnone
  · rw [hkey] at hfound
    rw [hregister, nibble?_natCast] at hk
    obtain rfl := Option.some.inj hfound
    obtain rfl := Option.some.inj hk
    exact ⟨hfault, hmachine⟩

theorem takeKey_of_idle {m : Machine} (h : m.keypad.Idle) : m.takeKey = { machine := m } := by
  rw [takeKey, (Keypad.lowest?_eq_none_iff m.keypad).mpr h]

/-- A look for a key has a register to put it in. -/
theorem WaitsFor.takeKey_fault {m : Machine} {x : Fin 16} (h : m.WaitsFor x) :
    m.takeKey.fault = none := by
  cases hkey : m.keypad.lowest? with
  | none => rw [takeKey_of_idle ((Keypad.lowest?_eq_none_iff m.keypad).mp hkey)]
  | some key => exact (takeKey_of_key h.register hkey).1

/-- In every machine that commands can bring about from a new one, a wait for a
key has a register to fill, its instruction is the word fetched last and the
word at the program counter, a step does not stop, and while no key is down a
step does nothing at all. -/
theorem waiting_machine_is_parked (seed : Option Int) (entropy : Entropy) (keypad : Keypad)
    (commands : List Command) :
    let m := (new seed entropy keypad).follow obey commands
    m.mode = .awaitingKey →
      (0 ≤ m.waitRegister ∧ m.waitRegister ≤ 15) ∧
      (m.word : Int) = 0xF00A + 256 * m.waitRegister ∧
      m.memory.wordAt m.registers.pc = m.word ∧
      m.step.fault = none ∧
      (m.keypad.Idle → m.step = { machine := m }) := by
  intro m hmode
  have hparked : m.Parked :=
    follow_keeps obey_parked (new seed entropy keypad) (parked_of_running rfl) commands
  obtain ⟨x, hx⟩ := hparked hmode
  have hsmall := x.isLt
  have hregister := hx.register
  have hword := hx.word
  rw [step_of_awaitingKey hmode]
  exact ⟨by omega, by omega, hx.parked, hx.takeKey_fault, takeKey_of_idle⟩

/-- A program that stores a waiting instruction across the end of memory and
jumps to it, after its six steps. -/
def parkedAcrossEnd : Machine :=
  afterRun [0x60, 0xF3, 0x61, 0x0A, 0xAF, 0xFF, 0xF1, 0x55, 0x1F, 0xFF] 6

theorem parkedAcrossEnd_is_parked :
    parkedAcrossEnd.mode = .awaitingKey ∧ parkedAcrossEnd.registers.pc = 0xFFF ∧
      parkedAcrossEnd.keypad.Idle ∧
      (parkedAcrossEnd.word : Int) = 0xF00A + 256 * parkedAcrossEnd.waitRegister ∧
      parkedAcrossEnd.step = { machine := parkedAcrossEnd } := by
  have hreached : parkedAcrossEnd.mode = .awaitingKey ∧
      parkedAcrossEnd.registers.pc = 0xFFF ∧ parkedAcrossEnd.keypad.Idle := by
    decide +kernel
  obtain ⟨hmode, hpc, hidle⟩ := hreached
  obtain ⟨-, hword, -, -, hstep⟩ := waiting_machine_is_parked none _ {} _ hmode
  exact ⟨hmode, hpc, hidle, hword, hstep hidle⟩

end Machine

end ChipEight
