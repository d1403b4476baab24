import ChipEight.Proofs.Machine.Unseen
import ChipEight.Proofs.Machine.Waiting

/-!
Waiting for a key and having it already. An instruction that waits for a key
either finds one down and takes it at once, or parks the machine until a later
step finds one. Both ways lead to the same machine, however often the parked
machine looked in vain and whatever ticks and keys came in between; only the
number of the waiting register is left behind by the second (`park_follow`).
That number is not read again before the next wait writes it, so two machines
that differ in it cannot be told apart (`SameButWait`).
-/

namespace ChipEight.Machine

/-- The machine parked on the instruction at the program counter. -/
def park (m : Machine) (x : Fin 16) : Machine :=
  { m.fetched with
    registers := { m.fetched.registers with pc := m.fetched.registers.currentAddress }
    waitRegister := x.val
    mode := .awaitingKey }

/-- The machine runs into an instruction that waits for a key. -/
structure MeetsWait (m : Machine) (x : Fin 16) : Prop where
  mode : m.mode = .running
  word : m.memory.wordAt m.registers.pc = 0xF00A + 256 * x.val

theorem MeetsWait.faces {m : Machine} {x : Fin 16} (h : m.MeetsWait x) :
    m.Faces .awaitKey := by
  have hword := h.word
  have hsmall := x.isLt
  refine ⟨h.mode, ?_, ?_⟩ <;> omega

theorem MeetsWait.step_eq {m : Machine} {x : Fin 16} (h : m.MeetsWait x) :
    m.step = m.fetched.awaitKey x.val := by
  have hfield : (m.facedInstruction .awaitKey).x = x.val := by
    have hword := h.word
    have hsmall := x.isLt
    change ((m.memory.wordAt m.registers.pc / 256 % 16 : Nat) : Int) = x.val
    omega
  rw [step_of_faces h.faces, ← hfield]
  rfl

theorem MeetsWait.step_of_idle {m : Machine} {x : Fin 16} (h : m.MeetsWait x)
    (hidle : m.keypad.Idle) : m.step.machine = m.park x := by
  have hnone : m.fetched.keypad.lowest? = none := (Keypad.lowest?_eq_none_iff _).mpr hidle
  rw [h.step_eq, awaitKey, hnone]
  rfl

theorem MeetsWait.step_of_key {m : Machine} {x key : Fin 16} (h : m.MeetsWait x)
    (hkey : m.keypad.lowest? = some key) :
    m.step =
      { machine := { m.fetched with registers := m.fetched.registers.put x key.val } } := by
  have hkey' : m.fetched.keypad.lowest? = some key := hkey
  have hset : m.fetched.registers.set x.val key.val = .ok (m.fetched.registers.put x key.val) := by
    rw [Registers.set, nibble?_natCast]
  rw [h.step_eq, awaitKey, hkey']
  exact onRegisters_of_ok (f := fun r => r.set x.val key.val) hset

/-- A parked machine that finds a key ends where the instruction ends that
finds the key at once: going on behind the instruction after parking on it is
the same as never having moved back. -/
theorem MeetsWait.park_step_of_key {m : Machine} {x key : Fin 16} (h : m.MeetsWait x)
    (hkey : m.keypad.lowest? = some key) :
    (m.park x).step.fault = none ∧
      (m.park x).step.machine = { m.step.machine with waitRegister := x.val } := by
  have hpc : lowAddress (m.fetched.registers.currentAddress + 2) =
      lowAddress (m.registers.pc + 2) := by
    rw [currentAddress_fetched]
    unfold lowAddress
    omega
  have hregisters : ((m.park x).registers.put x key.val).skip =
      m.fetched.registers.put x key.val := by
    change { m.fetched.registers.put x key.val with
      pc := (lowAddress (m.fetched.registers.currentAddress + 2) : Int) } = _
    rw [hpc]
    rfl
  obtain ⟨hfault, hmachine⟩ := takeKey_of_key (m := m.park x) rfl hkey
  rw [step_of_awaitingKey (m := m.park x) rfl, h.step_of_key hkey]
  refine ⟨hfault, ?_⟩
  rw [hmachine, hregisters, ← h.mode]
  rfl

/-- With a key down, a parked machine and one that is about to park take the
same key and go on behind the instruction. -/
theorem MeetsWait.both_ways {m : Machine} {x : Fin 16} (h : m.MeetsWait x)
    (hkey : ¬ m.keypad.Idle) :
    (m.park x).step.fault = none ∧ m.step.fault = none ∧
      (m.park x).step.machine = { m.step.machine with waitRegister := x.val } ∧
      m.step.machine.mode = .running ∧
      ∃ key, m.step.machine.keypad.IsLowest key ∧
        m.step.machine.registers.v.get x = key.val := by
  cases hlowest : m.keypad.lowest? with
  | none => exact absurd ((Keypad.lowest?_eq_none_iff m.keypad).mp hlowest) hkey
  | some key =>
      obtain ⟨hfault, hmachine⟩ := h.park_step_of_key hlowest
      have hvalue : (m.fetched.registers.put x key.val).v.get x = key.val := by
        have hsmall := key.isLt
        rw [Registers.get_put, if_pos rfl, lowByte_of_lt (by omega)]
      rw [hmachine, h.step_of_key hlowest]
      exact ⟨hfault, rfl, rfl, h.mode, key, Keypad.isLowest_of_lowest? hlowest, hvalue⟩

/-- Ticks and keys do not depend on whether the machine is parked. -/
theorem park_perform (m : Machine) (x : Fin 16) {e : Event} (he : e ≠ .step) :
    ((m.park x).perform e).machine = (m.perform e).machine.park x := by
  cases e with
  | step => exact absurd rfl he
  | tick => rfl
  | press key => rfl
  | release key => rfl
  | releaseAll => rfl

theorem MeetsWait.perform {m : Machine} {x : Fin 16} (h : m.MeetsWait x) {e : Event}
    (he : e ≠ .step) : (m.perform e).machine.MeetsWait x := by
  cases e with
  | step => exact absurd rfl he
  | tick => exact ⟨h.mode, h.word⟩
  | press key => exact ⟨h.mode, h.word⟩
  | release key => exact ⟨h.mode, h.word⟩
  | releaseAll => exact ⟨h.mode, h.word⟩

/-- A parked machine that looks for a key only while none is down goes through
a history as the machine that is not yet parked goes through its ticks and
keys. -/
theorem park_follow {m : Machine} {x : Fin 16} (h : m.MeetsWait x) (events : List Event)
    (hidle : ∀ before later, events = before ++ .step :: later →
      ((m.park x).follow perform before).keypad.Idle) :
    (m.follow perform (events.filter (· ≠ .step))).MeetsWait x ∧
      (m.park x).follow perform events =
        (m.follow perform (events.filter (· ≠ .step))).park x := by
  induction events generalizing m with
  | nil => exact ⟨h, rfl⟩
  | cons e rest ih =>
      by_cases he : e = .step
      · subst he
        have hnow : (m.park x).keypad.Idle := hidle [] rest rfl
        have hstays : ((m.park x).perform .step).machine = m.park x := by
          change (m.park x).step.machine = m.park x
          rw [step_of_awaitingKey (m := m.park x) rfl, takeKey_of_idle hnow]
        have hrest := ih h fun before later hsplit => by
          have hlater := hidle (.step :: before) later (by rw [hsplit]; rfl)
          rwa [follow, hstays] at hlater
        rw [follow, hstays]
        simpa using hrest
      · have hrest := ih (h.perform he) fun before later hsplit => by
          have hlater := hidle (e :: before) later (by rw [hsplit]; rfl)
          rwa [follow, park_perform m x he] at hlater
        rw [follow, park_perform m x he]
        simpa [he, follow] using hrest

/-- The machine with another number for the waiting register. -/
def setWait (m : Machine) (number : Int) : Machine := { m with waitRegister := number }

/-- An outcome with another number for the waiting register. -/
def withWait (o : Outcome) (number : Int) : Outcome :=
  { o with machine := o.machine.setWait number }

theorem onRegisters_setWait (m : Machine) (number : Int)
    (f : Registers → Except Fault Registers) :
    (m.setWait number).onRegisters f = withWait (m.onRegisters f) number := by
  have hsame : (m.setWait number).registers = m.registers := rfl
  cases h : f m.registers with
  | error fault =>
      rw [onRegisters_of_error h, onRegisters_of_error (hsame ▸ h)]
      rfl
  | ok r =>
      rw [onRegisters_of_ok h, onRegisters_of_ok (hsame ▸ h)]
      rfl

/-- No instruction but the wait itself looks at the waiting register or
changes it. -/
theorem execute_setWait (m : Machine) (number : Int) (i : Instruction)
    (hop : i.op ≠ .awaitKey) :
    (m.setWait number).execute i = withWait (m.execute i) number := by
  by_cases htimers : i.op ∈ Operation.onTimers
  · unfold execute
    simp only [Operation.onTimers, List.mem_cons, List.not_mem_nil, or_false] at htimers
    rcases htimers with h | h | h
    all_goals
      rw [h]
      exact onRegisters_setWait m number _
  · exact execute_mapUnseen m id (fun _ => number) i htimers hop

/-- Two machines that a program, a key or a tick cannot tell apart: they are
the same, or they run and at most the number of the waiting register differs. -/
inductive SameButWait (m : Machine) : Machine → Prop where
  | same : SameButWait m m
  | stale (hmode : m.mode = .running) (number : Int) : SameButWait m (m.setWait number)

theorem SameButWait.eq_setWait {m m' : Machine} (h : SameButWait m m') :
    m' = m.setWait m'.waitRegister := by
  cases h with
  | same => rfl
  | stale hmode number => rfl

theorem SameButWait.waitRegister_eq {m m' : Machine} (h : SameButWait m m')
    (hwaits : m.mode = .awaitingKey) : m.waitRegister = m'.waitRegister := by
  cases h with
  | same => rfl
  | stale hmode number =>
      rw [hmode] at hwaits
      cases hwaits

/-- Outcomes with the same fault and with machines that cannot be told apart. -/
structure Alike (o o' : Outcome) : Prop where
  fault : o.fault = o'.fault
  machine : SameButWait o.machine o'.machine

theorem Alike.refl (o : Outcome) : Alike o o := ⟨rfl, .same⟩

theorem alike_withWait {o : Outcome} (hmode : o.machine.mode = .running) (number : Int) :
    Alike o (withWait o number) :=
  ⟨rfl, .stale hmode number⟩

theorem awaitKey_alike {m : Machine} (hmode : m.mode = .running) (number x : Int) :
    Alike (m.awaitKey x) ((m.setWait number).awaitKey x) := by
  have hsame : (m.setWait number).keypad = m.keypad := rfl
  unfold awaitKey
  rw [hsame]
  cases m.keypad.lowest? with
  | none => exact .refl _
  | some key =>
      have heffect := onRegisters_effect (i := { op := .loadByte }) (m := m)
        (f := fun r => r.set x key.val) fun r h => .values (Registers.set_valuesOnly h)
      change Alike _ ((m.setWait number).onRegisters _)
      rw [onRegisters_setWait]
      exact alike_withWait ((heffect.mode_eq (by decide)).trans hmode) number

/-- A running machine does the same whatever the waiting register says, and a
wait writes it anew. -/
theorem execute_alike {m : Machine} (hmode : m.mode = .running) (number : Int)
    (i : Instruction) : Alike (m.execute i) ((m.setWait number).execute i) := by
  by_cases hop : i.op = .awaitKey
  · have hexecute (n : Machine) : n.execute i = n.awaitKey i.x := by
      unfold execute
      rw [hop]
    rw [hexecute, hexecute]
    exact awaitKey_alike hmode number i.x
  · rw [execute_setWait m number i hop]
    exact alike_withWait (((execute_effect m i).mode_eq hop).trans hmode) number

theorem step_alike {m m' : Machine} (h : SameButWait m m') : Alike m.step m'.step := by
  cases h with
  | same => exact .refl m.step
  | stale hmode number =>
      have hmode' : (m.setWait number).mode = .running := hmode
      rw [step_of_running hmode, step_of_running hmode']
      change Alike _ ((m.fetched.setWait number).carryOut
        ((Operation.ofWord? (m.memory.wordAt m.registers.pc)).map m.facedInstruction))
      cases (Operation.ofWord? (m.memory.wordAt m.registers.pc)).map m.facedInstruction with
      | none => exact ⟨rfl, .stale (m := m.fetched) hmode number⟩
      | some i => exact execute_alike (m := m.fetched) hmode number i

theorem perform_alike {m m' : Machine} (h : SameButWait m m') (e : Event) :
    Alike (m.perform e) (m'.perform e) := by
  cases h with
  | same => exact .refl _
  | stale hmode number =>
      cases e with
      | step => exact step_alike (.stale hmode number)
      | tick => exact alike_withWait (o := m.perform .tick) hmode number
      | press key => exact alike_withWait (o := m.perform (.press key)) hmode number
      | release key => exact alike_withWait (o := m.perform (.release key)) hmode number
      | releaseAll => exact alike_withWait (o := m.perform .releaseAll) hmode number

theorem runAfter_alike {o o' : Outcome} (h : Alike o o') (count : Nat) :
    Alike (runAfter o count) (runAfter o' count) := by
  induction count generalizing o o' with
  | zero => exact h
  | succ count ih =>
      unfold runAfter
      rw [← h.fault]
      cases hfault : o.fault with
      | some fault => exact h
      | none =>
          have hfault' : o'.fault = none := h.fault ▸ hfault
          have hstep := step_alike h.machine
          apply ih
          simp only [Outcome.andThen, hfault, hfault']
          exact ⟨hstep.fault, hstep.machine⟩

theorem obey_alike {m m' : Machine} (h : SameButWait m m') (c : Command) :
    Alike (m.obey c) (m'.obey c) := by
  cases c with
  | event e => exact perform_alike h e
  | run count =>
      have hstart : Alike { machine := m } { machine := m' } := ⟨rfl, h⟩
      exact runAfter_alike hstart count
  | load entropy program =>
      cases h with
      | same => exact .refl _
      | stale hmode number =>
          change Alike (m.load entropy program) ((m.setWait number).load entropy program)
          unfold load
          cases Memory.fresh.load program with
          | error fault => exact ⟨rfl, .stale hmode number⟩
          | ok memory => exact .refl _
  | reset entropy =>
      cases h with
      | same => exact .refl _
      | stale hmode number =>
          change Alike (m.reset entropy) ((m.setWait number).reset entropy)
          have hsame : (m.setWait number).program = m.program := rfl
          unfold reset
          rw [hsame]
          cases Memory.fresh.load m.program with
          | error fault => exact ⟨rfl, .stale hmode number⟩
          | ok memory => exact .refl _

/-- Machines that cannot be told apart stay so, and meet the same faults. -/
theorem follow_alike {m m' : Machine} (h : SameButWait m m') (commands : List Command) :
    SameButWait (m.follow obey commands) (m'.follow obey commands) ∧
      m.faults obey commands = m'.faults obey commands := by
  induction commands generalizing m m' with
  | nil => exact ⟨h, rfl⟩
  | cons c rest ih =>
      have hfirst := obey_alike h c
      obtain ⟨hmachine, hfaults⟩ := ih hfirst.machine
      refine ⟨hmachine, ?_⟩
      simp only [faults, hfirst.fault, hfaults]

/-- A wait for a key and a key that is there already lead to the same machine
but for the number of the waiting register, whatever ticks and keys come in
between and however often the parked machine looks in vain. That number is
never seen again: running machines that differ in it alone go through every
list of commands alike, with the same faults, and agree on it when they wait. A
command that powers the machine on carries its entropy, which is the same for
both, so this holds of machines without a seed as well. -/
theorem waiting_agrees_with_key_at_hand :
    (∀ (m : Machine) (x : Fin 16) (events : List Event), m.mode = .running →
      m.memory.wordAt m.registers.pc = 0xF00A + 256 * x.val → m.keypad.Idle →
      (∀ before later, events = before ++ .step :: later →
        (m.step.machine.follow perform before).keypad.Idle) →
      ¬ (m.step.machine.follow perform events).keypad.Idle →
      let polled := (m.step.machine.follow perform events).step
      let direct := (m.follow perform (events.filter (· ≠ .step))).step
      polled.fault = none ∧ direct.fault = none ∧
      polled.machine = { direct.machine with waitRegister := x.val } ∧
      direct.machine.mode = .running ∧
      ∃ key, direct.machine.keypad.IsLowest key ∧
        direct.machine.registers.v.get x = key.val) ∧
    (∀ (m : Machine) (number : Int) (commands : List Command), m.mode = .running →
      let m' := { m with waitRegister := number }
      let after := m.follow obey commands
      let after' := m'.follow obey commands
      after' = { after with waitRegister := after'.waitRegister } ∧
      m.faults obey commands = m'.faults obey commands ∧
      (after.mode = .awaitingKey → after.waitRegister = after'.waitRegister)) := by
  constructor
  · intro m x events hmode hword hidle hpolls hkey polled direct
    have hmeets : m.MeetsWait x := ⟨hmode, hword⟩
    have hparks := hmeets.step_of_idle hidle
    rw [hparks] at hpolls hkey
    obtain ⟨hmeets', hfollow⟩ := park_follow hmeets events hpolls
    have hpolled : polled = ((m.follow perform (events.filter (· ≠ .step))).park x).step := by
      rw [← hfollow, ← hparks]
    rw [hfollow] at hkey
    rw [hpolled]
    exact hmeets'.both_ways hkey
  · intro m number commands hmode m' after after'
    obtain ⟨hsame, hfaults⟩ := follow_alike (.stale hmode number) commands
    exact ⟨hsame.eq_setWait, hfaults, hsame.waitRegister_eq⟩

/-- A machine about to wait for a key, with no key down and a timer on. -/
def aboutToWait : Machine :=
  { new none ⟨#[1]⟩ {} with
    memory := (Memory.fresh.write 0 0xF3).write 1 0x0A
    registers := { pc := 0, delay := 9 } }

theorem aboutToWait_both_ways :
    aboutToWait.mode = .running ∧ aboutToWait.keypad.Idle ∧
      (aboutToWait.step.machine.follow perform [.tick, .step, .press 7]).step.machine =
        { (aboutToWait.follow perform [.tick, .press 7]).step.machine with waitRegister := 3 } ∧
      aboutToWait.seed = none ∧
      aboutToWait.faults obey [.reset ⟨#[2]⟩, .run 5] =
        Machine.faults { aboutToWait with waitRegister := 12 } obey [.reset ⟨#[2]⟩, .run 5] ∧
      (Machine.follow { aboutToWait with waitRegister := 12 } obey
          [.reset ⟨#[2]⟩, .run 5]).generator =
        (aboutToWait.follow obey [.reset ⟨#[2]⟩, .run 5]).generator := by
  have hword : aboutToWait.memory.wordAt aboutToWait.registers.pc =
      0xF00A + 256 * (3 : Fin 16).val := by decide +kernel
  have hidle : aboutToWait.keypad.Idle := by decide +kernel
  have hpolls : ∀ before later, [Event.tick, .step, .press 7] = before ++ .step :: later →
      (aboutToWait.step.machine.follow perform before).keypad.Idle := by
    intro before later hsplit
    have hbefore : before = [.tick] := by
      rcases before with _ | ⟨first, _ | ⟨second, _ | ⟨third, rest⟩⟩⟩ <;> simp_all
    rw [hbefore]
    decide +kernel
  have hkey : ¬ (aboutToWait.step.machine.follow perform
      [.tick, .step, .press 7]).keypad.Idle := by decide +kernel
  obtain ⟨hways, hstale⟩ := waiting_agrees_with_key_at_hand
  obtain ⟨-, -, hsame, -, -⟩ :=
    hways aboutToWait 3 [.tick, .step, .press 7] rfl hword hidle hpolls hkey
  obtain ⟨hrest, hfaults, -⟩ := hstale aboutToWait 12 [.reset ⟨#[2]⟩, .run 5] rfl
  refine ⟨rfl, hidle, hsame, rfl, hfaults, ?_⟩
  rw [hrest]

end ChipEight.Machine
