import ChipEight.Proofs.Machine.Unseen
import ChipEight.Proofs.Machine.WellFormed

/-!
Steps and ticks in any order. A step that neither reads nor sets a timer and a
tick can be exchanged: the step does the same, with the same fault, and the
tick finds the same timers (`tick_step`). So as long as no step is about a
timer, it does not matter where among the steps of a run the ticks fall. That
no step is about a timer does not depend on the order either, since a tick
touches nothing that the next word is read from.
-/

namespace ChipEight

theorem Registers.countDown_eq {n : Int} (h : 0 ≤ n) : countDown n = max 0 (n - 1) := by
  unfold countDown
  split <;> omega

namespace Machine

def tickAfter (o : Outcome) : Outcome := { o with machine := o.machine.tick }

theorem awaitKey_tick (m : Machine) (x : Int) : m.tick.awaitKey x = tickAfter (m.awaitKey x) := by
  have hsame : m.tick.keypad = m.keypad := rfl
  unfold awaitKey
  rw [hsame]
  cases m.keypad.lowest? with
  | none => rfl
  | some key =>
      exact onRegisters_mapUnseen m Registers.countDown id (Registers.set_ignoresTimers x _)

theorem execute_tick (m : Machine) {i : Instruction} (h : i.op ∉ Operation.onTimers) :
    m.tick.execute i = tickAfter (m.execute i) := by
  by_cases hwait : i.op = .awaitKey
  · unfold execute
    rw [hwait]
    exact awaitKey_tick m i.x
  · exact execute_mapUnseen m Registers.countDown id i h hwait

theorem takeKey_tick (m : Machine) : m.tick.takeKey = tickAfter m.takeKey := by
  have hkeypad : m.tick.keypad = m.keypad := rfl
  have hregister : m.tick.waitRegister = m.waitRegister := rfl
  unfold takeKey
  rw [hkeypad, hregister]
  cases m.keypad.lowest? with
  | none => rfl
  | some key =>
      cases hk : nibble? m.waitRegister with
      | none =>
        simp only [Registers.set, hk]
        rfl
      | some k =>
        simp only [Registers.set, hk]
        rfl

def FacesTimer (m : Machine) : Prop := ∃ op ∈ Operation.onTimers, m.Faces op

instance (m : Machine) : Decidable m.FacesTimer :=
  inferInstanceAs (Decidable (∃ op ∈ Operation.onTimers, m.Faces op))

/-- A tick before a step that is not about a timer might as well come after it. -/
theorem tick_step {m : Machine} (h : ¬ m.FacesTimer) : m.tick.step = tickAfter m.step := by
  cases hmode : m.mode with
  | awaitingKey =>
      have hmode' : m.tick.mode = .awaitingKey := hmode
      rw [step_of_awaitingKey hmode, step_of_awaitingKey hmode']
      exact takeKey_tick m
  | running =>
      have hmode' : m.tick.mode = .running := hmode
      have hword' : m.tick.memory.wordAt m.tick.registers.pc = m.memory.wordAt m.registers.pc := rfl
      rw [step_of_running hmode, step_of_running hmode', hword']
      cases hword : Operation.ofWord? (m.memory.wordAt m.registers.pc) with
      | none => rfl
      | some op =>
          have hfaces : m.Faces op := ⟨hmode, Operation.matches_of_ofWord? hword⟩
          have hop : op ∉ Operation.onTimers := fun hmember => h ⟨op, hmember, hfaces⟩
          exact execute_tick m.fetched (i := m.facedInstruction op) hop

/-- No step along a history is about a timer. -/
def LeavesTimers (m : Machine) : List Event → Prop
  | [] => True
  | e :: rest => (e = .step → ¬ m.FacesTimer) ∧ (m.perform e).machine.LeavesTimers rest

instance decidableLeavesTimers :
    (m : Machine) → (events : List Event) → Decidable (m.LeavesTimers events)
  | _, [] => inferInstanceAs (Decidable True)
  | m, e :: rest =>
    have := decidableLeavesTimers (m.perform e).machine rest
    inferInstanceAs (Decidable (_ ∧ _))

/-- The faults of the steps along a history, one entry for each step. -/
def stepFaults (m : Machine) : List Event → List (Option Fault)
  | [] => []
  | e :: rest =>
    if e = .step then m.step.fault :: (m.perform e).machine.stepFaults rest
    else (m.perform e).machine.stepFaults rest

/-- The second history is not about a timer, and ends as the first does. -/
structure GoesAlike (m : Machine) (events events' : List Event) : Prop where
  leaves : m.LeavesTimers events'
  faults : m.stepFaults events' = m.stepFaults events
  machine : m.follow perform events' = m.follow perform events

theorem GoesAlike.refl {m : Machine} {events : List Event} (h : m.LeavesTimers events) :
    m.GoesAlike events events :=
  ⟨h, rfl, rfl⟩

theorem GoesAlike.trans {m : Machine} {events events' events'' : List Event}
    (first : m.GoesAlike events events') (second : m.GoesAlike events' events'') :
    m.GoesAlike events events'' :=
  ⟨second.leaves, second.faults.trans first.faults, second.machine.trans first.machine⟩

theorem GoesAlike.cons {m : Machine} {e : Event} {events events' : List Event}
    (hnow : e = .step → ¬ m.FacesTimer)
    (h : (m.perform e).machine.GoesAlike events events') :
    m.GoesAlike (e :: events) (e :: events') := by
  refine ⟨⟨hnow, h.leaves⟩, ?_, h.machine⟩
  simp only [stepFaults, h.faults]

/-- A step and a tick in both orders, with the same history after them. -/
theorem exchange_step_tick {m : Machine} (h : ¬ m.FacesTimer) (rest : List Event) :
    (m.LeavesTimers (.tick :: .step :: rest) ↔ m.LeavesTimers (.step :: .tick :: rest)) ∧
      m.stepFaults (.tick :: .step :: rest) = m.stepFaults (.step :: .tick :: rest) ∧
      m.follow perform (.tick :: .step :: rest) = m.follow perform (.step :: .tick :: rest) := by
  have hmachine : m.tick.step.machine = m.step.machine.tick := by
    rw [tick_step h]
    rfl
  have hfault : m.tick.step.fault = m.step.fault := by
    rw [tick_step h]
    rfl
  have htick : ¬ m.tick.FacesTimer := h
  refine ⟨?_, ?_, ?_⟩
  · simp [LeavesTimers, perform, hmachine, h, htick]
  · simp [stepFaults, perform, hmachine, hfault]
  · simp only [follow, perform, hmachine]

theorem goesAlike_swap {m : Machine} {first second : Event} {rest : List Event}
    (hfirst : first = .step ∨ first = .tick) (hsecond : second = .step ∨ second = .tick)
    (h : m.LeavesTimers (first :: second :: rest)) :
    m.GoesAlike (first :: second :: rest) (second :: first :: rest) := by
  rcases hfirst with rfl | rfl <;> rcases hsecond with rfl | rfl
  · exact .refl h
  · obtain ⟨hleaves, hfaults, hmachine⟩ := exchange_step_tick (h.1 rfl) rest
    exact ⟨hleaves.mpr h, hfaults, hmachine⟩
  · -- The tick touched neither memory nor the program counter.
    have hnow : ¬ m.FacesTimer := h.2.1 rfl
    obtain ⟨hleaves, hfaults, hmachine⟩ := exchange_step_tick hnow rest
    exact ⟨hleaves.mp h, hfaults.symm, hmachine.symm⟩
  · exact .refl h

theorem goesAlike_of_perm {events events' : List Event} (h : events.Perm events') (m : Machine)
    (hevents : ∀ e ∈ events, e = .step ∨ e = .tick) (hleaves : m.LeavesTimers events) :
    m.GoesAlike events events' := by
  induction h generalizing m with
  | nil => exact .refl hleaves
  | cons e _ ih =>
      apply GoesAlike.cons hleaves.1
      apply ih
      · intro e' he'
        exact hevents e' (by simp [he'])
      · exact hleaves.2
  | swap second first rest =>
      exact goesAlike_swap (hevents first (by simp)) (hevents second (by simp)) hleaves
  | trans hfirst _ ih ih' =>
      -- That no step is about a timer is given for the first order only, and
      -- the first half of the rearrangement carries it to the middle.
      have hmiddle := ih m hevents hleaves
      apply hmiddle.trans
      apply ih' m
      · intro e he
        exact hevents e (hfirst.mem_iff.mpr he)
      · exact hmiddle.leaves

theorem step_timers {m : Machine} (h : ¬ m.FacesTimer) :
    m.step.machine.registers.delay = m.registers.delay ∧
      m.step.machine.registers.sound = m.registers.sound := by
  rcases step_cases m with ⟨op, hfaces, hstep⟩ | ⟨-, -, -, hstep⟩ | ⟨-, hstep⟩
  · have hop : op ∉ Operation.onTimers := fun hmember => h ⟨op, hmember, hfaces⟩
    have heffect := execute_effect m.fetched (m.facedInstruction op)
    rw [hstep]
    constructor
    · apply heffect.delay_eq
      rintro rfl
      exact hop (by decide)
    · apply heffect.sound_eq
      rintro rfl
      exact hop (by decide)
  · rw [hstep]
    exact ⟨rfl, rfl⟩
  · obtain ⟨v, pc, mode, htake⟩ := takeKey_frame m
    rw [hstep, htake]
    exact ⟨rfl, rfl⟩

/-- A timer that steps leave alone runs down by one for each tick, to zero. -/
theorem follow_timers {m : Machine} (hdelay : 0 ≤ m.registers.delay)
    (hsound : 0 ≤ m.registers.sound) {events : List Event}
    (hevents : ∀ e ∈ events, e = .step ∨ e = .tick) (hleaves : m.LeavesTimers events) :
    (m.follow perform events).registers.delay =
        max 0 (m.registers.delay - events.count .tick) ∧
      (m.follow perform events).registers.sound =
        max 0 (m.registers.sound - events.count .tick) := by
  induction events generalizing m with
  | nil =>
      simp only [follow, List.count_nil]
      omega
  | cons e rest ih =>
      obtain ⟨hnow, hlater⟩ := hleaves
      have hrest : ∀ e' ∈ rest, e' = .step ∨ e' = .tick := by
        intro e' he'
        exact hevents e' (by simp [he'])
      rcases hevents e (by simp) with rfl | rfl
      · obtain ⟨hkept, hkept'⟩ := step_timers (hnow rfl)
        have htimers := ih (m := m.step.machine) (by omega) (by omega) hrest hlater
        rw [hkept, hkept'] at htimers
        rw [List.count_cons_of_ne (by decide)]
        exact htimers
      · have hticked : m.tick.registers.delay = max 0 (m.registers.delay - 1) :=
          Registers.countDown_eq hdelay
        have hticked' : m.tick.registers.sound = max 0 (m.registers.sound - 1) :=
          Registers.countDown_eq hsound
        have htimers := ih (m := m.tick) (by omega) (by omega) hrest hlater
        rw [hticked, hticked'] at htimers
        change (m.tick.follow perform rest).registers.delay = _ ∧
          (m.tick.follow perform rest).registers.sound = _
        rw [List.count_cons_self]
        omega

/-- The order in which `n` steps and `k` ticks fall makes no difference while no
step is about a timer: in every other order no step is about one either, the
same steps stop with the same faults, and the machine ends the same, with each
timer run down by `k`. -/
theorem ticks_and_steps_interleave (m : Machine) (hm : m.WellFormed) (n k : Nat)
    (events events' : List Event)
    (h : events.Perm (List.replicate n .step ++ List.replicate k .tick))
    (h' : events'.Perm (List.replicate n .step ++ List.replicate k .tick))
    (hleaves : m.LeavesTimers events) :
    m.LeavesTimers events' ∧
      m.stepFaults events' = m.stepFaults events ∧
      m.follow perform events' = m.follow perform events ∧
      (m.follow perform events).registers.delay = max 0 (m.registers.delay - k) ∧
      (m.follow perform events).registers.sound = max 0 (m.registers.sound - k) := by
  have hevents : ∀ e ∈ events, e = .step ∨ e = .tick := by
    intro e he
    have hmember := h.mem_iff.mp he
    rw [List.mem_append, List.mem_replicate, List.mem_replicate] at hmember
    rcases hmember with ⟨-, hstep⟩ | ⟨-, htick⟩
    · exact Or.inl hstep
    · exact Or.inr htick
  have hticks : events.count .tick = k := by
    rw [h.count_eq]
    simp [List.count_replicate]
  obtain ⟨hleaves', hfaults, hmachine⟩ := goesAlike_of_perm (h.trans h'.symm) m hevents hleaves
  have htimers := follow_timers hm.registers.delay.1 hm.registers.sound.1 hevents hleaves
  rw [hticks] at htimers
  exact ⟨hleaves', hfaults, hmachine, htimers⟩

/-- A machine with both timers at two, about to return from nowhere again and
again. -/
def ticking : Machine :=
  afterRun [0x60, 0x02, 0xF0, 0x15, 0xF0, 0x18, 0x00, 0xEE, 0x12, 0x06] 3

theorem ticking_in_two_orders :
    ticking.WellFormed ∧
      ticking.LeavesTimers [.step, .tick, .step, .tick, .tick, .step] ∧
      ticking.stepFaults [.step, .tick, .step, .tick, .tick, .step] =
        [some (.stackUnderflow 0x206), none, some (.stackUnderflow 0x206)] ∧
      ticking.stepFaults [.tick, .tick, .tick, .step, .step, .step] =
        ticking.stepFaults [.step, .tick, .step, .tick, .tick, .step] ∧
      ticking.follow perform [.tick, .tick, .tick, .step, .step, .step] =
        ticking.follow perform [.step, .tick, .step, .tick, .tick, .step] ∧
      (ticking.follow perform [.step, .tick, .step, .tick, .tick, .step]).registers.delay =
        max 0 (ticking.registers.delay - 3) := by
  have hreached : ticking.Reachable := afterRun_reachable _ _
  have hrun : ticking.LeavesTimers [.step, .tick, .step, .tick, .tick, .step] ∧
      ticking.stepFaults [.step, .tick, .step, .tick, .tick, .step] =
        [some (.stackUnderflow 0x206), none, some (.stackUnderflow 0x206)] := by
    decide +kernel
  obtain ⟨-, hfaults, hmachine, hdelay, -⟩ :=
    ticks_and_steps_interleave ticking hreached.wellFormed 3 3
      [.step, .tick, .step, .tick, .tick, .step] [.tick, .tick, .tick, .step, .step, .step]
      (by decide) (by decide) hrun.1
  exact ⟨hreached.wellFormed, hrun.1, hrun.2, hfaults, hmachine, hdelay⟩

end Machine

end ChipEight
