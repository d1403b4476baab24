import ChipEight.Proofs.Machine.Footprint
import ChipEight.Proofs.Machine.RunLoop

/-!
What a run reports. A step counts as a cycle exactly when the machine was
running before it, so the count of a run that does not stop is the number of
its steps that began running. A machine that runs steps on until it waits for a
key, and with the keypad as it is it then waits for the rest of the run: all
steps that count come first. A run of `a + b` steps is a run of `a` steps and,
if that did not stop, a run of `b` steps from there (`run_add`).
-/

namespace ChipEight

namespace Outcome

theorem andThen_of_fault {o : Outcome} {fault : Fault} (h : o.fault = some fault)
    (next : Machine → Outcome) : o.andThen next = o := by
  simp only [andThen, h]

theorem andThen_assoc (o : Outcome) (first second : Machine → Outcome) :
    (o.andThen first).andThen second = o.andThen fun m => (first m).andThen second := by
  cases hfault : o.fault with
  | some fault => simp only [andThen, hfault]
  | none =>
      cases hfirst : (first o.machine).fault with
      | some fault => simp only [andThen, hfault, hfirst]
      | none => simp only [andThen, hfault, hfirst, Array.append_assoc]

theorem machine_andThen (m : Machine) (next : Machine → Outcome) :
    ({ machine := m } : Outcome).andThen next = next m := by
  simp [andThen]

theorem andThen_machine (o : Outcome) : (o.andThen fun m => { machine := m }) = o := by
  cases hfault : o.fault with
  | some fault => exact andThen_of_fault hfault _
  | none =>
      simp only [andThen, hfault, Array.append_empty]
      rw [← hfault]

/-- A sequence ends without a fault only if both parts do. -/
theorem andThen_ok {o : Outcome} {next : Machine → Outcome} (h : (o.andThen next).fault = none) :
    o.fault = none ∧ (next o.machine).fault = none ∧
      (o.andThen next).machine = (next o.machine).machine := by
  cases hfault : o.fault with
  | some fault =>
      rw [andThen_of_fault hfault, hfault] at h
      cases h
  | none =>
      simp only [andThen, hfault] at h ⊢
      exact ⟨trivial, h, trivial⟩

end Outcome

namespace Machine

theorem runAfter_succ (o : Outcome) (count : Nat) :
    runAfter o (count + 1) = runAfter (o.andThen step) count := by
  cases hfault : o.fault with
  | some fault =>
      rw [Outcome.andThen_of_fault hfault, runAfter_of_fault hfault, runAfter_of_fault hfault]
  | none => simp only [runAfter, hfault]

theorem runAfter_eq (o : Outcome) (count : Nat) :
    runAfter o count = o.andThen (·.run count) := by
  induction count generalizing o with
  | zero => exact (Outcome.andThen_machine o).symm
  | succ count ih =>
      have hrun (m : Machine) : m.run (count + 1) = m.step.andThen (·.run count) := by
        rw [run, runAfter_succ, Outcome.machine_andThen, ih]
      calc runAfter o (count + 1)
          = (o.andThen step).andThen (·.run count) := by rw [runAfter_succ, ih]
        _ = o.andThen fun m => m.step.andThen (·.run count) := Outcome.andThen_assoc o _ _
        _ = o.andThen (·.run (count + 1)) := by simp only [hrun]

theorem run_succ (m : Machine) (count : Nat) :
    m.run (count + 1) = m.step.andThen (·.run count) := by
  rw [run, runAfter_succ, Outcome.machine_andThen, runAfter_eq]

theorem run_add (m : Machine) (a b : Nat) : m.run (a + b) = (m.run a).andThen (·.run b) := by
  induction a generalizing m with
  | zero =>
      rw [Nat.zero_add]
      exact (Outcome.machine_andThen m (·.run b)).symm
  | succ a ih =>
      rw [Nat.succ_add, run_succ, run_succ, Outcome.andThen_assoc]
      simp only [ih]

theorem run_eq_follow_steps {m : Machine} {count : Nat} (h : (m.run count).fault = none) :
    (m.run count).machine = m.follow perform (List.replicate count .step) := by
  induction count generalizing m with
  | zero => rfl
  | succ count ih =>
      rw [run_succ] at h ⊢
      obtain ⟨-, hrest, hmachine⟩ := Outcome.andThen_ok h
      rw [hmachine, ih hrest]
      rfl

/-- How many of the next steps begin running. -/
def runningSteps (m : Machine) : Nat → Nat
  | 0 => 0
  | count + 1 => (if m.mode = .running then 1 else 0) + m.step.machine.runningSteps count

theorem runningSteps_le (m : Machine) (count : Nat) : m.runningSteps count ≤ count := by
  induction count generalizing m with
  | zero => exact Nat.le_refl 0
  | succ count ih =>
      have hrest := ih m.step.machine
      unfold runningSteps
      split <;> omega

/-- A step counts as a cycle exactly when it begins running. -/
theorem step_cycles (m : Machine) :
    m.step.machine.cycles = m.cycles + if m.mode = .running then 1 else 0 := by
  rcases step_cases m with ⟨op, hfaces, h⟩ | ⟨hmode, -, -, h⟩ | ⟨hmode, h⟩
  · rw [h, (execute_effect m.fetched (m.facedInstruction op)).fetch_eq.2, if_pos hfaces.1]
    rfl
  · rw [h, if_pos hmode]
    rfl
  · obtain ⟨v, pc, mode, htake⟩ := takeKey_frame m
    rw [h, htake, hmode]
    rfl

theorem run_cycles {m : Machine} {count : Nat} (h : (m.run count).fault = none) :
    (m.run count).machine.cycles = m.cycles + m.runningSteps count := by
  induction count generalizing m with
  | zero => rfl
  | succ count ih =>
      rw [run_succ] at h ⊢
      obtain ⟨-, hrest, hmachine⟩ := Outcome.andThen_ok h
      rw [hmachine, ih hrest, step_cycles, runningSteps]
      omega

theorem run_of_idle {m : Machine} (hwaits : m.mode = .awaitingKey) (hidle : m.keypad.Idle)
    (count : Nat) : m.run count = { machine := m } :=
  runAfter_of_idle (o := { machine := m }) hwaits hidle count

theorem runningSteps_of_idle {m : Machine} (hwaits : m.mode = .awaitingKey)
    (hidle : m.keypad.Idle) (count : Nat) : m.runningSteps count = 0 := by
  have hcycles : (m.run count).machine.cycles = m.cycles + m.runningSteps count :=
    run_cycles (by rw [run_of_idle hwaits hidle])
  rw [run_of_idle hwaits hidle] at hcycles
  exact Nat.left_eq_add.mp hcycles

/-- A running machine makes all the steps that count first, and is idle in a
wait for a key if there are fewer of them than steps. -/
theorem run_eq_follow {m : Machine} {count : Nat} (hmode : m.mode = .running)
    (h : (m.run count).fault = none) :
    (m.run count).machine = m.follow perform (List.replicate (m.runningSteps count) .step) ∧
      (m.runningSteps count < count →
        (m.run count).machine.mode = .awaitingKey ∧ (m.run count).machine.keypad.Idle) := by
  induction count generalizing m with
  | zero => exact ⟨rfl, fun hless => absurd hless (Nat.lt_irrefl 0)⟩
  | succ count ih =>
      rw [run_succ] at h ⊢
      obtain ⟨hstep, hrest, hmachine⟩ := Outcome.andThen_ok h
      rw [hmachine, runningSteps, if_pos hmode, Nat.add_comm 1, List.replicate_succ]
      cases hnext : m.step.machine.mode with
      | running =>
          obtain ⟨hfollow, hidle⟩ := ih hnext hrest
          exact ⟨hfollow, fun hless => hidle (by omega)⟩
      | awaitingKey =>
          -- The step found no key down, so none of the later ones does.
          have hidle := idle_of_step_awaitingKey hstep hnext
          rw [run_of_idle hnext hidle, runningSteps_of_idle hnext hidle]
          exact ⟨rfl, fun _ => ⟨hnext, hidle⟩⟩

/-- A run of a running machine that does not stop reports how many of its steps
began running, and ends where that many steps lead; if these are not all its
steps, it ends in a wait for a key with no key down. A machine in such a wait
stays as it is and reports nothing. A run can be cut in two, and the reports of
the parts add up. -/
theorem run_reports_running_steps (m : Machine) :
    (∀ n, m.mode = .running → (m.run n).fault = none →
      let count := (m.run n).machine.cyclesSince m
      0 ≤ count ∧ count ≤ n ∧ count = m.runningSteps n ∧
      (m.run n).machine = m.follow perform (List.replicate count.toNat .step) ∧
      (count < n →
        (m.run n).machine.mode = .awaitingKey ∧ (m.run n).machine.keypad.Idle)) ∧
    (m.mode = .awaitingKey → m.keypad.Idle → ∀ n,
      m.run n = { machine := m } ∧ (m.run n).machine.cyclesSince m = 0) ∧
    (∀ a b, m.run (a + b) = (m.run a).andThen (·.run b) ∧
      ((m.run (a + b)).fault = none →
        (m.run a).fault = none ∧ ((m.run a).machine.run b).fault = none ∧
        (m.run (a + b)).machine = ((m.run a).machine.run b).machine ∧
        (m.run (a + b)).machine.cyclesSince m =
          (m.run a).machine.cyclesSince m +
            ((m.run a).machine.run b).machine.cyclesSince (m.run a).machine)) := by
  refine ⟨fun n hmode hfault => ?_, fun hwaits hidle n => ?_, fun a b => ⟨run_add m a b, ?_⟩⟩
  · intro count
    have hcount : count = m.runningSteps n := by
      have hcycles := run_cycles hfault
      simp only [count, cyclesSince]
      omega
    have hle := runningSteps_le m n
    obtain ⟨hfollow, hidle⟩ := run_eq_follow hmode hfault
    rw [hcount, Int.toNat_natCast]
    exact ⟨by omega, by omega, rfl, hfollow, fun hless => hidle (by omega)⟩
  · rw [run_of_idle hwaits hidle]
    exact ⟨rfl, by simp [cyclesSince]⟩
  · intro hfault
    rw [run_add] at hfault ⊢
    obtain ⟨hfirst, hsecond, hmachine⟩ := Outcome.andThen_ok hfault
    refine ⟨hfirst, hsecond, hmachine, ?_⟩
    rw [hmachine]
    simp only [cyclesSince]
    omega

/-- A program of one instruction and a wait for a key. -/
def shortProgram : Machine :=
  afterRun [0x60, 0x01, 0xF2, 0x0A] 0

theorem shortProgram_reports_two :
    shortProgram.mode = .running ∧ (shortProgram.run (1 + 5)).fault = none ∧
      (shortProgram.run (1 + 5)).machine.cyclesSince shortProgram = 2 ∧
      (shortProgram.run (1 + 5)).machine = shortProgram.follow perform [.step, .step] ∧
      (shortProgram.run (1 + 5)).machine.mode = .awaitingKey ∧
      (shortProgram.run (1 + 5)).machine.run 9 = { machine := (shortProgram.run (1 + 5)).machine } ∧
      ((shortProgram.run 1).machine.run 5).machine = (shortProgram.run (1 + 5)).machine := by
  have hstate : shortProgram.mode = .running ∧ (shortProgram.run (1 + 5)).fault = none ∧
      shortProgram.runningSteps 6 = 2 := by
    decide +kernel
  obtain ⟨hmode, hfault, htwo⟩ := hstate
  obtain ⟨hruns, -, hcut⟩ := run_reports_running_steps shortProgram
  obtain ⟨-, -, hcount, hfollow, hwaits⟩ := hruns (1 + 5) hmode hfault
  rw [htwo] at hcount
  rw [hcount] at hfollow hwaits
  obtain ⟨hwaiting, hidle⟩ := hwaits (by decide)
  obtain ⟨-, -, hsame, -⟩ := (hcut 1 5).2 hfault
  obtain ⟨-, hstays, -⟩ := run_reports_running_steps (shortProgram.run (1 + 5)).machine
  exact ⟨hmode, hfault, hcount, hfollow, hwaiting, (hstays hwaiting hidle 9).1, hsame.symm⟩

end Machine

end ChipEight
