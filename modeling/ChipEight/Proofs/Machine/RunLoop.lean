import ChipEight.Proofs.Machine.Stopping

/-!
Runs of many steps. A step that ends in a wait for a key ends with no key down,
so further looks for a key find none and do nothing. A run that goes on to the
end of its count and one that breaks off at the first wait therefore end in the
same way, with the same machine, the same fault and the same notices
(`runBatch_eq_run`). A run stops only with a fault of one of its steps.
-/

namespace ChipEight.Machine

/-- A wait for a key begins, and a look for one fails, only while no key is
down. -/
theorem idle_of_step_awaitingKey {m : Machine} (hfault : m.step.fault = none)
    (hwaits : m.step.machine.mode = .awaitingKey) : m.step.machine.keypad.Idle := by
  rcases step_cases m with ⟨op, hfaces, h⟩ | ⟨hmode, -, -, h⟩ | ⟨-, h⟩
  · rw [h] at hwaits ⊢
    have heffect := execute_effect m.fetched (m.facedInstruction op)
    generalize (m.fetched.execute (m.facedInstruction op)).machine = after at heffect hwaits ⊢
    cases heffect with
    | registers _ | paint _ _ _ | store _ _ | random _ _ => cases hfaces.1.symm.trans hwaits
    | park _ hnone => exact (Keypad.lowest?_eq_none_iff m.fetched.keypad).mp hnone
  · rw [h] at hwaits
    cases hmode.symm.trans hwaits
  · rw [h] at hfault hwaits ⊢
    rcases takeKey_cases m with ⟨hnone, h⟩ | ⟨-, h⟩ | ⟨key, k, -, -, -, h⟩
    · rw [h]
      exact (Keypad.lowest?_eq_none_iff m.keypad).mp hnone
    · rw [h] at hfault
      cases hfault
    · rw [h] at hwaits
      cases hwaits

theorem andThen_of_ok {o : Outcome} (h : o.fault = none) :
    o.andThen step =
      { o.machine.step with notices := o.notices ++ o.machine.step.notices } := by
  simp only [Outcome.andThen, h]

theorem runAfter_of_fault {o : Outcome} {fault : Fault} (h : o.fault = some fault)
    (count : Nat) : runAfter o count = o := by
  cases count with
  | zero => rfl
  | succ count => simp only [runAfter, h]

/-- Steps of a machine that waits without a key leave everything as it is. -/
theorem runAfter_of_idle {o : Outcome} (hwaits : o.machine.mode = .awaitingKey)
    (hidle : o.machine.keypad.Idle) (count : Nat) : runAfter o count = o := by
  induction count with
  | zero => rfl
  | succ count ih =>
      unfold runAfter
      cases hfault : o.fault with
      | some fault => rfl
      | none =>
          have hstep : o.machine.step = { machine := o.machine } := by
            rw [step_of_awaitingKey hwaits, takeKey_of_idle hidle]
          have hnext : o.andThen step = o := by
            rw [andThen_of_ok hfault, hstep, Array.append_empty, ← hfault]
          dsimp only
          rw [hnext, ih]

theorem batchAfter_eq_runAfter (o : Outcome) (count : Nat) :
    batchAfter o count = runAfter o count := by
  induction count generalizing o with
  | zero => rfl
  | succ count ih =>
      unfold batchAfter runAfter
      cases hfault : o.fault with
      | some fault => rfl
      | none =>
          dsimp only
          rw [andThen_of_ok hfault]
          dsimp only
          cases hmode : o.machine.step.machine.mode with
          | running => exact ih _
          | awaitingKey =>
              -- The batch ends here; the run goes on, but nothing more happens.
              cases hstopped : o.machine.step.fault with
              | some fault => exact (runAfter_of_fault rfl count).symm
              | none =>
                  symm
                  apply runAfter_of_idle
                  · exact hmode
                  · exact idle_of_step_awaitingKey hstopped hmode

/-- Breaking off at a wait for a key makes no difference. -/
theorem runBatch_eq_run (m : Machine) (count : Nat) : m.runBatch count = m.run count :=
  batchAfter_eq_runAfter { machine := m } count

/-- What is true of the faults of all steps is true of the fault of a run. -/
theorem runAfter_fault {P : Machine → Prop} {Q : Fault → Prop}
    (hkeeps : ∀ m : Machine, P m → P m.step.machine)
    (hstep : ∀ m : Machine, P m → ∀ fault, m.step.fault = some fault → Q fault)
    (o : Outcome) (ho : P o.machine) (hstart : ∀ fault, o.fault = some fault → Q fault)
    (count : Nat) : ∀ fault, (runAfter o count).fault = some fault → Q fault := by
  induction count generalizing o with
  | zero => exact hstart
  | succ count ih =>
      cases hfault : o.fault with
      | some fault =>
          rw [runAfter_of_fault hfault]
          exact hstart
      | none =>
          simp only [runAfter, hfault]
          rw [andThen_of_ok hfault]
          apply ih
          · exact hkeeps o.machine ho
          · exact hstep o.machine ho

theorem Reachable.run_fault {m : Machine} (hm : m.Reachable) {count : Nat} {fault : Fault}
    (h : (m.run count).fault = some fault) :
    (∃ pc, fault = .stackOverflow pc 16) ∨ ∃ pc, fault = .stackUnderflow pc := by
  refine runAfter_fault (P := fun m => m.WellFormed ∧ m.Parked)
    (Q := fun fault => (∃ pc, fault = .stackOverflow pc 16) ∨ ∃ pc, fault = .stackUnderflow pc)
    ?_ ?_ { machine := m } ⟨hm.wellFormed, hm.parked⟩ (by simp) count fault h
  · rintro m ⟨hwell, hparked⟩
    exact ⟨step_wellFormed m hwell, step_parked m hparked⟩
  · rintro m ⟨hwell, hparked⟩ fault hfault
    rcases step_fault_cases hwell hparked with ⟨-, h⟩ | ⟨-, h⟩ | h
    · rw [h] at hfault
      exact Or.inl ⟨_, (Option.some.inj hfault).symm⟩
    · rw [h] at hfault
      exact Or.inr ⟨_, (Option.some.inj hfault).symm⟩
    · rw [h] at hfault
      cases hfault

end ChipEight.Machine
