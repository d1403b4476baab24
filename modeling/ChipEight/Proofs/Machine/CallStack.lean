import ChipEight.Proofs.Machine.WellFormed

/-!
Calls and returns match. A step makes the stack longer by the address behind a
call, or shorter by the address it goes on at, or leaves it alone. Whatever
program runs, also one that changes itself, and whatever keys and timer ticks
come in between, the entries below a call stay until the return of that call,
which goes on right behind it. The depth of the stack is the number of calls
less the number of returns since the machine was switched on.
-/

namespace ChipEight.Machine

/-- A call that finds room pushes the address behind it, which wraps at the
end of memory. -/
theorem step_of_call {m : Machine} (h : m.Faces .call)
    (hroom : m.registers.stack.length < Registers.stackLimit) :
    m.step =
      { machine :=
          { m.fetched with
            registers :=
              { m.fetched.registers with
                stack := ((m.registers.pc + 2) % 4096) :: m.registers.stack
                pc := lowAddress (m.facedInstruction .call).nnn } } } := by
  have hcall : m.fetched.registers.call (m.facedInstruction .call).nnn =
      .ok { m.fetched.registers with
        stack := m.fetched.registers.pc :: m.registers.stack
        pc := lowAddress (m.facedInstruction .call).nnn } := if_pos hroom
  rw [step_of_faces h, ← lowAddress_eq]
  exact onRegisters_of_ok (m := m.fetched) (f := fun r => r.call _) hcall

/-- A call with a full stack stops. -/
theorem step_of_call_full {m : Machine} (h : m.Faces .call)
    (hfull : ¬ m.registers.stack.length < Registers.stackLimit) :
    m.step =
      { machine := m.fetched
        fault := some (.stackOverflow m.fetched.registers.currentAddress
          m.registers.stack.length) } := by
  have hcall : m.fetched.registers.call (m.facedInstruction .call).nnn =
      .error (.stackOverflow m.fetched.registers.currentAddress m.registers.stack.length) :=
    if_neg hfull
  rw [step_of_faces h]
  exact onRegisters_of_error (m := m.fetched) (f := fun r => r.call _) hcall

/-- A return takes the newest entry off the stack and goes on there. -/
theorem step_of_ret {m : Machine} {target : Int} {rest : List Int} (h : m.Faces .ret)
    (hstack : m.registers.stack = target :: rest) :
    m.step =
      { machine :=
          { m.fetched with
            registers := { m.fetched.registers with pc := target, stack := rest } } } := by
  have hret : m.fetched.registers.ret =
      .ok { m.fetched.registers with pc := target, stack := rest } := by
    have hstack' : m.fetched.registers.stack = target :: rest := hstack
    rw [Registers.ret, hstack']
  rw [step_of_faces h]
  exact onRegisters_of_ok (m := m.fetched) hret

/-- A return with an empty stack stops. -/
theorem step_of_ret_empty {m : Machine} (h : m.Faces .ret) (hstack : m.registers.stack = []) :
    m.step =
      { machine := m.fetched
        fault := some (.stackUnderflow m.fetched.registers.currentAddress) } := by
  have hret : m.fetched.registers.ret =
      .error (.stackUnderflow m.fetched.registers.currentAddress) := by
    have hstack' : m.fetched.registers.stack = [] := hstack
    rw [Registers.ret, hstack']
  rw [step_of_faces h]
  exact onRegisters_of_error (m := m.fetched) hret

theorem Completes.call_stack {m : Machine} (h : m.Completes .call) :
    m.step.machine.registers.stack = ((m.registers.pc + 2) % 4096) :: m.registers.stack := by
  obtain ⟨hfaces, hfault⟩ := h
  by_cases hroom : m.registers.stack.length < Registers.stackLimit
  · rw [step_of_call hfaces hroom]
  · rw [step_of_call_full hfaces hroom] at hfault
    cases hfault

theorem Completes.ret_stack {m : Machine} (h : m.Completes .ret) :
    m.registers.stack = m.step.machine.registers.pc :: m.step.machine.registers.stack := by
  obtain ⟨hfaces, hfault⟩ := h
  cases hstack : m.registers.stack with
  | nil =>
      rw [step_of_ret_empty hfaces hstack] at hfault
      cases hfault
  | cons target rest => rw [step_of_ret hfaces hstack]

theorem takeKey_stack (m : Machine) :
    m.takeKey.machine.registers.stack = m.registers.stack := by
  obtain ⟨v, pc, mode, h⟩ := takeKey_frame m
  rw [h]

/-- A step that completes neither a call nor a return leaves the stack alone,
also when it stops. -/
theorem step_stack_of_neither {m : Machine} (hcall : ¬ m.Completes .call)
    (hret : ¬ m.Completes .ret) :
    m.step.machine.registers.stack = m.registers.stack := by
  rcases step_cases m with ⟨op, hfaces, h⟩ | ⟨-, -, -, h⟩ | ⟨-, h⟩
  · by_cases hop : op = .call
    · subst hop
      by_cases hroom : m.registers.stack.length < Registers.stackLimit
      · exact absurd ⟨hfaces, by rw [step_of_call hfaces hroom]⟩ hcall
      · rw [step_of_call_full hfaces hroom]
        rfl
    · by_cases hop' : op = .ret
      · subst hop'
        cases hstack : m.registers.stack with
        | nil =>
            rw [step_of_ret_empty hfaces hstack]
            exact hstack
        | cons target rest =>
            exact absurd ⟨hfaces, by rw [step_of_ret hfaces hstack]⟩ hret
      · rw [h]
        exact (execute_effect m.fetched (m.facedInstruction op)).stack_eq hop hop'
  · rw [h]
    rfl
  · rw [h]
    exact takeKey_stack m

/-- What one event can do to the stack. -/
theorem perform_stack_cases (m : Machine) (e : Event) :
    ((e = .step ∧ m.Completes .call) ∧ ¬ m.Completes .ret ∧
      (m.perform e).machine.registers.stack =
        ((m.registers.pc + 2) % 4096) :: m.registers.stack) ∨
    ((e = .step ∧ m.Completes .ret) ∧ ¬ m.Completes .call ∧
      m.registers.stack =
        (m.perform e).machine.registers.pc :: (m.perform e).machine.registers.stack) ∨
    (¬ (e = .step ∧ m.Completes .call) ∧ ¬ (e = .step ∧ m.Completes .ret) ∧
      (m.perform e).machine.registers.stack = m.registers.stack) := by
  by_cases hstep : e = .step
  · subst hstep
    by_cases hcall : m.Completes .call
    · exact Or.inl ⟨⟨rfl, hcall⟩, hcall.unique (by decide), hcall.call_stack⟩
    · by_cases hret : m.Completes .ret
      · exact Or.inr (Or.inl ⟨⟨rfl, hret⟩, hcall, hret.ret_stack⟩)
      · exact Or.inr (Or.inr ⟨fun h => hcall h.2, fun h => hret h.2,
          step_stack_of_neither hcall hret⟩)
  · refine Or.inr (Or.inr ⟨fun h => hstep h.1, fun h => hstep h.1, ?_⟩)
    cases e with
    | step => exact absurd rfl hstep
    | tick => rfl
    | press key => rfl
    | release key => rfl
    | releaseAll => rfl

/-- One event keeps the entries from a call down, unless it is the return of
that call: then it goes on at the entry of the call and leaves the older ones. -/
theorem perform_suffix {m : Machine} {target : Int} {older : List Int}
    (h : (target :: older) <:+ m.registers.stack) (e : Event) :
    (target :: older) <:+ (m.perform e).machine.registers.stack ∨
    ((m.perform e).machine.registers.pc = target ∧
      (m.perform e).machine.registers.stack = older) := by
  rcases perform_stack_cases m e with ⟨-, -, hpush⟩ | ⟨-, -, hpop⟩ | ⟨-, -, hkeep⟩
  · rw [hpush]
    exact Or.inl (h.trans (List.suffix_cons _ _))
  · rw [hpop] at h
    rcases List.suffix_cons_iff.mp h with hequal | hbelow
    · obtain ⟨rfl, rfl⟩ := List.cons.inj hequal
      exact Or.inr ⟨rfl, rfl⟩
    · exact Or.inl hbelow
  · rw [hkeep]
    exact Or.inl h

/-- While the stack stays deeper than before the call, the entries from the
call down are still there. -/
theorem follow_suffix {m : Machine} {target : Int} {older : List Int}
    (h : (target :: older) <:+ m.registers.stack) (events : List Event)
    (hdeep : ∀ past, past <+: events →
      older.length < (m.follow perform past).registers.stack.length) :
    (target :: older) <:+ (m.follow perform events).registers.stack := by
  induction events generalizing m with
  | nil => exact h
  | cons e rest ih =>
      have hnext : older.length < (m.perform e).machine.registers.stack.length := by
        apply hdeep [e]
        exact ⟨rest, rfl⟩
      apply ih
      · rcases perform_suffix h e with hkept | ⟨-, hreturned⟩
        · exact hkept
        · rw [hreturned] at hnext
          exact absurd hnext (Nat.lt_irrefl _)
      · rintro past ⟨later, rfl⟩
        apply hdeep (e :: past)
        exact ⟨later, rfl⟩

/-- The depth grows by the calls and shrinks by the returns. -/
theorem follow_depth (m : Machine) (events : List Event) :
    (m.follow perform events).registers.stack.length + m.completions .ret events =
      m.registers.stack.length + m.completions .call events := by
  induction events generalizing m with
  | nil => rfl
  | cons e rest ih =>
      have hrest := ih (m.perform e).machine
      simp only [follow, completions]
      rcases perform_stack_cases m e with
        ⟨hcall, hret, h⟩ | ⟨hret, hcall, h⟩ | ⟨hcall, hret, h⟩
      · have hlength := congrArg List.length h
        rw [if_pos hcall, if_neg (fun h => hret h.2)]
        simp only [List.length_cons] at hlength
        omega
      · have hlength := congrArg List.length h
        rw [if_pos hret, if_neg (fun h => hcall h.2)]
        simp only [List.length_cons] at hlength
        omega
      · rw [if_neg hcall, if_neg hret]
        rw [h] at hrest
        omega

/-- After a call, as long as the stack has stayed deeper than before it, the
old entries are at the bottom with the address behind the call on top of them,
and the event that first brings the old depth back goes on at that address with
exactly the old stack. From the moment the machine is switched on, the depth is
the number of calls less the number of returns, and at most sixteen. -/
theorem calls_and_returns_match :
    (∀ (m : Machine) (events : List Event), m.Completes .call →
      (∀ past, past <+: events → m.registers.stack.length <
        (m.step.machine.follow perform past).registers.stack.length) →
      let target := (m.registers.pc + 2) % 4096
      let now := m.step.machine.follow perform events
      (target :: m.registers.stack) <:+ now.registers.stack ∧
      ∀ e, (now.perform e).machine.registers.stack.length ≤ m.registers.stack.length →
        (now.perform e).machine.registers.pc = target ∧
        (now.perform e).machine.registers.stack = m.registers.stack) ∧
    (∀ (m : Machine) (events : List Event), m.PoweredOn →
      ((m.follow perform events).registers.stack.length : Int) =
        m.completions .call events - m.completions .ret events ∧
      (m.follow perform events).registers.stack.length ≤ 16) := by
  constructor
  · intro m events hcall hdeep target now
    have hstart : (target :: m.registers.stack) <:+ m.step.machine.registers.stack :=
      ⟨[], hcall.call_stack.symm⟩
    have hnow : (target :: m.registers.stack) <:+ now.registers.stack :=
      follow_suffix hstart events hdeep
    refine ⟨hnow, fun e hdepth => ?_⟩
    rcases perform_suffix hnow e with hkept | hreturned
    · have hlength := hkept.length_le
      rw [List.length_cons] at hlength
      omega
    · exact hreturned
  · intro m events hon
    have hwell : (m.follow perform events).WellFormed :=
      follow_keeps perform_wellFormed m hon.wellFormed events
    have hempty : m.registers.stack.length = 0 := by
      obtain ⟨seed, entropy, keypad, memory, program, -, rfl⟩ := hon.exists_eq
      rfl
    have hdepth := follow_depth m events
    exact ⟨by omega, hwell.registers.depth⟩

/-- A machine about to carry out a call in the last word of memory, with the
return of the subroutine at its start. -/
def callAtEnd : Machine :=
  { new none ⟨#[1]⟩ {} with
    memory := ((Memory.fresh.write 0xFFE 0x22).write 0xFFF 0x0C).write 0x20D 0xEE
    registers := { pc := 0xFFE } }

theorem callAtEnd_returns_to_start :
    callAtEnd.Completes .call ∧ (callAtEnd.registers.pc + 2) % 4096 = 0 ∧
      ((callAtEnd.step.machine.follow perform [.tick]).perform .step).machine.registers.pc =
        (callAtEnd.registers.pc + 2) % 4096 ∧
      ((callAtEnd.step.machine.follow perform [.tick]).perform .step).machine.registers.stack =
        callAtEnd.registers.stack ∧
      PoweredOn (new none ⟨#[2]⟩ {}) ∧
      ((new none ⟨#[2]⟩ {}).follow perform [.step]).registers.stack.length ≤ 16 := by
  have hcall : callAtEnd.Completes .call := by decide +kernel
  have htick (m : Machine) : (m.follow perform [.tick]).registers.stack = m.registers.stack := rfl
  have hdeep : ∀ past, past <+: [Event.tick] → callAtEnd.registers.stack.length <
      (callAtEnd.step.machine.follow perform past).registers.stack.length := by
    intro past hpast
    rcases List.prefix_cons_iff.mp hpast with rfl | ⟨rest, rfl, hrest⟩
    · rw [follow, hcall.call_stack]
      exact Nat.lt_succ_self _
    · rw [List.prefix_nil.mp hrest, htick, hcall.call_stack]
      exact Nat.lt_succ_self _
  have hback : ((callAtEnd.step.machine.follow perform [.tick]).perform .step
      ).machine.registers.stack.length ≤ callAtEnd.registers.stack.length := by
    decide +kernel
  obtain ⟨hpc, hstack⟩ := (calls_and_returns_match.1 callAtEnd [.tick] hcall hdeep).2 .step hback
  have hon : PoweredOn (new none ⟨#[2]⟩ {}) := .new none ⟨#[2]⟩ {}
  exact ⟨hcall, rfl, hpc, hstack, hon, (calls_and_returns_match.2 _ [.step] hon).2⟩

end ChipEight.Machine
