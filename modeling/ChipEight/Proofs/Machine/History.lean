import ChipEight.Proofs.Machine.Effect

/-!
What a machine goes through. Events happen to a machine that stays powered on;
commands add runs of many steps, loading and resetting; accesses add the direct
use of its parts. A history is a list of these, carried out one after another,
and it goes on after an operation that stopped with a fault, with what that
operation left behind. A property that every single operation keeps holds along
every history (`follow_keeps`), and a run keeps what a step keeps (`run_keeps`).
-/

namespace ChipEight

/-- What happens to a machine that stays powered on. -/
inductive Event where
  | step
  | tick
  | press (key : Int)
  | release (key : Int)
  | releaseAll
  deriving DecidableEq

/-- What a host asks of a machine. -/
inductive Command where
  | event (e : Event)
  | run (count : Nat)
  | load (entropy : Entropy) (program : List UInt8)
  | reset (entropy : Entropy)

/-- What can be done to a machine and to its parts. -/
inductive Access where
  | command (c : Command)
  | fetch
  | execute (i : Instruction)
  | set (k value : Int)
  | combine (op : ByteOp) (dst src : Int)
  | combineNamed (name : String) (dst src : Int)
  | addTo (k amount : Int)
  | jump (target : Int)
  | skip
  | call (target : Int)
  | ret
  | setIndex (address : Int)
  | pointAtGlyph (digit : Int)
  | write (address value : Int)
  | patch (image : List UInt8)
  | draw (x y : Int) (rows : List Int)
  | clearScreen

namespace Machine

def perform (m : Machine) : Event → Outcome
  | .step => m.step
  | .tick => { machine := m.tick }
  | .press key => { machine := { m with keypad := m.keypad.press key } }
  | .release key => { machine := { m with keypad := m.keypad.release key } }
  | .releaseAll => { machine := { m with keypad := m.keypad.clear } }

def obey (m : Machine) : Command → Outcome
  | .event e => m.perform e
  | .run count => m.run count
  | .load entropy program => m.load entropy program
  | .reset entropy => m.reset entropy

def access (m : Machine) : Access → Outcome
  | .command c => m.obey c
  | .fetch => { machine := m.fetch }
  | .execute i => m.execute i
  | .set k value => m.onRegisters (·.set k value)
  | .combine op dst src => m.onRegisters (·.combine op dst src)
  | .combineNamed name dst src => m.onRegisters (·.combineNamed name dst src)
  | .addTo k amount => m.onRegisters (·.addTo k amount)
  | .jump target => m.onRegisters fun r => .ok (r.jump target)
  | .skip => m.onRegisters fun r => .ok r.skip
  | .call target => m.onRegisters (·.call target)
  | .ret => m.onRegisters (·.ret)
  | .setIndex address => m.onRegisters fun r => .ok (r.setIndex address)
  | .pointAtGlyph digit => m.onRegisters fun r => .ok (r.pointAtGlyph digit)
  | .write address value => { machine := { m with memory := m.memory.write address value } }
  | .patch image => m.patch image
  | .draw x y rows => { machine := { m with screen := (m.screen.draw x y rows).1 } }
  | .clearScreen => { machine := { m with screen := .blank } }

variable {α : Type}

/-- The machine after a history of operations, also past those that stopped. -/
def follow (m : Machine) (act : Machine → α → Outcome) : List α → Machine
  | [] => m
  | a :: rest => (act m a).machine.follow act rest

/-- The faults along a history, one entry for each operation. -/
def faults (m : Machine) (act : Machine → α → Outcome) : List α → List (Option Fault)
  | [] => []
  | a :: rest => (act m a).fault :: (act m a).machine.faults act rest

theorem follow_keeps {act : Machine → α → Outcome} {P : Machine → Prop}
    (hstep : ∀ m a, P m → P (act m a).machine) (m : Machine) (hm : P m) (history : List α) :
    P (m.follow act history) := by
  induction history generalizing m with
  | nil => exact hm
  | cons a rest ih => exact ih (act m a).machine (hstep m a hm)

theorem follow_append (m : Machine) (act : Machine → α → Outcome) (first second : List α) :
    m.follow act (first ++ second) = (m.follow act first).follow act second := by
  induction first generalizing m with
  | nil => rfl
  | cons a rest ih => exact ih (act m a).machine

theorem runAfter_keeps {P : Machine → Prop} (hstep : ∀ m : Machine, P m → P m.step.machine)
    (o : Outcome) (ho : P o.machine) (count : Nat) : P (runAfter o count).machine := by
  induction count generalizing o with
  | zero => exact ho
  | succ count ih =>
      unfold runAfter
      split
      · exact ho
      · next hfault =>
          apply ih
          simp only [Outcome.andThen, hfault]
          exact hstep o.machine ho

theorem run_keeps {P : Machine → Prop} (hstep : ∀ m : Machine, P m → P m.step.machine)
    (m : Machine) (hm : P m) (count : Nat) : P (m.run count).machine :=
  runAfter_keeps hstep { machine := m } hm count

/-- A machine that commands can bring about from a new one. -/
def Reachable (m : Machine) : Prop :=
  ∃ seed entropy keypad commands, (new seed entropy keypad).follow obey commands = m

theorem Reachable.keeps {P : Machine → Prop}
    (hnew : ∀ seed entropy keypad, P (new seed entropy keypad))
    (hobey : ∀ m c, P m → P (obey m c).machine) {m : Machine} (h : m.Reachable) : P m := by
  obtain ⟨seed, entropy, keypad, commands, rfl⟩ := h
  exact follow_keeps hobey _ (hnew seed entropy keypad) commands

/-- A machine without a seed that has run a program for some steps. -/
def afterRun (program : List UInt8) (count : Nat) : Machine :=
  (new none ⟨#[1]⟩ {}).follow obey [.load ⟨#[2]⟩ program, .run count]

theorem afterRun_reachable (program : List UInt8) (count : Nat) :
    (afterRun program count).Reachable :=
  ⟨none, _, {}, _, rfl⟩

/-- The next step carries an operation out to its end. -/
def Completes (m : Machine) (op : Operation) : Prop := m.Faces op ∧ m.step.fault = none

instance (m : Machine) (op : Operation) : Decidable (m.Completes op) :=
  inferInstanceAs (Decidable (_ ∧ _))

/-- How often an operation is carried out to its end along a history. -/
def completions (op : Operation) (m : Machine) : List Event → Nat
  | [] => 0
  | e :: rest =>
    (if e = .step ∧ m.Completes op then 1 else 0) + completions op (m.perform e).machine rest

theorem Completes.unique {m : Machine} {op op' : Operation} (h : m.Completes op)
    (hne : op ≠ op') : ¬ m.Completes op' :=
  fun h' => hne (h.1.unique h'.1)

/-- Loading powers the machine on with an image that fits, and an image that
does not fit changes nothing. -/
theorem load_cases (m : Machine) (entropy : Entropy) (program : List UInt8) :
    (program.length ≤ Memory.programLimit ∧ (m.load entropy program).fault = none ∧
      ∃ memory, Memory.fresh.load program = .ok memory ∧
        (m.load entropy program).machine =
          atPowerOn m.seed entropy m.keypad memory program) ∨
    (Memory.programLimit < program.length ∧
      (m.load entropy program).fault = some (.programTooLarge program.length) ∧
      (m.load entropy program).machine = m) := by
  by_cases hfits : program.length ≤ Memory.programLimit
  · refine Or.inl ⟨hfits, ?_, _, by rw [Memory.load, if_pos hfits], ?_⟩ <;>
      simp only [load, Memory.load, if_pos hfits]
  · refine Or.inr ⟨by omega, ?_, ?_⟩ <;> simp only [load, Memory.load, if_neg hfits]

/-- Resetting is loading the same program again with every key let go. -/
theorem reset_cases (m : Machine) (entropy : Entropy) :
    (m.program.length ≤ Memory.programLimit ∧ (m.reset entropy).fault = none ∧
      ∃ memory, Memory.fresh.load m.program = .ok memory ∧
        (m.reset entropy).machine =
          atPowerOn m.seed entropy m.keypad.clear memory m.program) ∨
    (Memory.programLimit < m.program.length ∧
      (m.reset entropy).fault = some (.programTooLarge m.program.length) ∧
      (m.reset entropy).machine = m) := by
  by_cases hfits : m.program.length ≤ Memory.programLimit
  · refine Or.inl ⟨hfits, ?_, _, by rw [Memory.load, if_pos hfits], ?_⟩ <;>
      simp only [reset, Memory.load, if_pos hfits]
  · refine Or.inr ⟨by omega, ?_, ?_⟩ <;> simp only [reset, Memory.load, if_neg hfits]

/-- The machine right after it was switched on: a new one, one that a program
was loaded into, or one that was reset. -/
inductive PoweredOn : Machine → Prop where
  | new (seed : Option Int) (entropy : Entropy) (keypad : Keypad) :
      PoweredOn (new seed entropy keypad)
  | load (m : Machine) (entropy : Entropy) (program : List UInt8)
      (h : (m.load entropy program).fault = none) : PoweredOn (m.load entropy program).machine
  | reset (m : Machine) (entropy : Entropy) (h : (m.reset entropy).fault = none) :
      PoweredOn (m.reset entropy).machine

theorem PoweredOn.exists_eq {m : Machine} (h : PoweredOn m) :
    ∃ seed entropy keypad memory program, program.length ≤ Memory.programLimit ∧
      m = atPowerOn seed entropy keypad memory program := by
  cases h with
  | new seed entropy keypad => exact ⟨seed, entropy, keypad, .fresh, [], Nat.zero_le _, rfl⟩
  | load m entropy program h =>
      rcases load_cases m entropy program with ⟨hfits, -, memory, -, heq⟩ | ⟨-, hfault, -⟩
      · exact ⟨m.seed, entropy, m.keypad, memory, program, hfits, heq⟩
      · rw [hfault] at h
        cases h
  | reset m entropy h =>
      rcases reset_cases m entropy with ⟨hfits, -, memory, -, heq⟩ | ⟨-, hfault, -⟩
      · exact ⟨m.seed, entropy, m.keypad.clear, memory, m.program, hfits, heq⟩
      · rw [hfault] at h
        cases h

end Machine

end ChipEight
