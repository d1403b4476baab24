import ChipEight.Proofs.Machine.PowerCycle
import ChipEight.Proofs.Machine.RunCount

/-!
Where the random bytes come from. The seed fixes a stream of bytes, and the
state of the generator is a place in that stream. An instruction that asks for
a random byte moves on by one place, whatever its mask; nothing else moves the
place but switching the machine on again, which goes back to the start. So the
place is the number of random bytes asked for since then, and the next one is
the byte at that place (`follow_generator`).
-/

namespace ChipEight

namespace Generator

/-- The generator after a number of bytes. -/
def after (g : Generator) : Nat → Generator
  | 0 => g
  | count + 1 => (g.after count).byte.2

/-- The byte at a place of the stream, counted from zero. -/
def byteAt (g : Generator) (place : Nat) : Nat := (g.after place).byte.1

theorem after_add (g : Generator) (a b : Nat) : g.after (a + b) = (g.after a).after b := by
  induction b with
  | zero => rfl
  | succ b ih => rw [Nat.add_succ, after, after, ih]

end Generator

namespace Machine

/-- How many random bytes the next steps of a run ask for. -/
def runDraws (m : Machine) : Nat → Nat
  | 0 => 0
  | count + 1 =>
    (if m.Faces .random then 1 else 0) +
      if m.step.fault = none then m.step.machine.runDraws count else 0

/-- How many random bytes a command asks for. -/
def draws (m : Machine) : Command → Nat
  | .event .step => if m.Faces .random then 1 else 0
  | .run count => m.runDraws count
  | _ => 0

/-- Does a command switch the machine on again? -/
def powersOn (m : Machine) : Command → Bool
  | .load entropy program => (m.load entropy program).fault = none
  | .reset entropy => (m.reset entropy).fault = none
  | _ => false

/-- How many random bytes a history has asked for since it last switched the
machine on, or `count` more than in the whole history if it never did. -/
def drawsSince (m : Machine) (count : Nat) : List Command → Nat
  | [] => count
  | c :: rest =>
    (m.obey c).machine.drawsSince (if m.powersOn c then 0 else count + m.draws c) rest

/-- An instruction that asks for a random byte takes the next one, masks it and
stores it. -/
theorem step_of_random {m : Machine} (h : m.Faces .random) :
    m.step =
      { machine :=
          { m.fetched with
            generator := m.generator.byte.2
            registers := m.fetched.registers.put m.facedX
              (m.generator.byte.1 &&& (m.memory.wordAt m.registers.pc % 256) : Nat) } } := by
  have hstep : m.step =
      m.fetched.drawRandom m.facedX.val (m.memory.wordAt m.registers.pc % 256 : Nat) :=
    step_of_faces h
  have hgenerator : m.fetched.generator = m.generator := rfl
  have hmask := lowByte_of_lt (Nat.mod_lt (m.memory.wordAt m.registers.pc) (by decide : 0 < 256))
  rw [hstep, drawRandom, hmask, hgenerator]
  cases m.generator.byte with
  | mk byte next =>
      apply onRegisters_of_ok
      exact Registers.set_natCast _ _ _

/-- The masked byte fits into the register. -/
theorem step_value_of_random {m : Machine} (h : m.Faces .random) :
    m.step.machine.registers.v.get m.facedX =
      (m.generator.byte.1 &&& (m.memory.wordAt m.registers.pc % 256) : Nat) := by
  have hsmall : m.generator.byte.1 &&& (m.memory.wordAt m.registers.pc % 256) < 256 :=
    Nat.lt_of_le_of_lt Nat.and_le_right (Nat.mod_lt _ (by decide))
  rw [step_of_random h]
  change (Registers.put _ _ _).v.get _ = _
  rw [Registers.get_put, if_pos rfl, lowByte_of_lt hsmall]

theorem step_generator (m : Machine) :
    m.step.machine.generator = m.generator.after (if m.Faces .random then 1 else 0) := by
  by_cases hrandom : m.Faces .random
  · rw [step_of_random hrandom, if_pos hrandom]
    rfl
  · rw [if_neg hrandom]
    rcases step_cases m with ⟨op, hfaces, h⟩ | ⟨-, -, -, h⟩ | ⟨-, h⟩
    · rw [h]
      refine (execute_frame m.fetched (m.facedInstruction op)).generator.resolve_right ?_
      rintro rfl
      exact hrandom hfaces
    · rw [h]
      rfl
    · obtain ⟨v, pc, mode, htake⟩ := takeKey_frame m
      rw [h, htake]
      rfl

theorem run_generator (m : Machine) (count : Nat) :
    (m.run count).machine.generator = m.generator.after (m.runDraws count) := by
  induction count generalizing m with
  | zero => rfl
  | succ count ih =>
      rw [run_succ, runDraws, Generator.after_add, ← step_generator]
      cases hfault : m.step.fault with
      | some fault =>
          rw [Outcome.andThen_of_fault hfault, if_neg (by simp)]
          rfl
      | none =>
          rw [if_pos rfl, ← ih]
          simp only [Outcome.andThen, hfault]

/-- With a seed, a command switches the machine on again, at the start of the
stream, or moves on by the bytes it asks for. -/
theorem obey_generator {m : Machine} {seed : Int} (hseed : m.seed = some seed) (c : Command) :
    (m.obey c).machine.generator =
      if m.powersOn c then .ofSeed seed else m.generator.after (m.draws c) := by
  cases c with
  | event e =>
      cases e with
      | step => exact step_generator m
      | tick | press _ | release _ | releaseAll => rfl
  | run count => exact run_generator m count
  | load entropy program =>
      change (m.load entropy program).machine.generator = _
      rcases load_cases m entropy program with ⟨-, hfault, memory, -, h⟩ | ⟨-, hfault, h⟩
      · simp only [h, powersOn, hfault, decide_true, if_true, hseed]
        rfl
      · simp only [h, powersOn, hfault, reduceCtorEq, decide_false, Bool.false_eq_true, if_false]
        rfl
  | reset entropy =>
      change (m.reset entropy).machine.generator = _
      rcases reset_cases m entropy with ⟨-, hfault, memory, -, h⟩ | ⟨-, hfault, h⟩
      · simp only [h, powersOn, hfault, decide_true, if_true, hseed]
        rfl
      · simp only [h, powersOn, hfault, reduceCtorEq, decide_false, Bool.false_eq_true, if_false]
        rfl

theorem follow_generator {m : Machine} {seed : Int} {count : Nat} (hseed : m.seed = some seed)
    (hplace : m.generator = (Generator.ofSeed seed).after count) (commands : List Command) :
    (m.follow obey commands).generator =
      (Generator.ofSeed seed).after (m.drawsSince count commands) := by
  -- The count so far stands for the part of the history that is over.
  induction commands generalizing m count with
  | nil => exact hplace
  | cons c rest ih =>
      have hkept : (m.obey c).machine.seed = m.seed := (handle_origin m (.access (.command c))).1
      apply ih
      · rw [hkept, hseed]
      · rw [obey_generator hseed, hplace]
        split
        · rfl
        · rw [Generator.after_add]

/-- Whatever a machine has been through, its generator is as many bytes into
the stream of the seed as random bytes were asked for since it was last
switched on, and an instruction that asks for one stores the next byte of the
stream, masked, and moves on by one. -/
theorem random_bytes_follow_seed (seed : Int) (entropy : Entropy) (keypad : Keypad)
    (commands : List Command) :
    let start := new (some seed) entropy keypad
    let m := start.follow obey commands
    let word := m.memory.wordAt m.registers.pc
    let count := start.drawsSince 0 commands
    m.generator = (Generator.ofSeed seed).after count ∧
    (m.Faces .random →
      m.step.fault = none ∧
      m.step.machine.registers.v.get m.facedX =
        ((Generator.ofSeed seed).byteAt count &&& (word % 256) : Nat) ∧
      m.step.machine.generator = (Generator.ofSeed seed).after (count + 1)) := by
  intro start m word count
  have hgenerator : m.generator = (Generator.ofSeed seed).after count :=
    follow_generator rfl rfl commands
  refine ⟨hgenerator, fun hrandom => ⟨?_, ?_, ?_⟩⟩
  · rw [step_of_random hrandom]
  · rw [step_value_of_random hrandom, hgenerator]
    rfl
  · rw [step_of_random hrandom, hgenerator]
    rfl

theorem step_word_of_random {m : Machine} (h : m.Faces .random) :
    m.step.machine.mode = .running ∧
      m.step.machine.memory.wordAt m.step.machine.registers.pc =
        m.memory.wordAt ((m.registers.pc + 2) % 4096) := by
  rw [step_of_random h, ← fetched_pc]
  exact ⟨h.1, rfl⟩

/-- A program that asks for two random bytes, under the two halves of the mask,
and its first step. -/
def twoDraws : List Command :=
  [.load ⟨#[2]⟩ [0xC5, 0x0F, 0xC6, 0xF0], .event .step]

theorem twoDraws_second_byte :
    (new (some 1234) ⟨#[1]⟩ {}).drawsSince 0 twoDraws = 1 ∧
      ∃ m, (new (some 1234) ⟨#[1]⟩ {}).follow obey twoDraws = m ∧ m.Faces .random ∧
        m.generator = (Generator.ofSeed 1234).after 1 ∧
        m.step.machine.registers.v.get m.facedX =
          ((Generator.ofSeed 1234).byteAt 1 &&& 240 : Nat) ∧
        m.step.machine.generator = (Generator.ofSeed 1234).after 2 := by
  have hloaded :
      let o := (new (some 1234) ⟨#[1]⟩ {}).load ⟨#[2]⟩ [0xC5, 0x0F, 0xC6, 0xF0]
      o.machine.Faces .random ∧ o.fault = none ∧
        o.machine.memory.wordAt ((o.machine.registers.pc + 2) % 4096) = 0xC6F0 := by
    decide +kernel
  obtain ⟨hfirst, hfits, hsecond⟩ := hloaded
  have hcount : (new (some 1234) ⟨#[1]⟩ {}).drawsSince 0 twoDraws = 1 := by
    simp [twoDraws, drawsSince, powersOn, draws, obey, hfirst, hfits]
  have hfollow (m : Machine) :
      m.follow obey twoDraws = (m.load ⟨#[2]⟩ [0xC5, 0x0F, 0xC6, 0xF0]).machine.step.machine := rfl
  obtain ⟨hmode, hword⟩ := step_word_of_random hfirst
  rw [hsecond] at hword
  rw [← hfollow] at hmode hword
  have hlaw := random_bytes_follow_seed 1234 ⟨#[1]⟩ {} twoDraws
  dsimp only at hlaw
  rw [hcount] at hlaw
  refine ⟨hcount, _, rfl, ?_⟩
  -- From here on the machine is a name, so that no step of it is evaluated.
  generalize (new (some 1234) ⟨#[1]⟩ {}).follow obey twoDraws = m at hmode hword hlaw ⊢
  have hfaces : m.Faces .random := by
    refine ⟨hmode, ?_⟩
    rw [hword]
    rfl
  obtain ⟨hgenerator, hdraw⟩ := hlaw
  obtain ⟨-, hvalue, hmoved⟩ := hdraw hfaces
  rw [hword, show 0xC6F0 % 256 = 240 from rfl] at hvalue
  exact ⟨hfaces, hgenerator, hvalue, hmoved⟩

end Machine

end ChipEight
