import ChipEight.Proofs.Machine.History

/-!
Powering the machine on again. Nothing but a successful load changes the
program that the machine keeps for its next reset, and nothing at all changes
its seed, whatever is done to the machine and to its parts in between. So a
reset leads back to one state, which the seed and the last image loaded
determine, and a load to one that the seed, the image and the keypad determine.
An image that does not fit changes nothing.
-/

namespace ChipEight

/-- What can be done to a machine by any means. An edit puts whatever it likes
into the parts of the machine, behind its back; only the seed and the program
are not among them. -/
inductive Handling where
  | access (a : Access)
  | edit (parts : Machine)

namespace Machine

def handle (m : Machine) : Handling → Outcome
  | .access a => m.access a
  | .edit parts => { machine := { parts with seed := m.seed, program := m.program } }

/-- The image that an operation loads, if it loads one and succeeds. -/
def loadedBy (m : Machine) : Handling → Option (List UInt8)
  | .access (.command (.load entropy program)) =>
    if (m.load entropy program).fault = none then some program else none
  | _ => none

/-- The image of the last load along a history that succeeded. -/
def lastLoaded? (m : Machine) : List Handling → Option (List UInt8)
  | [] => none
  | h :: rest => ((m.handle h).machine.lastLoaded? rest).or (m.loadedBy h)

/-- The same seed, and the same program to reset to. -/
structure SameOrigin (m m' : Machine) : Prop where
  seed : m'.seed = m.seed
  program : m'.program = m.program

theorem SameOrigin.refl (m : Machine) : SameOrigin m m := ⟨rfl, rfl⟩

theorem Effect.sameOrigin {i : Instruction} {m m' : Machine} (h : Effect i m m') :
    SameOrigin m m' := by
  cases h with
  | registers h => exact ⟨rfl, rfl⟩
  | paint hop screen h => exact ⟨rfl, rfl⟩
  | store hop memory => exact ⟨rfl, rfl⟩
  | random hop h => exact ⟨rfl, rfl⟩
  | park hop hnone => exact ⟨rfl, rfl⟩

theorem step_sameOrigin (m : Machine) : SameOrigin m m.step.machine := by
  rcases step_cases m with ⟨op, -, h⟩ | ⟨-, -, -, h⟩ | ⟨-, h⟩
  · rw [h]
    have heffect := (execute_effect m.fetched (m.facedInstruction op)).sameOrigin
    exact ⟨heffect.seed, heffect.program⟩
  · rw [h]
    exact ⟨rfl, rfl⟩
  · obtain ⟨v, pc, mode, htake⟩ := takeKey_frame m
    rw [h, htake]
    exact ⟨rfl, rfl⟩

theorem run_sameOrigin (m : Machine) (count : Nat) : SameOrigin m (m.run count).machine := by
  apply run_keeps (P := SameOrigin m)
  · intro m' h
    have hstep := step_sameOrigin m'
    exact ⟨hstep.seed.trans h.seed, hstep.program.trans h.program⟩
  · exact .refl m

theorem onRegisters_sameOrigin (m : Machine) (f : Registers → Except Fault Registers) :
    SameOrigin m (m.onRegisters f).machine := by
  unfold onRegisters
  split
  · exact ⟨rfl, rfl⟩
  · exact .refl m

theorem obey_sameOrigin (m : Machine) {c : Command}
    (h : ∀ entropy program, c ≠ .load entropy program) : SameOrigin m (m.obey c).machine := by
  cases c with
  | event e =>
      cases e with
      | step => exact step_sameOrigin m
      | tick | press _ | release _ | releaseAll => exact ⟨rfl, rfl⟩
  | run count => exact run_sameOrigin m count
  | load entropy program => exact absurd rfl (h entropy program)
  | reset entropy =>
      change SameOrigin m (m.reset entropy).machine
      rcases reset_cases m entropy with ⟨-, -, memory, -, h⟩ | ⟨-, -, h⟩
      all_goals
        rw [h]
        exact ⟨rfl, rfl⟩

theorem access_sameOrigin (m : Machine) {a : Access}
    (h : ∀ entropy program, a ≠ .command (.load entropy program)) :
    SameOrigin m (m.access a).machine := by
  cases a with
  | command c =>
      apply obey_sameOrigin
      rintro entropy program rfl
      exact h entropy program rfl
  | execute i => exact (execute_effect m i).sameOrigin
  | patch image =>
      change SameOrigin m (m.patch image).machine
      unfold patch
      split
      · exact .refl m
      · exact ⟨rfl, rfl⟩
  | fetch | write _ _ | draw _ _ _ | clearScreen => exact ⟨rfl, rfl⟩
  | _ => exact onRegisters_sameOrigin m _

/-- Nothing changes the seed, and only a load that succeeds changes the program. -/
theorem handle_origin (m : Machine) (h : Handling) :
    (m.handle h).machine.seed = m.seed ∧
      (m.handle h).machine.program = (m.loadedBy h).getD m.program := by
  by_cases hload : ∃ entropy program, h = .access (.command (.load entropy program))
  · obtain ⟨entropy, program, rfl⟩ := hload
    change (m.load entropy program).machine.seed = _ ∧ (m.load entropy program).machine.program = _
    rcases load_cases m entropy program with ⟨-, hfault, memory, -, h⟩ | ⟨-, hfault, h⟩
    · rw [loadedBy, if_pos hfault, h]
      exact ⟨rfl, rfl⟩
    · rw [loadedBy, hfault, if_neg (by simp), h]
      exact ⟨rfl, rfl⟩
  · have hother : m.loadedBy h = none := by
      unfold loadedBy
      split
      · exact absurd ⟨_, _, rfl⟩ hload
      · rfl
    have hsame : SameOrigin m (m.handle h).machine := by
      cases h with
      | access a =>
          apply access_sameOrigin
          rintro entropy program rfl
          exact hload ⟨entropy, program, rfl⟩
      | edit parts => exact ⟨rfl, rfl⟩
    rw [hother]
    exact ⟨hsame.seed, hsame.program⟩

/-- The program of the machine is the last image loaded along its history, or
the one it started with. -/
theorem follow_origin (m : Machine) (history : List Handling) :
    (m.follow handle history).seed = m.seed ∧
      (m.follow handle history).program = (m.lastLoaded? history).getD m.program := by
  induction history generalizing m with
  | nil => exact ⟨rfl, rfl⟩
  | cons h rest ih =>
      obtain ⟨hseed, hprogram⟩ := handle_origin m h
      obtain ⟨hseed', hprogram'⟩ := ih (m.handle h).machine
      refine ⟨hseed'.trans hseed, ?_⟩
      rw [follow, hprogram', hprogram, lastLoaded?]
      cases (m.handle h).machine.lastLoaded? rest with
      | none => simp
      | some program => simp

theorem loadedBy_fits {m : Machine} {h : Handling} {image : List UInt8}
    (hloaded : m.loadedBy h = some image) : image.length ≤ Memory.programLimit := by
  unfold loadedBy at hloaded
  split at hloaded
  · next _ entropy program =>
      rcases load_cases m entropy program with ⟨hfits, hfault, -⟩ | ⟨-, hfault, -⟩
      · rw [if_pos hfault] at hloaded
        cases hloaded
        exact hfits
      · rw [hfault, if_neg (by simp)] at hloaded
        cases hloaded
  · cases hloaded

theorem handle_fits (m : Machine) (h : Handling) (hm : m.program.length ≤ Memory.programLimit) :
    (m.handle h).machine.program.length ≤ Memory.programLimit := by
  rw [(handle_origin m h).2]
  cases hloaded : m.loadedBy h with
  | none => exact hm
  | some image => exact loadedBy_fits hloaded

/-- With a seed, the machine at power-on does not depend on the entropy. -/
theorem atPowerOn_of_seed (seed : Int) (entropy entropy' : Entropy) :
    atPowerOn (some seed) entropy = atPowerOn (some seed) entropy' := by
  funext keypad memory program
  simp only [atPowerOn, generatorOf, Option.elim_some]

/-- With a seed, a load looks at the seed, the keypad and the image, and at
nothing else. -/
theorem load_congr {m m' : Machine} {seed : Int} (hseed : m.seed = some seed)
    (hseed' : m'.seed = some seed) (hkeypad : m.keypad = m'.keypad) (entropy entropy' : Entropy)
    {program : List UInt8} (hfits : program.length ≤ Memory.programLimit) :
    m.load entropy program = m'.load entropy' program := by
  simp only [load, Memory.load, if_pos hfits, hseed, hseed', hkeypad,
    atPowerOn_of_seed seed entropy entropy']

theorem reset_eq_load {m : Machine} {seed : Int} (hseed : m.seed = some seed)
    (hfits : m.program.length ≤ Memory.programLimit) (entropy first second : Entropy) :
    (m.reset entropy).machine = ((new (some seed) first {}).load second m.program).machine := by
  simp only [reset, load, Memory.load, if_pos hfits, hseed, atPowerOn_of_seed seed entropy second]
  rfl

/-- Whatever a machine has been through, a reset leaves it as a new machine
with the same seed and no key down that the last image was loaded into, and a
load leaves it as a new machine with the same seed and the present keypad that
the image was loaded into, whatever entropy is at hand each time. An image that
does not fit is refused and changes nothing. -/
theorem power_cycle_forgets_history (seed : Int) (entropy : Entropy) (keypad : Keypad)
    (history : List Handling) :
    let start := new (some seed) entropy keypad
    let m := start.follow handle history
    let last := (start.lastLoaded? history).getD []
    ∀ first second third : Entropy,
      ((m.reset first).fault = none ∧ ((new (some seed) second {}).load third last).fault = none ∧
        (m.reset first).machine = ((new (some seed) second {}).load third last).machine) ∧
      (∀ data : List UInt8, data.length ≤ 3584 →
        (m.load first data).fault = none ∧
        m.load first data = (new (some seed) second m.keypad).load third data) ∧
      (∀ data : List UInt8, 3584 < data.length →
        (m.load first data).fault = some (.programTooLarge data.length) ∧
        (m.load first data).machine = m) := by
  intro start m last first second third
  obtain ⟨hseed, hprogram⟩ := follow_origin start history
  have hlast : m.program = last := hprogram
  have hfits : m.program.length ≤ Memory.programLimit :=
    follow_keeps handle_fits start (Nat.zero_le _) history
  refine ⟨⟨?_, ?_, ?_⟩, ?_, ?_⟩
  · rcases reset_cases m first with ⟨-, hfault, -⟩ | ⟨hlarge, -⟩
    · exact hfault
    · omega
  · rw [← hlast]
    rcases load_cases (new (some seed) second {}) third m.program with ⟨-, hfault, -⟩ | ⟨hlarge, -⟩
    · exact hfault
    · omega
  · rw [reset_eq_load hseed hfits first second third, hlast]
  · intro data hsmall
    have hnew : (new (some seed) second m.keypad).seed = some seed := rfl
    refine ⟨?_, load_congr hseed hnew rfl first third hsmall⟩
    rcases load_cases m first data with ⟨-, hfault, -⟩ | ⟨hlarge, -⟩
    · exact hfault
    · exact absurd hsmall (Nat.not_le.mpr hlarge)
  · intro data hlarge
    rcases load_cases m first data with ⟨hsmall, -⟩ | ⟨-, hfault, hkept⟩
    · exact absurd hsmall (Nat.not_le.mpr hlarge)
    · exact ⟨hfault, hkept⟩

/-- A load, a step, a key, changes behind the back of the machine, and a load
of an image that is one byte too long. -/
def busyHistory : List Handling :=
  [.access (.command (.load ⟨#[2]⟩ [0x12, 0x34])), .access (.command (.event .step)),
   .access (.command (.event (.press 5))), .access (.write 0x200 0xFF), .access (.patch [1, 2, 3]),
   .edit { new none ⟨#[3]⟩ {} with mode := .awaitingKey, cycles := 9 },
   .access (.command (.load ⟨#[4]⟩ (List.replicate 3585 0)))]

theorem busyHistory_is_forgotten :
    let start := new (some 7) ⟨#[1]⟩ {}
    (start.lastLoaded? busyHistory).getD [] = [0x12, 0x34] ∧
      ((start.follow handle busyHistory).reset ⟨#[5]⟩).machine =
        ((new (some 7) ⟨#[6]⟩ {}).load ⟨#[7]⟩ [0x12, 0x34]).machine ∧
      [(0x60 : UInt8), 0x01].length ≤ 3584 ∧
      (start.follow handle busyHistory).load ⟨#[5]⟩ [0x60, 0x01] =
        (new (some 7) ⟨#[6]⟩ (start.follow handle busyHistory).keypad).load ⟨#[7]⟩ [0x60, 0x01] ∧
      3584 < (List.replicate 3585 (0 : UInt8)).length ∧
      ((start.follow handle busyHistory).load ⟨#[5]⟩ (List.replicate 3585 0)).machine =
        start.follow handle busyHistory := by
  intro start
  have hlast : (start.lastLoaded? busyHistory).getD [] = [0x12, 0x34] := by
    decide +kernel
  have hlong : 3584 < (List.replicate 3585 (0 : UInt8)).length := by
    rw [List.length_replicate]
    decide
  obtain ⟨⟨-, -, hreset⟩, hload, hrefused⟩ :=
    power_cycle_forgets_history 7 ⟨#[1]⟩ {} busyHistory ⟨#[5]⟩ ⟨#[6]⟩ ⟨#[7]⟩
  rw [hlast] at hreset
  exact ⟨hlast, hreset, by decide, (hload _ (by decide)).2, hlong, (hrefused _ hlong).2⟩

end Machine

end ChipEight
