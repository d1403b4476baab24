import ChipEight.Desk.Control
import ChipEight.Proofs.Desk.Frame
import ChipEight.Proofs.Host.Batches
import ChipEight.Proofs.Machine.RunCount

/-!
The pace of a desk that runs. Between its frames the user moves keys. Each frame
carries out a batch of steps, of which those count that begin running, and one
tick; so over many frames the machine makes at most as many cycles as the
instruction rate allows, and exactly as many if no frame begins or ends in a
wait for a key: a frame that begins and ends running has run its whole batch
(`FrameGoesWell.runningSteps_eq`).
-/

namespace ChipEight

/-- What the user does at the keys. -/
inductive KeyMove where
  | press (key : Int)
  | release (key : Int)
  | releaseAll

namespace KeyMove

def apply (p : Keypad) : KeyMove → Keypad
  | press key => p.press key
  | release key => p.release key
  | releaseAll => p.clear

def event : KeyMove → Event
  | press key => .press key
  | release key => .release key
  | releaseAll => .releaseAll

end KeyMove

namespace Desk

/-- Moves keys one after another. -/
def moveKeys (d : Desk) (moves : List KeyMove) : Desk :=
  d.onKeypad (moves.foldl KeyMove.apply)

/-- Carries out one frame after each list of moves. -/
def playFrames (d : Desk) : List (List KeyMove) → Desk
  | [] => d
  | moves :: rest => (d.moveKeys moves).runFrame.playFrames rest

/-- The desk at the beginning of each frame. -/
def frameStarts (d : Desk) : List (List KeyMove) → List Desk
  | [] => []
  | moves :: rest => d.moveKeys moves :: (d.moveKeys moves).runFrame.frameStarts rest

/-- What a machine goes through in such frames: the moves, the steps of the batch
and one tick, for each of them. -/
def frameEvents (c : Pacer) : List (List KeyMove) → List Event
  | [] => []
  | moves :: rest =>
    moves.map KeyMove.event ++ List.replicate c.batch.1 .step ++
      .tick :: frameEvents c.batch.2 rest

/-- The frame meets no fault. -/
def FrameGoesWell (d : Desk) : Prop := (d.machine.runBatch d.pacer.batch.1).fault = none

instance (d : Desk) : Decidable d.FrameGoesWell := inferInstanceAs (Decidable (_ = _))

@[simp] theorem pacer_moveKeys (d : Desk) (moves : List KeyMove) :
    (d.moveKeys moves).pacer = d.pacer := rfl

@[simp] theorem cycles_moveKeys (d : Desk) (moves : List KeyMove) :
    (d.moveKeys moves).machine.cycles = d.machine.cycles := rfl

theorem machine_moveKeys (d : Desk) (moves : List KeyMove) :
    (d.moveKeys moves).machine =
      d.machine.follow Machine.perform (moves.map KeyMove.event) := by
  induction moves generalizing d with
  | nil => rfl
  | cons move rest ih =>
      have hfirst : (d.moveKeys [move]).machine = (d.machine.perform move.event).machine := by
        cases move <;> rfl
      have hrest := ih (d.moveKeys [move])
      rw [hfirst] at hrest
      exact hrest

theorem FrameGoesWell.run_fault {d : Desk} (h : d.FrameGoesWell) :
    (d.machine.run d.pacer.batch.1).fault = none := by
  rw [← Machine.runBatch_eq_run]
  exact h

theorem FrameGoesWell.runFrame_eq {d : Desk} (h : d.FrameGoesWell) :
    d.runFrame.machine = (d.machine.run d.pacer.batch.1).machine.tick ∧
      d.runFrame.pacer = d.pacer.batch.2 := by
  rw [runFrame_of_ok h.run_fault, finishFrame_eq]
  exact ⟨rfl, rfl⟩

theorem FrameGoesWell.runFrame_cycles {d : Desk} (h : d.FrameGoesWell) :
    d.runFrame.machine.cycles =
      d.machine.cycles + d.machine.runningSteps d.pacer.batch.1 := by
  rw [h.runFrame_eq.1, ← Machine.run_cycles h.run_fault]
  rfl

/-- A frame that begins and ends running has run its whole batch. -/
theorem FrameGoesWell.runningSteps_eq {d : Desk} (h : d.FrameGoesWell)
    (hstart : d.machine.mode = .running) (hend : d.runFrame.machine.mode = .running) :
    d.machine.runningSteps d.pacer.batch.1 = d.pacer.batch.1 := by
  apply Nat.le_antisymm (Machine.runningSteps_le d.machine d.pacer.batch.1)
  apply Nat.le_of_not_lt
  intro hless
  have hwaits := ((Machine.run_eq_follow hstart h.run_fault).2 hless).1
  rw [h.runFrame_eq.1] at hend
  cases hwaits.symm.trans hend

theorem playFrames_cycles_le {d : Desk} {moves : List (List KeyMove)}
    (h : ∀ start ∈ d.frameStarts moves, start.FrameGoesWell) :
    d.machine.cycles ≤ (d.playFrames moves).machine.cycles ∧
      (d.playFrames moves).machine.cycles ≤
        d.machine.cycles + (d.pacer.batches moves.length).1.sum := by
  induction moves generalizing d with
  | nil => exact ⟨Nat.le_refl _, Nat.le_refl _⟩
  | cons first rest ih =>
      obtain ⟨hfirst, hrest⟩ := List.forall_mem_cons.mp h
      have hframe := hfirst.runFrame_cycles
      have hsteps := Machine.runningSteps_le (d.moveKeys first).machine d.pacer.batch.1
      have hlater := ih hrest
      rw [hfirst.runFrame_eq.2] at hlater
      simp only [pacer_moveKeys, cycles_moveKeys] at hframe hlater
      simp only [playFrames, List.length_cons, Pacer.batches_succ, List.sum_cons]
      omega

theorem playFrames_cycles_of_running {d : Desk} {moves : List (List KeyMove)}
    (h : ∀ start ∈ d.frameStarts moves, start.FrameGoesWell)
    (hruns : ∀ start ∈ d.frameStarts moves,
      start.machine.mode = .running ∧ start.runFrame.machine.mode = .running) :
    (d.playFrames moves).machine.cycles =
      d.machine.cycles + (d.pacer.batches moves.length).1.sum := by
  induction moves generalizing d with
  | nil => rfl
  | cons first rest ih =>
      obtain ⟨hfirst, hrest⟩ := List.forall_mem_cons.mp h
      obtain ⟨⟨hstart, hend⟩, hruns⟩ := List.forall_mem_cons.mp hruns
      have hframe := hfirst.runFrame_cycles
      rw [hfirst.runningSteps_eq hstart hend] at hframe
      have hlater := ih hrest hruns
      rw [hfirst.runFrame_eq.2] at hlater
      simp only [pacer_moveKeys, cycles_moveKeys] at hframe hlater
      simp only [playFrames, List.length_cons, Pacer.batches_succ, List.sum_cons]
      omega

theorem machine_playFrames {d : Desk} {moves : List (List KeyMove)}
    (h : ∀ start ∈ d.frameStarts moves, start.FrameGoesWell) :
    (d.playFrames moves).machine =
      d.machine.follow Machine.perform (frameEvents d.pacer moves) := by
  induction moves generalizing d with
  | nil => rfl
  | cons first rest ih =>
      obtain ⟨hfirst, hrest⟩ := List.forall_mem_cons.mp h
      obtain ⟨hmachine, hpacer⟩ := hfirst.runFrame_eq
      rw [playFrames, ih hrest, hmachine, hpacer, Machine.run_eq_follow_steps hfirst.run_fault,
        machine_moveKeys, frameEvents, Machine.follow_append, Machine.follow_append]
      rfl

theorem count_tick_frameEvents (c : Pacer) (moves : List (List KeyMove)) :
    (frameEvents c moves).count .tick = moves.length := by
  induction moves generalizing c with
  | nil => rfl
  | cons first rest ih =>
      have hmoves : (first.map KeyMove.event).count .tick = 0 := by
        rw [List.count_eq_zero, List.mem_map]
        rintro ⟨move, -, hmove⟩
        cases move <;> cases hmove
      have hsteps : (List.replicate c.batch.1 Event.step).count .tick = 0 := by
        simp [List.count_replicate]
      rw [frameEvents, List.count_append, List.count_append, hmoves, hsteps, List.count_cons, ih]
      simp

/-- After it was started, a desk whose frames meet no fault makes no more cycles
than the instruction rate allows over its frames, and ticks once for each of
them. If every frame begins and ends running, it makes exactly as many. -/
theorem frames_keep_pace (d : Desk) (moves : List (List KeyMove))
    (h : ∀ start ∈ d.run.frameStarts moves, start.FrameGoesWell) :
    let machine := (d.run.playFrames moves).machine
    let due := moves.length * d.pacer.instructionRate / d.pacer.frameRate
    let events := frameEvents d.run.pacer moves
    0 ≤ machine.cyclesSince d.machine ∧ machine.cyclesSince d.machine ≤ due ∧
    machine = d.machine.follow Machine.perform events ∧ events.count .tick = moves.length ∧
    ((∀ start ∈ d.run.frameStarts moves,
        start.machine.mode = .running ∧ start.runFrame.machine.mode = .running) →
      machine.cyclesSince d.machine = due) := by
  intro machine due events
  have hdue : (d.run.pacer.batches moves.length).1.sum = due := by
    rw [Pacer.sum_batches d.pacer.frameRate_pos]
    change (0 + moves.length * d.pacer.instructionRate) / d.pacer.frameRate = due
    rw [Nat.zero_add]
  have hbounds := playFrames_cycles_le h
  rw [hdue] at hbounds
  change d.machine.cycles ≤ machine.cycles ∧ machine.cycles ≤ d.machine.cycles + due at hbounds
  unfold Machine.cyclesSince
  refine ⟨by omega, by omega, machine_playFrames h, count_tick_frameEvents _ moves, ?_⟩
  intro hruns
  have hexact := playFrames_cycles_of_running h hruns
  rw [hdue] at hexact
  change machine.cycles = d.machine.cycles + due at hexact
  omega

/-- A desk with one instruction to two frames, on a program that waits for one
key after another. -/
def keyReader : Desk :=
  ofMachine (.ofRates 1 2 Nat.one_pos Nat.two_pos) (.afterRun [0xF1, 0x0A, 0x12, 0x00] 0) plainTitle

/-- A key is down whenever the program looks for one, so no wait begins. -/
def keysAtHand : List (List KeyMove) := [[.press 5], [], [.release 5], [], [.press 3], []]

theorem keyReader_keeps_pace :
    (∀ start ∈ keyReader.run.frameStarts keysAtHand, start.FrameGoesWell) ∧
      (∀ start ∈ keyReader.run.frameStarts keysAtHand,
        start.machine.mode = .running ∧ start.runFrame.machine.mode = .running) ∧
      (keyReader.run.playFrames keysAtHand).machine.cyclesSince keyReader.machine = 3 := by
  have hframes : ∀ start ∈ keyReader.run.frameStarts keysAtHand, start.FrameGoesWell ∧
      start.machine.mode = .running ∧ start.runFrame.machine.mode = .running := by
    decide +kernel
  have hgood := fun start hstart => (hframes start hstart).1
  have hruns := fun start hstart => (hframes start hstart).2
  obtain ⟨-, -, -, -, hexact⟩ := frames_keep_pace keyReader keysAtHand hgood
  exact ⟨hgood, hruns, hexact hruns⟩

end Desk

end ChipEight
