import ChipEight.Desk.Control
import ChipEight.Proofs.Machine.RunLoop

/-!
One frame of the desk. A frame takes one batch from the pacer, and its machine
does what the machine does without a desk: it runs the whole batch and ticks
once, although the frame breaks off its batch at a wait for a key. A frame that
meets a fault leaves the machine where the run stopped, does not tick, and
switches the frame timer and the tone off.
-/

namespace ChipEight

/-- Settings with two rates, the least scale and no seed. -/
def Settings.ofRates (instructionRate frameRate : Nat) (hrate : 0 < instructionRate)
    (hframes : 0 < frameRate) : Settings where
  instructionRate := instructionRate
  frameRate := frameRate
  scale := 1
  seed := none
  instructionRate_pos := hrate
  frameRate_pos := hframes
  scale_pos := Nat.one_pos

namespace Desk

/-- Switching the tone changes the tone, its sign and the requests. -/
theorem switchTone_eq (d : Desk) (on : Bool) :
    d.switchTone on =
      { d with
        sounding := on
        indicator := (d.switchTone on).indicator
        requests := (d.switchTone on).requests } := by
  unfold switchTone
  split
  · next hsame =>
      rw [hsame]
  · rfl

theorem stopWith_eq (d : Desk) (fault : Fault) :
    d.stopWith fault =
      { d with
        running := false
        sounding := false
        indicator := (d.stopWith fault).indicator
        requests := (d.stopWith fault).requests
        notices := (d.stopWith fault).notices
        status := fault.message } := by
  unfold stopWith
  rw [switchTone_eq]
  rfl

theorem finishFrame_eq (d : Desk) :
    d.finishFrame =
      { d with
        machine := d.machine.tick
        frame := d.machine.tick.screen
        sounding := d.machine.tick.isSounding
        indicator := d.finishFrame.indicator
        requests := d.finishFrame.requests
        status := modeStatus d.machine.tick.mode } := by
  unfold finishFrame
  dsimp only
  rw [switchTone_eq]
  rfl

theorem runFrame_of_ok {d : Desk} (h : (d.machine.run d.pacer.batch.1).fault = none) :
    d.runFrame =
      ({ d with pacer := d.pacer.batch.2 }.absorb (d.machine.run d.pacer.batch.1)).finishFrame := by
  unfold runFrame
  dsimp only
  rw [Machine.runBatch_eq_run, h]

theorem runFrame_of_fault {d : Desk} {fault : Fault}
    (h : (d.machine.run d.pacer.batch.1).fault = some fault) :
    d.runFrame =
      ({ d with pacer := d.pacer.batch.2 }.absorb (d.machine.run d.pacer.batch.1)).stopWith
        fault := by
  unfold runFrame
  dsimp only
  rw [Machine.runBatch_eq_run, h]

/-- A frame takes one batch and leaves the machine as a run of that many steps
and a tick leave it, presents its screen and lets the tone follow the sound
timer. If the run stops, it stops at an end of the stack, and the frame leaves
the machine as the run does, switches itself and the tone off and presents
nothing. -/
theorem frame_is_run_then_tick (d : Desk) (hd : d.machine.Reachable) :
    let ran := d.machine.run d.pacer.batch.1
    d.runFrame.pacer = d.pacer.batch.2 ∧
    (ran.fault = none →
      d.runFrame.machine = ran.machine.tick ∧
      d.runFrame.frame = ran.machine.tick.screen ∧
      (d.runFrame.sounding = true ↔ 0 < ran.machine.tick.registers.sound) ∧
      d.runFrame.running = d.running) ∧
    (∀ fault, ran.fault = some fault →
      ((∃ pc, fault = .stackOverflow pc 16) ∨ ∃ pc, fault = .stackUnderflow pc) ∧
      d.runFrame.machine = ran.machine ∧
      d.runFrame.frame = d.frame ∧
      d.runFrame.sounding = false ∧
      d.runFrame.running = false) := by
  intro ran
  refine ⟨?_, ?_, ?_⟩
  · cases hran : ran.fault with
    | none => exact congrArg pacer ((runFrame_of_ok hran).trans (finishFrame_eq _))
    | some fault => exact congrArg pacer ((runFrame_of_fault hran).trans (stopWith_eq _ fault))
  · intro hran
    rw [runFrame_of_ok hran, finishFrame_eq]
    exact ⟨rfl, rfl, decide_eq_true_iff, rfl⟩
  · intro fault hran
    rw [runFrame_of_fault hran, stopWith_eq]
    exact ⟨hd.run_fault hran, rfl, rfl, rfl, rfl⟩

/-- A desk that runs a program, five steps to a frame, with its tone on. -/
def playing (program : List UInt8) : Desk :=
  { ofMachine (.ofRates 5 1 (Nat.succ_pos 4) Nat.one_pos) (.afterRun program 0) plainTitle with
    running := true
    sounding := true }

theorem playing_reachable (program : List UInt8) : (playing program).machine.Reachable :=
  Machine.afterRun_reachable program 0

theorem batch_playing (program : List UInt8) : (playing program).pacer.batch.1 = 5 :=
  Nat.div_one 5

/-- Starts the sound timer and waits for a key in the third step. -/
def waitingDesk : Desk := playing [0x60, 0x09, 0xF0, 0x18, 0xF1, 0x0A]

/-- Starts the sound timer and returns from nowhere in the third step. -/
def failingDesk : Desk := playing [0x60, 0x09, 0xF0, 0x18, 0x00, 0xEE]

theorem waiting_and_failing_frames :
    waitingDesk.machine.Reachable ∧ (waitingDesk.machine.run 5).fault = none ∧
      waitingDesk.runFrame.machine = (waitingDesk.machine.run 5).machine.tick ∧
      waitingDesk.runFrame.sounding = true ∧ waitingDesk.runFrame.running = true ∧
      failingDesk.machine.Reachable ∧
      (failingDesk.machine.run 5).fault = some (.stackUnderflow 0x204) ∧
      failingDesk.runFrame.machine = (failingDesk.machine.run 5).machine ∧
      failingDesk.runFrame.sounding = false ∧ failingDesk.runFrame.running = false := by
  have hwaits : waitingDesk.machine.Reachable := playing_reachable _
  have hfails : failingDesk.machine.Reachable := playing_reachable _
  have hran : (waitingDesk.machine.run 5).fault = none := by decide +kernel
  have hsound : 0 < (waitingDesk.machine.run 5).machine.tick.registers.sound := by
    decide +kernel
  have hstopped : (failingDesk.machine.run 5).fault = some (.stackUnderflow 0x204) := by
    decide +kernel
  have hgood := (frame_is_run_then_tick waitingDesk hwaits).2.1
  have hbad := (frame_is_run_then_tick failingDesk hfails).2.2
  rw [show waitingDesk.pacer.batch.1 = 5 from batch_playing _] at hgood
  rw [show failingDesk.pacer.batch.1 = 5 from batch_playing _] at hbad
  obtain ⟨hmachine, -, htone, hrunning⟩ := hgood hran
  obtain ⟨-, hmachine', -, htone', hrunning'⟩ := hbad _ hstopped
  exact ⟨hwaits, hran, hmachine, htone.mpr hsound, hrunning, hfails, hstopped, hmachine', htone',
    hrunning'⟩

end Desk

end ChipEight
