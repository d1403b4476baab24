import ChipEight.Text.Numeral

/-!
The settings of a session and the pace that they give. Both rates and the scale
are positive. Each frame runs a batch of instructions; what the division of the
two rates leaves over is carried to the next frame, so that over the frames of
a second the batches add up to the instruction rate.
-/

namespace ChipEight

/-- A whole quotient rounded to the nearest, a half to the even neighbour. -/
def roundHalfEven (n d : Nat) : Nat :=
  if 2 * (n % d) < d then n / d
  else if d < 2 * (n % d) then n / d + 1
  else n / d + n / d % 2

/-- Instructions per second, frames per second, and the part of an instruction
that is carried over, in units of one per frame rate. -/
structure Pacer where
  instructionRate : Nat
  frameRate : Nat
  carry : Nat := 0
  instructionRate_pos : 0 < instructionRate
  frameRate_pos : 0 < frameRate

namespace Pacer

def ofRates? (instructionRate frameRate : Int) : Option Pacer :=
  if h : 0 < instructionRate ∧ 0 < frameRate then
    some
      { instructionRate := instructionRate.toNat
        frameRate := frameRate.toNat
        instructionRate_pos := by omega
        frameRate_pos := by omega }
  else
    none

def rejection : String := "Clock rates must be positive"

def batch (c : Pacer) : Nat × Pacer :=
  let total := c.carry + c.instructionRate
  (total / c.frameRate, { c with carry := total % c.frameRate })

/-- A frame loses no part of an instruction: what it runs and what it carries on
add up to what was carried in and the rate. -/
theorem frameRate_mul_batch (c : Pacer) :
    c.frameRate * c.batch.1 + c.batch.2.carry = c.carry + c.instructionRate :=
  Nat.div_add_mod _ _

theorem carry_batch_lt (c : Pacer) : c.batch.2.carry < c.frameRate :=
  Nat.mod_lt _ c.frameRate_pos

def batches (c : Pacer) : Nat → List Nat × Pacer
  | 0 => ([], c)
  | n + 1 =>
    let (batch, c) := c.batch
    let (batches, c) := c.batches n
    (batch :: batches, c)

def reset (c : Pacer) : Pacer := { c with carry := 0 }

def interval (c : Pacer) : Nat := max 1 (roundHalfEven 1000 c.frameRate)

end Pacer

structure Settings where
  instructionRate : Nat
  frameRate : Nat
  scale : Nat
  seed : Option Int
  instructionRate_pos : 0 < instructionRate
  frameRate_pos : 0 < frameRate
  scale_pos : 0 < scale

inductive Setting where
  | instructionRate
  | frameRate
  | scale
  deriving DecidableEq

def Setting.name : Setting → String
  | instructionRate => "cpu_hz"
  | frameRate => "timer_hz"
  | scale => "scale"

structure SettingError where
  setting : Setting
  value : Int
  deriving DecidableEq

def SettingError.message (e : SettingError) : String :=
  e.setting.name ++ " must be positive, got " ++ Text.decimal e.value

namespace Settings

def defaultInstructionRate : Int := 700

def defaultFrameRate : Int := 60

def defaultScale : Int := 10

/-- The settings of four values, or the first of them that is not positive. -/
def ofValues (instructionRate frameRate scale : Int) (seed : Option Int) :
    Except SettingError Settings :=
  if hc : 0 < instructionRate then
    if ht : 0 < frameRate then
      if hs : 0 < scale then
        .ok
          { instructionRate := instructionRate.toNat
            frameRate := frameRate.toNat
            scale := scale.toNat
            seed := seed
            instructionRate_pos := by omega
            frameRate_pos := by omega
            scale_pos := by omega }
      else .error ⟨.scale, scale⟩
    else .error ⟨.frameRate, frameRate⟩
  else .error ⟨.instructionRate, instructionRate⟩

def pacer (s : Settings) : Pacer where
  instructionRate := s.instructionRate
  frameRate := s.frameRate
  instructionRate_pos := s.instructionRate_pos
  frameRate_pos := s.frameRate_pos

end Settings

end ChipEight
