import ChipEight.Proofs.Machine.Effect

/-!
What most instructions do not look at. Three operations read or set a timer,
and one writes the number of the waiting register. Every other instruction does
the same whatever these three numbers are, and leaves them alone: changing them
before the instruction is the same as changing them after it
(`execute_mapUnseen`).
-/

namespace ChipEight

/-- The operations that read a timer or set one. -/
def Operation.onTimers : List Operation := [readDelay, setDelay, setSound]

namespace Registers

def mapTimers (r : Registers) (f : Int → Int) : Registers :=
  { r with delay := f r.delay, sound := f r.sound }

/-- An operation that neither looks at the timers nor sets them. -/
def IgnoresTimers (act : Registers → Except Fault Registers) : Prop :=
  ∀ r f, act (mapTimers r f) = (act r).map (mapTimers · f)

theorem IgnoresTimers.bind {act next : Registers → Except Fault Registers}
    (hact : IgnoresTimers act) (hnext : IgnoresTimers next) :
    IgnoresTimers fun r => act r >>= next := by
  intro r f
  dsimp only
  rw [hact r f]
  cases act r with
  | error fault => rfl
  | ok r' => exact hnext r' f

/-- Reading a general register first makes no difference. -/
theorem IgnoresTimers.get {k : Int} {next : Int → Registers → Except Fault Registers}
    (hnext : ∀ value, IgnoresTimers (next value)) :
    IgnoresTimers fun r => r.get k >>= fun value => next value r := by
  intro r f
  have hget : (r.mapTimers f).get k = r.get k := rfl
  dsimp only
  rw [hget]
  cases r.get k with
  | error fault => rfl
  | ok value => exact hnext value r f

theorem set_ignoresTimers (k value : Int) : IgnoresTimers (·.set k value) := by
  intro r f
  unfold set
  cases nibble? k with
  | none => rfl
  | some j => rfl

theorem setFlag_ignoresTimers (flag : Option Bool) : IgnoresTimers (·.setFlag flag) := by
  cases flag with
  | none => exact fun r f => rfl
  | some flag => exact set_ignoresTimers flagRegister flag.toNat

theorem addTo_ignoresTimers (k amount : Int) : IgnoresTimers (·.addTo k amount) :=
  .get fun _ => set_ignoresTimers k _

theorem combine_ignoresTimers (op : ByteOp) (dst src : Int) :
    IgnoresTimers (·.combine op dst src) :=
  .get fun _ => .get fun _ => (set_ignoresTimers dst _).bind (setFlag_ignoresTimers _)

theorem call_ignoresTimers (target : Int) : IgnoresTimers (·.call target) := by
  intro r f
  by_cases hroom : r.stack.length < stackLimit
  · have hroom' : (r.mapTimers f).stack.length < stackLimit := hroom
    simp only [call, if_pos hroom, if_pos hroom']
    rfl
  · have hfull : ¬ (r.mapTimers f).stack.length < stackLimit := hroom
    simp only [call, if_neg hroom, if_neg hfull]
    rfl

theorem ret_ignoresTimers : IgnoresTimers (·.ret) := by
  intro r f
  have hstack : (r.mapTimers f).stack = r.stack := rfl
  dsimp only
  unfold ret
  rw [hstack]
  cases r.stack with
  | nil => rfl
  | cons target rest => rfl

theorem skipIf_mapTimers (r : Registers) (f : Int → Int) (condition : Bool) :
    (r.mapTimers f).skipIf condition = (r.skipIf condition).mapTimers f := by
  cases condition <;> rfl

end Registers

namespace Machine

/-- The machine with other timers and another waiting register. -/
def mapUnseen (m : Machine) (timer wait : Int → Int) : Machine :=
  { m with registers := m.registers.mapTimers timer, waitRegister := wait m.waitRegister }

def mapUnseenAfter (o : Outcome) (timer wait : Int → Int) : Outcome :=
  { o with machine := o.machine.mapUnseen timer wait }

theorem onRegisters_mapUnseen (m : Machine) (timer wait : Int → Int)
    {act : Registers → Except Fault Registers} (h : Registers.IgnoresTimers act) :
    (m.mapUnseen timer wait).onRegisters act =
      mapUnseenAfter (m.onRegisters act) timer wait := by
  have hact : act (m.mapUnseen timer wait).registers = _ := h m.registers timer
  unfold onRegisters
  rw [hact]
  cases act m.registers with
  | error fault => rfl
  | ok r => rfl

theorem drawSprite_mapUnseen (m : Machine) (timer wait : Int → Int) (x y n : Int) :
    (m.mapUnseen timer wait).drawSprite x y n =
      mapUnseenAfter (m.drawSprite x y n) timer wait := by
  have hget (k : Int) : (m.mapUnseen timer wait).registers.get k = m.registers.get k := rfl
  unfold drawSprite
  rw [hget, hget]
  cases m.registers.get x with
  | error fault => rfl
  | ok left =>
      cases m.registers.get y with
      | error fault => rfl
      | ok top =>
          let rows := (m.memory.bytesFrom m.registers.index n).map Int.ofNat
          let drawn := m.screen.draw left top rows
          exact onRegisters_mapUnseen { m with screen := drawn.1 } timer wait
            (Registers.setFlag_ignoresTimers (some drawn.2))

theorem storeDecimal_mapUnseen (m : Machine) (timer wait : Int → Int) (x : Int) :
    (m.mapUnseen timer wait).storeDecimal x =
      mapUnseenAfter (m.storeDecimal x) timer wait := by
  have hget : (m.mapUnseen timer wait).registers.get x = m.registers.get x := rfl
  unfold storeDecimal
  rw [hget]
  cases m.registers.get x with
  | error fault => rfl
  | ok value => rfl

theorem drawRandom_mapUnseen (m : Machine) (timer wait : Int → Int) (x mask : Int) :
    (m.mapUnseen timer wait).drawRandom x mask =
      mapUnseenAfter (m.drawRandom x mask) timer wait := by
  have hsame : (m.mapUnseen timer wait).generator = m.generator := rfl
  unfold drawRandom
  rw [hsame]
  cases m.generator.byte with
  | mk byte generator =>
      exact onRegisters_mapUnseen { m with generator := generator } timer wait
        (Registers.set_ignoresTimers x _)

/-- An instruction that is not about a timer or a wait for a key does the same
whatever the timers and the waiting register are. -/
theorem execute_mapUnseen (m : Machine) (timer wait : Int → Int) (i : Instruction)
    (htimers : i.op ∉ Operation.onTimers) (hwait : i.op ≠ .awaitKey) :
    (m.mapUnseen timer wait).execute i = mapUnseenAfter (m.execute i) timer wait := by
  unfold execute
  cases hop : i.op with
  | readDelay | setDelay | setSound => simp [Operation.onTimers, hop] at htimers
  | awaitKey => exact absurd hop hwait
  | clear | jump | setIndex | storeRegs => rfl
  | loadRegs =>
      -- Unfolded on both sides, since `rfl` would compare the registers one by one.
      simp only [loadBlock, mapUnseen, Registers.mapTimers, mapUnseenAfter]
  | ret => exact onRegisters_mapUnseen m timer wait Registers.ret_ignoresTimers
  | call => exact onRegisters_mapUnseen m timer wait (Registers.call_ignoresTimers i.nnn)
  | jumpOffset | addIndex | pointAtGlyph =>
      exact onRegisters_mapUnseen m timer wait (.get fun value r f => rfl)
  | skipEqByte | skipNeByte | skipPressed | skipReleased =>
      exact onRegisters_mapUnseen m timer wait
        (.get fun value r f => congrArg Except.ok (r.skipIf_mapTimers f _))
  | skipEqReg | skipNeReg =>
      exact onRegisters_mapUnseen m timer wait
        (.get fun a => .get fun b r f => congrArg Except.ok (r.skipIf_mapTimers f _))
  | loadByte => exact onRegisters_mapUnseen m timer wait (Registers.set_ignoresTimers i.x i.kk)
  | addByte => exact onRegisters_mapUnseen m timer wait (Registers.addTo_ignoresTimers i.x i.kk)
  | copyReg | or | and | xor | addReg | sub | subFrom | shr | shl =>
      exact onRegisters_mapUnseen m timer wait (Registers.combine_ignoresTimers _ _ _)
  | random => exact drawRandom_mapUnseen m timer wait i.x i.kk
  | draw => exact drawSprite_mapUnseen m timer wait i.x i.y i.n
  | storeDecimal => exact storeDecimal_mapUnseen m timer wait i.x

end Machine

end ChipEight
