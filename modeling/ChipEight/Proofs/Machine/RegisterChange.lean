import ChipEight.Instruction.Operation
import ChipEight.Machine.Registers

/-!
What can happen to the registers. An operation on the general registers leaves
everything else alone and writes bytes only (`ValuesOnly`). An instruction that
does not stop makes one of seven changes (`Change`); only a call makes the
stack longer, only a return makes it shorter, and a return goes on at the entry
it takes off. Later invariants follow these seven cases and not the
instructions one by one.
-/

namespace ChipEight

/-- An operation followed by another succeeds exactly when both do. -/
theorem followed_ok_iff {α β : Type} {first : Except Fault α} {next : α → Except Fault β}
    {result : β} :
    (first >>= next) = .ok result ↔ ∃ value, first = .ok value ∧ next value = .ok result := by
  constructor
  · intro h
    cases first with
    | error fault => cases h
    | ok value => exact ⟨value, rfl, h⟩
  · rintro ⟨value, rfl, h⟩
    exact h

namespace Registers

/-- General registers of which some took a byte and the others stayed. -/
def ByteUpdate (v v' : Vector Int 16) : Prop :=
  ∀ k : Fin 16, v'.get k = v.get k ∨ (0 ≤ v'.get k ∧ v'.get k ≤ 255)

theorem ByteUpdate.trans {v v' v'' : Vector Int 16} (first : ByteUpdate v v')
    (second : ByteUpdate v' v'') : ByteUpdate v v'' := by
  intro k
  rcases second k with hkept | hbyte
  · rw [hkept]
    exact first k
  · exact Or.inr hbyte

/-- At most the general registers changed, and those that did took a byte. -/
structure ValuesOnly (r r' : Registers) : Prop where
  bytes : ByteUpdate r.v r'.v
  rest : r' = { r with v := r'.v }

theorem ValuesOnly.refl (r : Registers) : ValuesOnly r r :=
  ⟨fun _ => Or.inl rfl, rfl⟩

theorem ValuesOnly.trans {r r' r'' : Registers} (first : ValuesOnly r r')
    (second : ValuesOnly r' r'') : ValuesOnly r r'' := by
  refine ⟨first.bytes.trans second.bytes, ?_⟩
  rw [second.rest, first.rest]

theorem ValuesOnly.stack_eq {r r' : Registers} (h : ValuesOnly r r') : r'.stack = r.stack := by
  rw [h.rest]

theorem put_valuesOnly (r : Registers) (k : Fin 16) (value : Int) :
    ValuesOnly r (r.put k value) := by
  refine ⟨fun j => ?_, rfl⟩
  rw [get_put]
  have hbyte := lowByte_lt value
  split
  · right
    omega
  · exact Or.inl rfl

theorem set_valuesOnly {r r' : Registers} {k value : Int} (h : r.set k value = .ok r') :
    ValuesOnly r r' := by
  unfold set at h
  split at h
  · cases h
    exact put_valuesOnly r _ value
  · cases h

theorem setFlag_valuesOnly {r r' : Registers} {flag : Option Bool}
    (h : r.setFlag flag = .ok r') : ValuesOnly r r' := by
  cases flag with
  | none =>
      cases h
      exact .refl r
  | some flag =>
      unfold setFlag at h
      exact set_valuesOnly h

theorem combine_valuesOnly {r r' : Registers} {op : ByteOp} {dst src : Int}
    (h : r.combine op dst src = .ok r') : ValuesOnly r r' := by
  simp only [combine, followed_ok_iff] at h
  obtain ⟨a, -, b, -, written, hset, hflag⟩ := h
  exact (set_valuesOnly hset).trans (setFlag_valuesOnly hflag)

theorem combineNamed_valuesOnly {r r' : Registers} {name : String} {dst src : Int}
    (h : r.combineNamed name dst src = .ok r') : ValuesOnly r r' := by
  simp only [combineNamed, followed_ok_iff] at h
  obtain ⟨a, -, b, -, h⟩ := h
  split at h
  · exact combine_valuesOnly h
  · cases h

theorem addTo_valuesOnly {r r' : Registers} {k amount : Int} (h : r.addTo k amount = .ok r') :
    ValuesOnly r r' := by
  simp only [addTo, followed_ok_iff] at h
  obtain ⟨a, -, hset⟩ := h
  exact set_valuesOnly hset

/-- A register that can be read is one of the sixteen. -/
theorem exists_of_get {r : Registers} {k value : Int} (h : r.get k = .ok value) :
    ∃ j : Fin 16, value = r.v.get j := by
  unfold get at h
  split at h
  · cases h
    exact ⟨_, rfl⟩
  · cases h

/-- What an instruction that does not stop can do to the registers. -/
inductive Change (i : Instruction) (r : Registers) : Registers → Prop where
  | values {r' : Registers} (h : ValuesOnly r r') : Change i r r'
  | goTo (target : Int) : Change i r { r with pc := lowAddress target }
  | call (hop : i.op = .call) (hroom : r.stack.length < stackLimit) :
      Change i r { r with stack := r.pc :: r.stack, pc := lowAddress i.nnn }
  | ret (hop : i.op = .ret) {target : Int} {rest : List Int}
      (hstack : r.stack = target :: rest) :
      Change i r { r with pc := target, stack := rest }
  | point (address : Int) : Change i r { r with index := lowAddress address }
  | startDelay (hop : i.op = .setDelay) (k : Fin 16) :
      Change i r { r with delay := r.v.get k }
  | startSound (hop : i.op = .setSound) (k : Fin 16) :
      Change i r { r with sound := r.v.get k }

theorem skipIf_change (i : Instruction) (r : Registers) (condition : Bool) :
    Change i r (r.skipIf condition) := by
  cases condition with
  | false => exact .values (.refl r)
  | true => exact .goTo (r.pc + 2)

/-- The address of a glyph is small, so cutting it to an address keeps it. -/
theorem pointAtGlyph_change (i : Instruction) (r : Registers) (digit : Int) :
    Change i r (r.pointAtGlyph digit) := by
  have hsmall : (lowAddress (Memory.glyphAddress digit) : Int) = Memory.glyphAddress digit := by
    rw [lowAddress_eq]
    unfold Memory.glyphAddress
    omega
  have hpoint := Change.point (i := i) (r := r) (Memory.glyphAddress digit)
  rwa [hsmall] at hpoint

theorem call_change {i : Instruction} {r r' : Registers} (hop : i.op = .call)
    (h : r.call i.nnn = .ok r') : Change i r r' := by
  unfold call at h
  split at h
  · next hroom =>
      cases h
      exact .call hop hroom
  · cases h

theorem ret_change {i : Instruction} {r r' : Registers} (hop : i.op = .ret)
    (h : r.ret = .ok r') : Change i r r' := by
  unfold ret at h
  split at h
  · cases h
  · next target rest hstack =>
      cases h
      exact .ret hop hstack

/-- Apart from calls and returns, an instruction leaves the stack alone. -/
theorem Change.stack_eq {i : Instruction} {r r' : Registers} (h : Change i r r')
    (hcall : i.op ≠ .call) (hret : i.op ≠ .ret) : r'.stack = r.stack := by
  cases h with
  | values h => exact h.stack_eq
  | goTo target => rfl
  | call hop => exact absurd hop hcall
  | ret hop => exact absurd hop hret
  | point address => rfl
  | startDelay hop k => rfl
  | startSound hop k => rfl

theorem Change.delay_eq {i : Instruction} {r r' : Registers} (h : Change i r r')
    (hop : i.op ≠ .setDelay) : r'.delay = r.delay := by
  cases h with
  | values h => rw [h.rest]
  | goTo | call | ret | point | startSound => rfl
  | startDelay hset k => exact absurd hset hop

theorem Change.sound_eq {i : Instruction} {r r' : Registers} (h : Change i r r')
    (hop : i.op ≠ .setSound) : r'.sound = r.sound := by
  cases h with
  | values h => rw [h.rest]
  | goTo | call | ret | point | startDelay => rfl
  | startSound hset k => exact absurd hset hop

end Registers

end ChipEight
