import ChipEight.Proofs.Machine.ByteArithmetic
import ChipEight.Proofs.Machine.Sprite

/-!
The drawing instruction from end to end. Its rows are the bytes from the index
register on, around the end of memory, and its place is read before the flag is
written, so that the flag register may hold a coordinate (`Drawn`). Where it does
not, a second drawing finds the same rows at the same place and takes the first
one back; it meets a lit cell exactly where the first one lit a dark one.
-/

namespace ChipEight

theorem Screen.draw_draw (s : Screen) (x y : Int) (rows : List Int) :
    ((s.draw x y rows).1.draw x y rows).1 = s := by
  apply eq_of_lit
  intro k
  rw [draw, lit_flipAll, draw, lit_flipAll, Bool.xor_assoc, Bool.xor_self, Bool.xor_false]

namespace Machine

open Screen (cellAt targets)

/-- A bit of the sprite that the index register points at. -/
def spriteBit (m : Machine) (row column : Nat) : Bool :=
  (m.memory.read ((m.registers.index + row) % 4096)).testBit (7 - column)

/-- The rows of the sprite that the index register points at. -/
def spriteRows (m : Machine) (n : Nat) : List Int :=
  (m.memory.bytesFrom m.registers.index n).map Int.ofNat

theorem length_spriteRows (m : Machine) (n : Nat) : (m.spriteRows n).length = n := by
  simp [spriteRows, Memory.bytesFrom]

theorem spriteRows_fits (m : Machine) {n : Nat} (hrows : n ≤ 32) :
    (m.spriteRows n).length ≤ 32 := by
  rwa [length_spriteRows]

theorem testBit_spriteRows (m : Machine) {n j : Nat} (hj : j < n) (c : Nat) :
    ∃ row, (m.spriteRows n)[j]? = some row ∧ row.testBit (7 - c) = m.spriteBit j c := by
  have hrow : (m.spriteRows n)[j]? =
      some (Int.ofNat (m.memory.read (m.registers.index + j))) := by
    rw [spriteRows, List.getElem?_map, Memory.getElem?_bytesFrom _ _ (Int.ofNat_lt.mpr hj)]
    rfl
  refine ⟨_, hrow, ?_⟩
  rw [spriteBit, ← lowAddress_eq, Memory.read_lowAddress]
  rfl

theorem mem_targets_spriteRows {m : Machine} {left top : Int} {n : Nat} {k : Fin 2048} :
    k ∈ targets left top (m.spriteRows n) ↔
      ∃ j c : Nat, j < n ∧ c < 8 ∧ m.spriteBit j c = true ∧ k = cellAt (left + c) (top + j) := by
  rw [Screen.mem_targets]
  constructor
  · rintro ⟨j, row, c, hrow, hc, hbit, rfl⟩
    have hj : j < n := by
      obtain ⟨hj, -⟩ := List.getElem?_eq_some_iff.mp hrow
      rwa [length_spriteRows] at hj
    obtain ⟨row', hrow', hbit'⟩ := m.testBit_spriteRows hj c
    rw [hrow] at hrow'
    cases hrow'
    exact ⟨j, c, hj, hc, hbit' ▸ hbit, rfl⟩
  · rintro ⟨j, c, hj, hc, hbit, rfl⟩
    obtain ⟨row, hrow, hbit'⟩ := m.testBit_spriteRows hj c
    exact ⟨j, row, c, hrow, hc, hbit'.trans hbit, rfl⟩

/-- What drawing `n` rows at a place leaves behind. -/
structure Drawn (m : Machine) (left top : Int) (n : Nat) (m' : Machine) : Prop where
  under : ∀ j c : Nat, j < n → c < 8 →
    m'.screen.lit (cellAt (left + c) (top + j)) =
      (m.screen.lit (cellAt (left + c) (top + j)) ^^ m.spriteBit j c)
  elsewhere : ∀ k, (∀ j c : Nat, j < n → c < 8 → k ≠ cellAt (left + c) (top + j)) →
    m'.screen.lit k = m.screen.lit k
  flag : m'.registers.v.get 15 = 1 ∧ (∃ k, m.screen.lit k = true ∧ m'.screen.lit k = false) ∨
    m'.registers.v.get 15 = 0 ∧ ∀ k, m.screen.lit k = true → m'.screen.lit k = true
  values : ∀ k, k ≠ 15 → m'.registers.v.get k = m.registers.v.get k
  rest : m' =
    { m with
      screen := m'.screen
      registers := { m.registers with v := m'.registers.v } }

/-- The instruction reads its place first and writes the flag last. -/
theorem execute_draw (m : Machine) {i : Instruction} {x y : Fin 16} {n : Nat}
    (hop : i.op = .draw) (hx : i.x = x.val) (hy : i.y = y.val) (hn : i.n = n) :
    let drawn := m.screen.draw (m.registers.v.get x) (m.registers.v.get y) (m.spriteRows n)
    m.execute i =
      { machine :=
          { m with screen := drawn.1, registers := m.registers.put 15 drawn.2.toNat } } := by
  intro drawn
  have hexecute : m.execute i = m.drawSprite i.x i.y i.n := by
    unfold execute
    rw [hop]
  rw [hexecute, hx, hy, hn]
  unfold drawSprite
  rw [Registers.get_natCast, Registers.get_natCast]
  apply onRegisters_of_ok
  exact Registers.set_natCast m.registers 15 drawn.2.toNat

theorem screen_under_sprite (m : Machine) (left top : Int) {n : Nat} (hrows : n ≤ 32) {j c : Nat}
    (hj : j < n) (hc : c < 8) :
    (m.screen.draw left top (m.spriteRows n)).1.lit (cellAt (left + c) (top + j)) =
      (m.screen.lit (cellAt (left + c) (top + j)) ^^ m.spriteBit j c) := by
  obtain ⟨row, hrow, hbit⟩ := m.testBit_spriteRows hj c
  rw [m.screen.lit_draw_under (m.spriteRows_fits hrows) hrow hc, hbit]

/-- A hit is a cell that was switched off. -/
theorem hit_cases (m : Machine) (left top : Int) {n : Nat} (hrows : n ≤ 32) :
    let drawn := m.screen.draw left top (m.spriteRows n)
    drawn.2 = true ∧ (∃ k, m.screen.lit k = true ∧ drawn.1.lit k = false) ∨
      drawn.2 = false ∧ ∀ k, m.screen.lit k = true → drawn.1.lit k = true := by
  intro drawn
  have hlength := m.spriteRows_fits hrows
  have hhit := Screen.draw_hit_iff m.screen left top hlength
  cases hcase : drawn.2 with
  | true =>
      left
      obtain ⟨k, hk, hlit⟩ := hhit.mp hcase
      refine ⟨rfl, k, hlit, ?_⟩
      rw [Screen.lit_draw_of_mem m.screen hlength hk, hlit, Bool.not_true]
  | false =>
      right
      refine ⟨rfl, ?_⟩
      intro k hlit
      rw [Screen.lit_draw_of_notMem m.screen, hlit]
      intro hk
      rw [hhit.mpr ⟨k, hk, hlit⟩] at hcase
      cases hcase

theorem execute_draw_drawn (m : Machine) {i : Instruction} {x y : Fin 16} {n : Nat}
    (hop : i.op = .draw) (hx : i.x = x.val) (hy : i.y = y.val) (hn : i.n = n) (hrows : n ≤ 32) :
    m.Drawn (m.registers.v.get x) (m.registers.v.get y) n (m.execute i).machine := by
  rw [execute_draw m hop hx hy hn]
  generalize m.registers.v.get x = left, m.registers.v.get y = top
  have hflag := m.registers.put_flag (m.screen.draw left top (m.spriteRows n)).2
  constructor
  · intro j c hj hc
    exact m.screen_under_sprite left top hrows hj hc
  · intro k hoff
    apply Screen.lit_draw_of_notMem
    intro hk
    obtain ⟨j, c, hj, hc, -, hsame⟩ := mem_targets_spriteRows.mp hk
    exact hoff j c hj hc hsame
  · rcases m.hit_cases left top hrows with ⟨hhit, hoff⟩ | ⟨hmiss, hkept⟩
    · rw [hhit] at hflag ⊢
      exact Or.inl ⟨hflag.value, hoff⟩
    · rw [hmiss] at hflag ⊢
      exact Or.inr ⟨hflag.value, hkept⟩
  · exact hflag.others
  · rfl

theorem Drawn.spriteRows_eq {m m' : Machine} {left top : Int} {n : Nat}
    (h : m.Drawn left top n m') (count : Nat) : m'.spriteRows count = m.spriteRows count := by
  rw [h.rest]
  rfl

/-- The second of two equal drawings meets a lit cell exactly if the first one
was drawn over a dark cell. -/
theorem second_hit_iff (m : Machine) (left top : Int) {n : Nat} (hrows : n ≤ 32) :
    ((m.screen.draw left top (m.spriteRows n)).1.draw left top (m.spriteRows n)).2 = true ↔
      ∃ j c : Nat, j < n ∧ c < 8 ∧ m.spriteBit j c = true ∧
        m.screen.lit (cellAt (left + c) (top + j)) = false := by
  have hlength := m.spriteRows_fits hrows
  rw [Screen.draw_hit_iff _ left top hlength]
  constructor
  · rintro ⟨k, hk, hlit⟩
    rw [Screen.lit_draw_of_mem m.screen hlength hk] at hlit
    obtain ⟨j, c, hj, hc, hbit, rfl⟩ := mem_targets_spriteRows.mp hk
    exact ⟨j, c, hj, hc, hbit, by simpa using hlit⟩
  · rintro ⟨j, c, hj, hc, hbit, hdark⟩
    have hk : cellAt (left + c) (top + j) ∈ targets left top (m.spriteRows n) :=
      mem_targets_spriteRows.mpr ⟨j, c, hj, hc, hbit, rfl⟩
    refine ⟨_, hk, ?_⟩
    rw [Screen.lit_draw_of_mem m.screen hlength hk, hdark, Bool.not_false]

/-- The drawing instruction combines the screen with the sprite by exclusive or,
at the place that its registers held before, and puts into the flag register
whether a lit cell was switched off; nothing else changes. If neither coordinate
is in the flag register, doing it again brings the screen back, and the flag
tells whether a set bit of the sprite lay over a dark cell. -/
theorem drawing_twice_restores (m : Machine) (i : Instruction) (x y n : Fin 16)
    (hop : i.op = .draw) (hx : i.x = x.val) (hy : i.y = y.val) (hn : i.n = n.val) :
    let left := m.registers.v.get x
    let top := m.registers.v.get y
    let first := m.execute i
    let second := first.machine.execute i
    first.fault = none ∧ m.Drawn left top n.val first.machine ∧
    (x ≠ 15 → y ≠ 15 →
      second.fault = none ∧ second.machine.screen = m.screen ∧
      (second.machine.registers.v.get 15 = 1 ↔
        ∃ j c : Nat, j < n.val ∧ c < 8 ∧ m.spriteBit j c = true ∧
          m.screen.lit (cellAt (left + c) (top + j)) = false)) := by
  intro left top first second
  have hrows : n.val ≤ 32 := by omega
  have hfirst : first = _ := execute_draw m hop hx hy hn
  have hdrawn : m.Drawn left top n.val first.machine := execute_draw_drawn m hop hx hy hn hrows
  refine ⟨by rw [hfirst], hdrawn, ?_⟩
  intro hx15 hy15
  have hscreen : first.machine.screen = (m.screen.draw left top (m.spriteRows n.val)).1 := by
    rw [hfirst]
  have hsecond : second = _ := execute_draw first.machine hop hx hy hn
  rw [hdrawn.values x hx15, hdrawn.values y hy15, hdrawn.spriteRows_eq, hscreen] at hsecond
  have hflag : second.machine.registers.v.get 15 =
      ((m.screen.draw left top (m.spriteRows n.val)).1.draw left top
        (m.spriteRows n.val)).2.toNat := by
    rw [hsecond]
    exact (first.machine.registers.put_flag _).value
  refine ⟨by rw [hsecond], ?_, ?_⟩
  · rw [hsecond]
    exact Screen.draw_draw m.screen left top _
  · rw [hflag, ← m.second_hit_iff left top hrows]
    exact_mod_cast Bool.toNat_eq_one

/-- A program that points at the last byte of memory and at the lower right
corner of the screen, after its three steps. -/
def spriteAcrossEnd : Machine :=
  afterRun [0x60, 0x3E, 0x61, 0x1F, 0xAF, 0xFF] 3

/-- The second of its two rows is the first byte of the font and goes to the top
of the screen. -/
theorem spriteAcrossEnd_comes_and_goes :
    let i : Instruction := { op := .draw, x := 0, y := 1, n := 2 }
    i.op = .draw ∧ (0 : Fin 16) ≠ 15 ∧ (1 : Fin 16) ≠ 15 ∧
      spriteAcrossEnd.registers.index = 0xFFF ∧ spriteAcrossEnd.screen.lit 62 = false ∧
      (spriteAcrossEnd.execute i).fault = none ∧
      (spriteAcrossEnd.execute i).machine.screen.lit 62 = true ∧
      ((spriteAcrossEnd.execute i).machine.execute i).machine.screen = spriteAcrossEnd.screen ∧
      ((spriteAcrossEnd.execute i).machine.execute i).machine.registers.v.get 15 = 1 := by
  intro i
  have hstate : spriteAcrossEnd.registers.v.get 0 = 62 ∧ spriteAcrossEnd.registers.v.get 1 = 31 ∧
      spriteAcrossEnd.registers.index = 0xFFF ∧ spriteAcrossEnd.spriteBit 1 0 = true ∧
      spriteAcrossEnd.screen.lit 62 = false := by
    decide +kernel
  obtain ⟨hleft, htop, hindex, hbit, hdark⟩ := hstate
  obtain ⟨hfault, hdrawn, htwice⟩ :=
    drawing_twice_restores spriteAcrossEnd i 0 1 2 rfl rfl rfl rfl
  obtain ⟨-, hback, hflag⟩ := htwice (by decide) (by decide)
  have hplace : cellAt (spriteAcrossEnd.registers.v.get 0 + (0 : Nat))
      (spriteAcrossEnd.registers.v.get 1 + (1 : Nat)) = 62 := by
    rw [hleft, htop]
    rfl
  have hlit := hdrawn.under 1 0 (by decide) (by decide)
  rw [hplace, hbit, hdark, Bool.false_xor] at hlit
  refine ⟨rfl, by decide, by decide, hindex, hdark, hfault, hlit, hback, hflag.mpr ?_⟩
  refine ⟨1, 0, by decide, by decide, hbit, ?_⟩
  rw [hplace, hdark]

end Machine

end ChipEight
