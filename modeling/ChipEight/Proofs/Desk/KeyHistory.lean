import ChipEight.Proofs.Desk.Pacing
import Mathlib.Data.List.Induction
import Mathlib.Order.Bounds.Defs

/-!
Keys over a history. Keys of the host keyboard, the focus, and whoever holds the
keypad itself all move the same sixteen keys, and several codes of the host
keyboard reach one key. One event presses a key, releases it, releases all keys or
leaves the key alone (`held_hear`). So a key is down just if the last event that
concerns it pressed it and the keys were not all released since
(`held_iff_lastPressed`); no press gets stuck and none is lost.
-/

namespace ChipEight

/-- What happens to the keys of a desk. -/
inductive KeyEvent where
  /-- A key of the host keyboard goes down, perhaps again because it is held. -/
  | keyDown (code : Int) (again : Bool)
  | keyUp (code : Int) (again : Bool)
  | focusOut
  | move (move : KeyMove)

namespace KeyEvent

/-- The code of the host keyboard stands for the key, and the key is not just held. -/
def Reaches (code : Int) (again : Bool) (k : Int) : Prop :=
  again = false ∧ ∃ key : Nat, KeyMap.ofCode? code = some key ∧ (key : Int) = k

@[simp] def Presses (k : Int) : KeyEvent → Prop
  | keyDown code again => Reaches code again k
  | move (.press key) => key % 16 = k % 16
  | _ => False

@[simp] def Releases (k : Int) : KeyEvent → Prop
  | keyUp code again => Reaches code again k
  | move (.release key) => key % 16 = k % 16
  | _ => False

@[simp] def ReleasesAll : KeyEvent → Prop
  | focusOut | move .releaseAll => True
  | _ => False

/-- The last event that concerns the key presses it, and the keys are not all
released after it. -/
def LastPressed (history : List KeyEvent) (k : Int) : Prop :=
  ∃ before e after, history = before ++ e :: after ∧ e.Presses k ∧
    ∀ later ∈ after, ¬later.Presses k ∧ ¬later.Releases k ∧ ¬later.ReleasesAll

/-- The keys that a history leaves down. -/
def keysDown (history : List KeyEvent) : Set Int :=
  { k | 0 ≤ k ∧ k ≤ 15 ∧ LastPressed history k }

theorem mem_keysDown_iff {history : List KeyEvent} {k : Int} :
    k ∈ keysDown history ↔ ∃ key : Fin 16, (key.val : Int) = k ∧ LastPressed history key.val := by
  constructor
  · rintro ⟨hlow, hhigh, hlast⟩
    have hval : ((k.toNat : Nat) : Int) = k := Int.toNat_of_nonneg hlow
    refine ⟨⟨k.toNat, by omega⟩, hval, ?_⟩
    rw [hval]
    exact hlast
  · rintro ⟨key, rfl, hlast⟩
    have hkey := key.isLt
    exact ⟨by omega, by omega, hlast⟩

theorem not_lastPressed_nil (k : Int) : ¬LastPressed [] k := by
  rintro ⟨before, e, after, hsplit, -⟩
  simp at hsplit

/-- One more event decides for itself, or leaves it to those before. -/
theorem lastPressed_concat (history : List KeyEvent) (e : KeyEvent) (k : Int) :
    LastPressed (history ++ [e]) k ↔
      e.Presses k ∨ ¬e.Releases k ∧ ¬e.ReleasesAll ∧ LastPressed history k := by
  constructor
  · rintro ⟨before, first, after, hsplit, hpress, hlater⟩
    rcases List.eq_nil_or_concat after with rfl | ⟨after, last, rfl⟩
    · obtain ⟨-, hlast⟩ := List.append_inj' hsplit rfl
      cases hlast
      exact Or.inl hpress
    · rw [List.concat_eq_append, ← List.cons_append, ← List.append_assoc] at hsplit
      obtain ⟨rfl, hlast⟩ := List.append_inj' hsplit rfl
      cases hlast
      simp only [List.concat_eq_append, List.forall_mem_append, List.forall_mem_singleton] at hlater
      obtain ⟨hlater, -, hkept⟩ := hlater
      exact Or.inr ⟨hkept.1, hkept.2, before, first, after, rfl, hpress, hlater⟩
  · rintro (hpress | ⟨hrelease, hall, before, first, after, rfl, hpress, hlater⟩)
    · exact ⟨history, e, [], rfl, hpress, by simp⟩
    · by_cases hagain : e.Presses k
      · exact ⟨_, e, [], rfl, hagain, by simp⟩
      · refine ⟨before, first, after ++ [e], by simp, hpress, ?_⟩
        simp only [List.forall_mem_append, List.forall_mem_singleton]
        exact ⟨hlater, hagain, hrelease, hall⟩

end KeyEvent

theorem KeyMap.ofCode?_lt {code : Int} {key : Nat} (h : KeyMap.ofCode? code = some key) :
    key < 16 := by
  have hkeys : ∀ entry ∈ KeyMap.keys, entry.2 < 16 := by decide
  unfold ofCode? at h
  split at h
  · rw [ofChar?, List.lookup_eq_some_iff] at h
    obtain ⟨before, after, hsplit, -⟩ := h
    have hentry : (upper (Char.ofNat code.toNat), key) ∈ keys := by
      rw [hsplit]
      simp
    exact hkeys _ hentry
  · cases h

theorem KeyEvent.not_reaches {code : Int} {again : Bool}
    (h : KeyMap.ofCode? code = none ∨ again = true) (k : Int) : ¬Reaches code again k := by
  rintro ⟨rfl, key, hkey, -⟩
  rcases h with hnone | hagain
  · rw [hnone] at hkey
    cases hkey
  · cases hagain

theorem KeyEvent.reaches_iff {code : Int} {key : Nat} (hkey : KeyMap.ofCode? code = some key)
    (k : Fin 16) : Reaches code false k.val ↔ (key : Int) % 16 = (k.val : Int) % 16 := by
  have hsmall := KeyMap.ofCode?_lt hkey
  have hk := k.isLt
  constructor
  · rintro ⟨-, key', hkey', hsame⟩
    rw [hkey, Option.some.injEq] at hkey'
    rw [hkey', hsame]
  · intro hsame
    exact ⟨rfl, key, hkey, by omega⟩

namespace Keypad

theorem val_keyOf (key : Int) : ((keyOf key).val : Int) = key % 16 := by
  change ((key % 16).toNat : Int) = key % 16
  omega

theorem keyOf_eq_iff (key : Int) (k : Fin 16) : keyOf key = k ↔ key % 16 = (k.val : Int) % 16 := by
  have hk := k.isLt
  rw [Fin.ext_iff, ← Int.natCast_inj, val_keyOf]
  omega

theorem isDown_natCast (p : Keypad) (k : Fin 16) : p.isDown k.val = p.held.get k := by
  rw [isDown, nibble?_natCast]

theorem isDown_iff (p : Keypad) (k : Int) :
    p.isDown k = true ↔ ∃ key : Fin 16, (key.val : Int) = k ∧ p.held.get key = true := by
  constructor
  · unfold isDown nibble?
    intro hdown
    split at hdown
    · rename_i key hkey
      split at hkey
      · cases hkey
        exact ⟨_, Int.toNat_of_nonneg (by omega), hdown⟩
      · cases hkey
    · cases hdown
  · rintro ⟨key, rfl, hdown⟩
    rw [isDown_natCast]
    exact hdown

theorem lowest?_eq_some_iff (p : Keypad) (key : Fin 16) :
    p.lowest? = some key ↔ p.IsLowest key := by
  refine ⟨isLowest_of_lowest?, ?_⟩
  rintro ⟨hdown, hlower⟩
  cases hfound : p.lowest? with
  | none =>
      rw [(lowest?_eq_none_iff p).mp hfound key] at hdown
      cases hdown
  | some other =>
      obtain ⟨hother, hbelow⟩ := isLowest_of_lowest? hfound
      rcases Nat.lt_trichotomy other key with hlt | hsame | hgt
      · rw [hlower other hlt] at hother
        cases hother
      · rw [Fin.ext hsame]
      · rw [hbelow key hgt] at hdown
        cases hdown

theorem lowest?_eq_some_iff_isLeast (p : Keypad) (key : Fin 16) :
    p.lowest? = some key ↔ IsLeast { k : Int | p.isDown k = true } key.val := by
  rw [lowest?_eq_some_iff]
  constructor
  · rintro ⟨hkey, hlower⟩
    refine ⟨(p.isDown_natCast key).trans hkey, ?_⟩
    intro k hk
    obtain ⟨other, rfl, hother⟩ := (p.isDown_iff k).mp hk
    by_contra habove
    rw [hlower other (by omega)] at hother
    cases hother
  · rintro ⟨hkey, hleast⟩
    refine ⟨(p.isDown_natCast key).symm.trans hkey, ?_⟩
    intro other hother
    rw [Bool.eq_false_iff, ← isDown_natCast]
    intro hdown
    have hle := hleast hdown
    omega

theorem lowest?_eq_none_iff_isDown (p : Keypad) :
    p.lowest? = none ↔ { k : Int | p.isDown k = true } = ∅ := by
  rw [lowest?_eq_none_iff, Set.eq_empty_iff_forall_notMem]
  constructor
  · intro hidle k hk
    obtain ⟨key, rfl, hdown⟩ := (p.isDown_iff k).mp hk
    rw [hidle key] at hdown
    cases hdown
  · intro hnone key
    rw [Bool.eq_false_iff, ← isDown_natCast]
    exact hnone key.val

end Keypad

namespace Desk

/-- The desk after an event. -/
def hear (d : Desk) : KeyEvent → Desk
  | .keyDown code again => (d.keyPress code again).2
  | .keyUp code again => (d.keyRelease code again).2
  | .focusOut => d.focusOut
  | .move move => d.moveKeys [move]

/-- The desk after a history of events. -/
def hearAll (d : Desk) (history : List KeyEvent) : Desk := history.foldl hear d

theorem machine_close (d : Desk) : d.close.machine = d.machine := by
  have hremove (d : Desk) : d.removeSoundFile.machine = d.machine := by
    unfold removeSoundFile
    split <;> rfl
  have hswitch (d : Desk) (on : Bool) : (d.switchTone on).machine = d.machine := by
    rw [switchTone_eq]
  unfold close
  change ((d.pause.switchTone false).removeSoundFile).machine = d.machine
  rw [hremove, hswitch]
  unfold pause
  change ({ d with running := false }.switchTone false).machine = d.machine
  rw [hswitch]

theorem held_onKeypad_press (d : Desk) (key : Int) (k : Fin 16) :
    (d.onKeypad (·.press key)).machine.keypad.held.get k = true ↔
      key % 16 = (k.val : Int) % 16 ∨ d.machine.keypad.held.get k = true := by
  change (d.machine.keypad.press key).held.get k = true ↔ _
  rw [Keypad.get_press, Bool.or_eq_true, decide_eq_true_eq, Keypad.keyOf_eq_iff]

theorem held_onKeypad_release (d : Desk) (key : Int) (k : Fin 16) :
    (d.onKeypad (·.release key)).machine.keypad.held.get k = true ↔
      ¬key % 16 = (k.val : Int) % 16 ∧ d.machine.keypad.held.get k = true := by
  change (d.machine.keypad.release key).held.get k = true ↔ _
  rw [Keypad.get_release, Bool.and_eq_true, Bool.not_eq_true', decide_eq_false_iff_not,
    Keypad.keyOf_eq_iff]

theorem held_clear (p : Keypad) (k : Fin 16) : p.clear.held.get k = false := by
  change (Vector.replicate 16 false)[k.val] = false
  simp

theorem keyPress_of_key (d : Desk) {code : Int} {key : Nat}
    (hkey : KeyMap.ofCode? code = some key) :
    d.hear (.keyDown code false) = d.onKeypad (·.press key) := by
  have hescape : KeyMap.ofCode? escapeCode = none := by decide
  have hother : code ≠ escapeCode := by
    rintro rfl
    rw [hescape] at hkey
    cases hkey
  simp only [hear, keyPress, if_neg hother, hkey]

theorem keyRelease_of_key (d : Desk) {code : Int} {key : Nat}
    (hkey : KeyMap.ofCode? code = some key) :
    d.hear (.keyUp code false) = d.onKeypad (·.release key) := by
  simp only [hear, keyRelease, hkey]

/-- A repeated key and a code without a key leave the keypad as it is, also the code
that closes the window. -/
theorem keypad_of_ineffective (d : Desk) {code : Int} {again : Bool}
    (h : KeyMap.ofCode? code = none ∨ again = true) :
    (d.hear (.keyDown code again)).machine.keypad = d.machine.keypad ∧
      (d.hear (.keyUp code again)).machine.keypad = d.machine.keypad := by
  constructor
  · rw [hear]
    unfold keyPress
    split
    · rw [machine_close]
    · rcases h with hnone | rfl
      · rw [hnone]
      · cases KeyMap.ofCode? code <;> rfl
  · rw [hear]
    unfold keyRelease
    rcases h with hnone | rfl
    · rw [hnone]
    · cases KeyMap.ofCode? code <;> rfl

/-- All that an event can do to one key. -/
theorem held_hear (d : Desk) (e : KeyEvent) (k : Fin 16) :
    (d.hear e).machine.keypad.held.get k = true ↔
      e.Presses k.val ∨
        ¬e.Releases k.val ∧ ¬e.ReleasesAll ∧ d.machine.keypad.held.get k = true := by
  cases e with
  | keyDown code again =>
      by_cases hidle : KeyMap.ofCode? code = none ∨ again = true
      · rw [(d.keypad_of_ineffective hidle).1]
        simp [KeyEvent.not_reaches hidle]
      · obtain ⟨⟨key, hkey⟩, rfl⟩ : (∃ key, KeyMap.ofCode? code = some key) ∧ again = false := by
          simpa [Option.ne_none_iff_exists'] using hidle
        rw [keyPress_of_key d hkey, held_onKeypad_press]
        simp [KeyEvent.reaches_iff hkey]
  | keyUp code again =>
      by_cases hidle : KeyMap.ofCode? code = none ∨ again = true
      · rw [(d.keypad_of_ineffective hidle).2]
        simp [KeyEvent.not_reaches hidle]
      · obtain ⟨⟨key, hkey⟩, rfl⟩ : (∃ key, KeyMap.ofCode? code = some key) ∧ again = false := by
          simpa [Option.ne_none_iff_exists'] using hidle
        rw [keyRelease_of_key d hkey, held_onKeypad_release]
        simp [KeyEvent.reaches_iff hkey]
  | focusOut =>
      change d.machine.keypad.clear.held.get k = true ↔ _
      simp [held_clear]
  | move move =>
      cases move with
      | press key =>
          refine (d.held_onKeypad_press key k).trans ?_
          simp
      | release key =>
          refine (d.held_onKeypad_release key k).trans ?_
          simp
      | releaseAll =>
          change d.machine.keypad.clear.held.get k = true ↔ _
          simp [held_clear]

theorem held_iff_lastPressed {d : Desk} (hempty : d.machine.keypad = {})
    (history : List KeyEvent) (k : Fin 16) :
    (d.hearAll history).machine.keypad.held.get k = true ↔
      KeyEvent.LastPressed history k.val := by
  induction history using List.reverseRecOn with
  | nil =>
      have hup : d.machine.keypad.held.get k = false := by
        rw [hempty]
        exact held_clear {} k
      change d.machine.keypad.held.get k = true ↔ _
      simp [hup, KeyEvent.not_lastPressed_nil]
  | append_singleton history e ih =>
      have hlast : d.hearAll (history ++ [e]) = (d.hearAll history).hear e := by
        simp [hearAll]
      rw [hlast, held_hear, ih, KeyEvent.lastPressed_concat]

/-- After every history of a keypad that was empty, the keys down are those whose last
event pressed them, and the lowest of these is the one that a look for a key finds. A
repeated key and a code without a key change nothing. -/
theorem keys_follow_last_event (d : Desk) (hempty : d.machine.keypad = {})
    (history : List KeyEvent) :
    let after := d.hearAll history
    let keypad := after.machine.keypad
    (∀ k : Int, keypad.isDown k = true ↔ 0 ≤ k ∧ k ≤ 15 ∧ KeyEvent.LastPressed history k) ∧
    (∀ code again, KeyMap.ofCode? code = none ∨ again = true →
      (after.hear (.keyDown code again)).machine.keypad = keypad ∧
        (after.hear (.keyUp code again)).machine.keypad = keypad) ∧
    (∀ key : Fin 16, keypad.lowest? = some key ↔
      IsLeast (KeyEvent.keysDown history) key.val) ∧
    (keypad.lowest? = none ↔ KeyEvent.keysDown history = ∅) := by
  intro after keypad
  have hdown : ∀ k : Int, keypad.isDown k = true ↔ k ∈ KeyEvent.keysDown history := by
    intro k
    rw [Keypad.isDown_iff, KeyEvent.mem_keysDown_iff]
    simp only [keypad, after, held_iff_lastPressed hempty]
  have hkeys : { k : Int | keypad.isDown k = true } = KeyEvent.keysDown history := Set.ext hdown
  refine ⟨hdown, fun code again h => after.keypad_of_ineffective h, ?_, ?_⟩
  · intro key
    rw [Keypad.lowest?_eq_some_iff_isLeast, hkeys]
  · rw [Keypad.lowest?_eq_none_iff_isDown, hkeys]

/-- Two codes and two numbers move key 4, and the loss of focus releases it. Of keys
15 and 0, pressed afterwards, a number beyond the keys releases the latter. -/
def mixedHistory : List KeyEvent :=
  [.keyDown 0x51 false, .move (.press 20), .keyUp 0x71 false, .keyDown 0x71 true,
    .move (.press (-12)), .focusOut, .move (.press (-1)), .keyDown 0x58 false,
    .keyUp 0x56 true, .keyDown escapeCode false, .move (.release 16)]

theorem mixedHistory_leaves_one_key :
    keyReader.machine.keypad = {} ∧ IsLeast (KeyEvent.keysDown mixedHistory) 15 := by
  have hempty : keyReader.machine.keypad = {} := by decide +kernel
  have hlowest : (keyReader.hearAll mixedHistory).machine.keypad.lowest? = some (Fin.last 15) := by
    decide +kernel
  obtain ⟨-, -, hleast, -⟩ := keys_follow_last_event keyReader hempty mixedHistory
  exact ⟨hempty, (hleast (Fin.last 15)).mp hlowest⟩

end Desk

end ChipEight
