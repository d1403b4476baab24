import ChipEight.Machine.Word

/-!
The sixteen keys. Pressing and releasing take the key modulo sixteen; asking
about a key outside 0 to 15 answers no. On a host keyboard the left four
columns, from `1` to `V`, stand for the square of the keypad.
-/

namespace ChipEight

structure Keypad where
  held : Vector Bool 16 := Vector.replicate 16 false
  deriving DecidableEq

namespace Keypad

def keyOf (key : Int) : Fin 16 := ⟨(key % 16).toNat, by omega⟩

def press (p : Keypad) (key : Int) : Keypad :=
  ⟨p.held.set (keyOf key) true⟩

def release (p : Keypad) (key : Int) : Keypad :=
  ⟨p.held.set (keyOf key) false⟩

theorem get_press (p : Keypad) (key : Int) (k : Fin 16) :
    (p.press key).held.get k = (decide (keyOf key = k) || p.held.get k) := by
  change (p.held.set (keyOf key) true)[k.val] = (decide (keyOf key = k) || p.held[k.val])
  rw [Vector.getElem_set]
  by_cases h : keyOf key = k
  · simp [h]
  · have apart : (keyOf key).val ≠ k.val := fun same => h (Fin.ext same)
    simp [h, apart]

theorem get_release (p : Keypad) (key : Int) (k : Fin 16) :
    (p.release key).held.get k = (!decide (keyOf key = k) && p.held.get k) := by
  change (p.held.set (keyOf key) false)[k.val] = (!decide (keyOf key = k) && p.held[k.val])
  rw [Vector.getElem_set]
  by_cases h : keyOf key = k
  · simp [h]
  · have apart : (keyOf key).val ≠ k.val := fun same => h (Fin.ext same)
    simp [h, apart]

def isDown (p : Keypad) (key : Int) : Bool :=
  match nibble? key with
  | some k => p.held.get k
  | none => false

def down (p : Keypad) : List (Fin 16) :=
  (List.finRange 16).filter fun k => p.held.get k

def lowest? (p : Keypad) : Option (Fin 16) := p.down.head?

def clear (_ : Keypad) : Keypad := {}

end Keypad

namespace KeyMap

def keys : List (Char × Nat) :=
  [('1', 0x1), ('2', 0x2), ('3', 0x3), ('4', 0xC),
   ('Q', 0x4), ('W', 0x5), ('E', 0x6), ('R', 0xD),
   ('A', 0x7), ('S', 0x8), ('D', 0x9), ('F', 0xE),
   ('Z', 0xA), ('X', 0x0), ('C', 0xB), ('V', 0xF)]

/-- The upper case of a character, as far as it is on the layout. Beyond ASCII
only the long s has an upper case there. -/
def upper (c : Char) : Char :=
  if c.toNat = 0x17F then 'S' else c.toUpper

def ofChar? (c : Char) : Option Nat := keys.lookup (upper c)

def ofText? (text : String) : Option Nat :=
  match text.toList with
  | [c] => ofChar? c
  | _ => none

/-- The key of a host key code. Codes of digits and letters are their ASCII
values. -/
def ofCode? (code : Int) : Option Nat :=
  if 0x20 < code ∧ code < 0x7F then ofChar? (Char.ofNat code.toNat) else none

end KeyMap

end ChipEight
