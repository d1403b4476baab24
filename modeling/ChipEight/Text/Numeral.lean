/-!
Whole numbers as text. Writing gives the digits in a base, most significant
first, with upper-case letters above nine; a fixed width is reached by zeros
between the sign and the digits, and the sign counts in the width.
`ofDigits_digits` says that the digits determine the number.

Reading takes what a person types. Blanks may surround the number, one sign may
stand in front, digits may come from any script, and a single underscore may
stand between two digits. Hexadecimal may carry a `0x` mark, after which one
underscore is also allowed.
-/

namespace ChipEight.Text

def digitChar (d : Nat) : Char :=
  if d < 10 then Char.ofNat (48 + d) else Char.ofNat (55 + d)

/-- The digits of a number, most significant first. Zero has one digit. -/
def digits (base n : Nat) : List Nat :=
  if 2 ≤ base ∧ base ≤ n then digits base (n / base) ++ [n % base] else [n]
termination_by n
decreasing_by exact Nat.div_lt_self (by omega) (by omega)

def ofDigits (base : Nat) (ds : List Nat) : Nat :=
  ds.foldl (fun n d => n * base + d) 0

theorem ofDigits_concat (base : Nat) (ds : List Nat) (d : Nat) :
    ofDigits base (ds ++ [d]) = ofDigits base ds * base + d := by
  simp [ofDigits]

theorem ofDigits_digits (base n : Nat) : ofDigits base (digits base n) = n := by
  fun_induction digits base n with
  | case1 n h ih =>
    rw [ofDigits_concat, ih]
    exact Nat.div_add_mod' n base
  | case2 n h => simp [ofDigits]

def natChars (base n : Nat) : List Char :=
  (digits base n).map digitChar

def signChars (n : Int) : List Char :=
  if n < 0 then ['-'] else []

/-- A signed number in a base, filled with zeros to a least width. -/
def intText (base width : Nat) (n : Int) : String :=
  let ds := natChars base n.natAbs
  let sign := signChars n
  String.ofList (sign ++ List.replicate (width - sign.length - ds.length) '0' ++ ds)

def hex (width : Nat) (n : Int) : String :=
  intText 16 width n

def decimal (n : Int) : String :=
  intText 10 0 n

def wideBlanks : List Nat :=
  [0x85, 0xA0, 0x1680, 0x2000, 0x2001, 0x2002, 0x2003, 0x2004, 0x2005, 0x2006,
   0x2007, 0x2008, 0x2009, 0x200A, 0x2028, 0x2029, 0x202F, 0x205F, 0x3000]

def isBlank (c : Char) : Bool :=
  let n := c.toNat
  n = 32 || (9 ≤ n && n ≤ 13) || wideBlanks.contains n

def trimBlanks (cs : List Char) : List Char :=
  ((cs.dropWhile isBlank).reverse.dropWhile isBlank).reverse

/-- The zeros of all scripts. The digits of a script follow one another. -/
def digitZeros : List Nat :=
  [0x30, 0x660, 0x6F0, 0x7C0, 0x966, 0x9E6, 0xA66, 0xAE6, 0xB66,
   0xBE6, 0xC66, 0xCE6, 0xD66, 0xDE6, 0xE50, 0xED0, 0xF20, 0x1040,
   0x1090, 0x17E0, 0x1810, 0x1946, 0x19D0, 0x1A80, 0x1A90, 0x1B50, 0x1BB0,
   0x1C40, 0x1C50, 0xA620, 0xA8D0, 0xA900, 0xA9D0, 0xA9F0, 0xAA50, 0xABF0,
   0xFF10, 0x104A0, 0x10D30, 0x11066, 0x110F0, 0x11136, 0x111D0, 0x112F0, 0x11450,
   0x114D0, 0x11650, 0x116C0, 0x11730, 0x118E0, 0x11950, 0x11C50, 0x11D50, 0x11DA0,
   0x16A60, 0x16AC0, 0x16B50, 0x1D7CE, 0x1D7D8, 0x1D7E2, 0x1D7EC, 0x1D7F6, 0x1E140,
   0x1E2F0, 0x1E950, 0x1FBF0]

def decimalDigit? (c : Char) : Option Nat :=
  (digitZeros.find? fun z => z ≤ c.toNat && c.toNat < z + 10).map (c.toNat - ·)

/-- The value of a digit: a decimal digit of any script, or an ASCII letter
counted on from ten. -/
def digitValue? (c : Char) : Option Nat :=
  match decimalDigit? c with
  | some d => some d
  | none =>
    if 97 ≤ c.toNat ∧ c.toNat ≤ 122 then some (c.toNat - 87)
    else if 65 ≤ c.toNat ∧ c.toNat ≤ 90 then some (c.toNat - 55)
    else none

def digitBelow? (base : Nat) (c : Char) : Option Nat :=
  (digitValue? c).filter (· < base)

/-- One digit or more, with at most one underscore between neighbours. -/
def digitRun? (base : Nat) : List Char → Option (List Nat)
  | [] => none
  | [c] => (digitBelow? base c).map ([·])
  | c :: '_' :: rest => do
    let d ← digitBelow? base c
    let ds ← digitRun? base rest
    return d :: ds
  | c :: rest => do
    let d ← digitBelow? base c
    let ds ← digitRun? base rest
    return d :: ds

/-- Splits off the sign: is it a minus, and what follows? -/
def splitSign : List Char → Bool × List Char
  | '-' :: rest => (true, rest)
  | '+' :: rest => (false, rest)
  | rest => (false, rest)

/-- Drops the mark of a hexadecimal number and one underscore behind it. -/
def dropHexMark : List Char → List Char
  | z :: x :: rest =>
    if decimalDigit? z = some 0 ∧ (x = 'x' ∨ x = 'X') then
      match rest with
      | '_' :: rest => rest
      | rest => rest
    else z :: x :: rest
  | rest => rest

def signedNumber (base : Nat) (negative : Bool) (ds : List Nat) : Int :=
  if negative then -(ofDigits base ds : Int) else ofDigits base ds

def decimalLimit : Nat := 4300

def readDecimal? (text : String) : Option Int := do
  let (negative, body) := splitSign (trimBlanks text.toList)
  let ds ← digitRun? 10 body
  if ds.length ≤ decimalLimit then return signedNumber 10 negative ds else none

def readHex? (text : String) : Option Int := do
  let (negative, body) := splitSign (trimBlanks text.toList)
  let ds ← digitRun? 16 (dropHexMark body)
  return signedNumber 16 negative ds

end ChipEight.Text
