/-!
The random bytes of the machine: the 32-bit Mersenne Twister with a ring of
624 words. Each draw renews one word of the ring from itself, its successor
and the word 397 places ahead, and tempers it. A byte is the top nine bits of
a draw, taken again while they reach 256.
-/

namespace ChipEight

/-- The ring of words and the place that is renewed next. -/
structure Generator where
  words : Vector UInt32 624
  place : Fin 624
  deriving DecidableEq

namespace Generator

def ahead (k : Fin 624) (n : Nat) : Fin 624 := ⟨(k.val + n) % 624, by omega⟩

def scramble (factor w : UInt32) : UInt32 := factor * (w ^^^ (w >>> 30))

def baseWords : Vector UInt32 624 :=
  (List.range 623).foldl
    (fun s k =>
      let i := ahead 0 (k + 1)
      s.set i (scramble 1812433253 (s.get (ahead i 623)) + UInt32.ofNat i.val))
    (Vector.replicate 624 19650218)

def seedWords (n : Nat) : List UInt32 :=
  if n < 4294967296 then [UInt32.ofNat n]
  else UInt32.ofNat n :: seedWords (n / 4294967296)
termination_by n

/-- The place after `i` while mixing. Going past the end copies the last word
to the front and goes on at place one. -/
def advance (s : Vector UInt32 624) (i : Fin 624) : Vector UInt32 624 × Fin 624 :=
  if i.val = 623 then (s.set 0 (s.get 623), 1) else (s, ahead i 1)

/-- Mixes the words of a seed into the ring, `rounds` of them and over again
from the first when they run out. -/
def mixSeed (key : Array UInt32) (rounds : Nat) (s : Vector UInt32 624) :
    Vector UInt32 624 × Fin 624 :=
  (List.range rounds).foldl
    (fun (s, i) k =>
      let j := k % key.size
      let w := (s.get i ^^^ scramble 1664525 (s.get (ahead i 623))) + key.getD j 0 +
        UInt32.ofNat j
      advance (s.set i w) i)
    (s, 1)

def spread (start : Vector UInt32 624 × Fin 624) : Vector UInt32 624 :=
  ((List.range 623).foldl
    (fun (s, i) _ =>
      let w := (s.get i ^^^ scramble 1566083941 (s.get (ahead i 623))) - UInt32.ofNat i.val
      advance (s.set i w) i)
    start).1

def ofKey (key : Array UInt32) : Generator :=
  let s := spread (mixSeed key (max 624 key.size) baseWords)
  ⟨s.set 0 0x80000000, 0⟩

/-- The sign of the seed does not count. -/
def ofSeed (seed : Int) : Generator := ofKey (seedWords seed.natAbs).toArray

def renewed (s : Vector UInt32 624) (k : Fin 624) : UInt32 :=
  let y := (s.get k &&& 0x80000000) ||| (s.get (ahead k 1) &&& 0x7FFFFFFF)
  s.get (ahead k 397) ^^^ (y >>> 1) ^^^ (if y &&& 1 = 1 then 0x9908B0DF else 0)

def temper (y : UInt32) : UInt32 :=
  let y := y ^^^ (y >>> 11)
  let y := y ^^^ ((y <<< 7) &&& 0x9D2C5680)
  let y := y ^^^ ((y <<< 15) &&& 0xEFC60000)
  y ^^^ (y >>> 18)

def next (g : Generator) : UInt32 × Generator :=
  let w := renewed g.words g.place
  (temper w, ⟨g.words.set g.place w, ahead g.place 1⟩)

/-- Draws until the top nine bits are below 256, at most `tries` times; the
last try gives its low eight of these bits. -/
def byteWithin : Nat → Generator → Nat × Generator
  | 0, g =>
    let (w, g) := g.next
    ((w >>> 23).toNat % 256, g)
  | tries + 1, g =>
    let (w, g) := g.next
    let n := (w >>> 23).toNat
    if n < 256 then (n, g) else byteWithin tries g

/-- A random byte. The top bits of the draws follow a linear recurrence of
degree 19937 with a primitive polynomial, so no run of set top bits is longer
than 19937 and the bound on the tries is never met. -/
def byte (g : Generator) : Nat × Generator := byteWithin 19937 g

end Generator

end ChipEight
