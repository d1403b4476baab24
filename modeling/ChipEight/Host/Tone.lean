import ChipEight.Machine.Word

/-!
Sound files and the tone of the machine. A sound file has one channel of signed
sixteen-bit samples behind the 44 bytes of a RIFF header, all numbers
little-endian. `Wave.bytes` writes such a file, and `WaveFile.ofBytes?` reads
any file with one format chunk and one data chunk, field by field.

The tone is whole periods of a square wave. A period is a high half and a low
half of equal length, at least one sample each. The samples are laid out before
the file is begun, so a tone with more of them than can be counted is refused
before its sampling rate is looked at.
-/

namespace ChipEight

structure Wave where
  rate : Nat
  samples : List Int
  deriving DecidableEq

namespace Wave

def littleEndian : Nat → Nat → List UInt8
  | 0, _ => []
  | width + 1, n => UInt8.ofNat n :: littleEndian width (n / 256)

def ofLittleEndian : List UInt8 → Nat
  | [] => 0
  | byte :: rest => byte.toNat + 256 * ofLittleEndian rest

def tag (text : String) : List UInt8 := text.toList.map fun c => UInt8.ofNat c.toNat

def sampleBytes (sample : Int) : List UInt8 := littleEndian 2 (sample % 65536).toNat

def sampleOf (n : Nat) : Int := if n < 32768 then n else n - 65536

def header (rate size : Nat) : List UInt8 :=
  tag "RIFF" ++ littleEndian 4 (36 + size) ++ tag "WAVE" ++
    tag "fmt " ++ littleEndian 4 16 ++ littleEndian 2 1 ++ littleEndian 2 1 ++
    littleEndian 4 rate ++ littleEndian 4 (2 * rate) ++ littleEndian 2 2 ++ littleEndian 2 16 ++
    tag "data" ++ littleEndian 4 size

def bytes (w : Wave) : List UInt8 :=
  header w.rate (2 * w.samples.length) ++ w.samples.flatMap sampleBytes

/-- The numbers of the header that a rate and a number of samples decide, in
their order. Each has a field of four bytes. -/
def headerNumbers (rate count : Nat) : List Nat := [36 + 2 * count, rate, 2 * rate]

def misfit? (rate count : Nat) : Option Nat :=
  (headerNumbers rate count).find? fun n => 4294967296 ≤ n

end Wave

/-- What a sound file says: its sizes in bytes, its format, and the samples of
its data. -/
structure WaveFile where
  riffSize : Nat
  format : Nat
  channels : Nat
  rate : Nat
  byteRate : Nat
  blockSize : Nat
  bits : Nat
  dataSize : Nat
  samples : List Int
  deriving DecidableEq

namespace WaveFile

def dropTag? (text : String) (bytes : List UInt8) : Option (List UInt8) :=
  if (Wave.tag text).isPrefixOf bytes then some (bytes.drop text.length) else none

def number? (width : Nat) (bytes : List UInt8) : Option (Nat × List UInt8) :=
  if width ≤ bytes.length then
    some (Wave.ofLittleEndian (bytes.take width), bytes.drop width)
  else
    none

def samplesOf? : List UInt8 → Option (List Int)
  | [] => some []
  | [_] => none
  | low :: high :: rest =>
    (samplesOf? rest).map (Wave.sampleOf (Wave.ofLittleEndian [low, high]) :: ·)

/-- Reads a file with a format chunk of sixteen bytes and a data chunk that
ends with the file. -/
def ofBytes? (file : List UInt8) : Option WaveFile := do
  let (riffSize, rest) ← number? 4 (← dropTag? "RIFF" file)
  let (formatSize, rest) ← number? 4 (← dropTag? "fmt " (← dropTag? "WAVE" rest))
  let (format, rest) ← number? 2 rest
  let (channels, rest) ← number? 2 rest
  let (rate, rest) ← number? 4 rest
  let (byteRate, rest) ← number? 4 rest
  let (blockSize, rest) ← number? 2 rest
  let (bits, rest) ← number? 2 rest
  let (dataSize, data) ← number? 4 (← dropTag? "data" rest)
  let samples ← samplesOf? data
  if formatSize = 16 ∧ riffSize = 36 + dataSize ∧ dataSize = data.length then
    some { riffSize, format, channels, rate, byteRate, blockSize, bits, dataSize, samples }
  else
    none

end WaveFile

namespace Tone

inductive ToneError where
  | zeroFrequency
  /-- A half period or the number of periods is out of range for a count. -/
  | badCount
  | tooManyBytes
  | noRate
  /-- A number of the header does not fit into its field of four bytes. -/
  | tooLarge
  /-- A number of the header would not even fit into eight bytes. -/
  | outOfRange
  deriving DecidableEq

def ToneError.message : ToneError → String
  | zeroFrequency => "integer division or modulo by zero"
  | badCount => Index.rejection
  | tooManyBytes => "repeated bytes are too long"
  | noRate => "sampling rate not specified"
  | tooLarge => "'L' format requires 0 <= number <= 4294967295"
  | outOfRange => "argument out of range"

def amplitude : Int := 8192

def defaultFrequency : Int := 440

def defaultRate : Int := 22050

def defaultPeriods : Int := 100

def halfPeriod (frequency rate : Int) : Nat :=
  max 1 (rate.fdiv (2 * frequency)).toNat

def period (half : Nat) : List Int :=
  List.replicate half amplitude ++ List.replicate half (-amplitude)

/-- The number of samples that the periods have. A negative number of periods
counts as such, though it has no samples. -/
def sampleCount (frequency rate periods : Int) : Int :=
  2 * halfPeriod frequency rate * periods

/-- Why periods with halves of a length cannot be laid out. A sample takes two
bytes. -/
def layoutError? (half : Nat) (periods : Int) : Option ToneError :=
  if !Index.fits half then some .badCount
  else if !Index.fits periods then some .badCount
  else if Index.limit ≤ 4 * half * periods.toNat then some .tooManyBytes
  else none

def fileError? (rate : Int) (count : Nat) : Option ToneError :=
  if rate ≤ 0 then some .noRate
  else
    (Wave.misfit? rate.toNat count).map fun n =>
      if n < 18446744073709551616 then .tooLarge else .outOfRange

def squareWave (frequency rate periods : Int) : Except ToneError Wave :=
  if frequency = 0 then .error .zeroFrequency
  else
    let half := halfPeriod frequency rate
    match (layoutError? half periods).or (fileError? rate (2 * half * periods.toNat)) with
    | some e => .error e
    | none => .ok ⟨rate.toNat, (List.replicate periods.toNat (period half)).flatten⟩

def fileSize : Nat :=
  match squareWave defaultFrequency defaultRate defaultPeriods with
  | .ok wave => wave.bytes.length
  | .error _ => 0

end Tone

end ChipEight
