import ChipEight.Host.Tone
import Mathlib.Algebra.Ring.Nat

/-!
A sound file says what was written into it. Each step of the reader takes off
just what one step of the writer put on, whatever bytes follow, so the steps
compose (`ofBytes?_bytes`). The numbers have to fit into their fields and the
samples into sixteen bits; `misfit?` checks the first of these.
-/

namespace ChipEight

namespace Wave

@[simp] theorem length_littleEndian (width n : Nat) : (littleEndian width n).length = width := by
  induction width generalizing n with
  | zero => rfl
  | succ width ih => rw [littleEndian, List.length_cons, ih]

theorem ofLittleEndian_littleEndian {width n : Nat} (h : n < 256 ^ width) :
    ofLittleEndian (littleEndian width n) = n := by
  induction width generalizing n with
  | zero =>
      rw [pow_zero, Nat.lt_one_iff] at h
      rw [h]
      rfl
  | succ width ih =>
      have hrest : n / 256 < 256 ^ width := by
        apply Nat.div_lt_of_lt_mul
        rwa [← pow_succ']
      rw [littleEndian, ofLittleEndian, ih hrest, UInt8.toNat_ofNat']
      exact Nat.mod_add_div n 256

@[simp] theorem length_tag (text : String) : (tag text).length = text.length := by
  rw [tag, List.length_map, String.length_toList]

@[simp] theorem length_sampleBytes (sample : Int) : (sampleBytes sample).length = 2 :=
  length_littleEndian 2 _

/-- The samples that sixteen bits can hold. -/
def SixteenBit (sample : Int) : Prop := -32768 ≤ sample ∧ sample < 32768

theorem sampleOf_sampleBytes {sample : Int} (h : SixteenBit sample) :
    sampleOf (ofLittleEndian (sampleBytes sample)) = sample := by
  obtain ⟨hlow, hhigh⟩ := h
  have hbits : (sample % 65536).toNat < 256 ^ 2 := by omega
  rw [sampleBytes, ofLittleEndian_littleEndian hbits, sampleOf]
  split <;> omega

theorem length_flatMap_sampleBytes (samples : List Int) :
    (samples.flatMap sampleBytes).length = 2 * samples.length := by
  induction samples with
  | nil => rfl
  | cons sample rest ih =>
      rw [List.flatMap_cons, List.length_append, length_sampleBytes, ih, List.length_cons]
      omega

theorem length_header (rate size : Nat) : (header rate size).length = 44 := by
  simp only [header, List.length_append, length_littleEndian, length_tag]
  rfl

theorem length_bytes (w : Wave) : w.bytes.length = 44 + 2 * w.samples.length := by
  rw [bytes, List.length_append, length_header, length_flatMap_sampleBytes]

theorem getElem?_flatMap_sampleBytes (samples : List Int) (t i : Nat) (h : i < 2) :
    (samples.flatMap sampleBytes)[2 * t + i]? =
      samples[t]?.bind fun sample => (sampleBytes sample)[i]? := by
  induction samples generalizing t with
  | nil => simp
  | cons sample rest ih =>
      cases t with
      | zero =>
          rw [List.flatMap_cons, List.getElem?_append_left (by rw [length_sampleBytes]; omega)]
          simp
      | succ t =>
          have hskip : 2 * (t + 1) + i - 2 = 2 * t + i := by omega
          rw [List.flatMap_cons, List.getElem?_append_right (by rw [length_sampleBytes]; omega),
            length_sampleBytes, hskip, ih, List.getElem?_cons_succ]

/-- The two bytes of a sample stand behind the header and the samples before it,
the low one first. -/
theorem getElem?_bytes {w : Wave} {t : Nat} {sample : Int} (h : w.samples[t]? = some sample)
    {i : Nat} (hi : i < 2) : w.bytes[44 + 2 * t + i]? = (sampleBytes sample)[i]? := by
  have hskip : 44 + 2 * t + i - 44 = 2 * t + i := by omega
  rw [bytes, List.getElem?_append_right (by rw [length_header]; omega), length_header, hskip,
    getElem?_flatMap_sampleBytes _ _ _ hi, h, Option.bind_some]

theorem misfit?_eq_none_iff (rate count : Nat) :
    misfit? rate count = none ↔ 36 + 2 * count < 4294967296 ∧ 2 * rate < 4294967296 := by
  simp only [misfit?, headerNumbers, List.find?_eq_none, List.mem_cons, List.not_mem_nil,
    or_false, forall_eq_or_imp, forall_eq, decide_eq_true_eq]
  omega

end Wave

namespace WaveFile

open Wave

variable {α : Type}

theorem dropTag?_bind (text : String) (rest : List UInt8) (next : List UInt8 → Option α) :
    (dropTag? text (tag text ++ rest) >>= next) = next rest := by
  rw [dropTag?, if_pos (List.isPrefixOf_iff_prefix.mpr (List.prefix_append _ _)),
    List.drop_left' (length_tag text)]
  rfl

theorem number?_bind {width n : Nat} (h : n < 256 ^ width) (rest : List UInt8)
    (next : Nat × List UInt8 → Option α) :
    (number? width (littleEndian width n ++ rest) >>= next) = next (n, rest) := by
  have hlength := length_littleEndian width n
  rw [number?, if_pos (by rw [List.length_append, hlength]; omega), List.take_left' hlength,
    List.drop_left' hlength, ofLittleEndian_littleEndian h]
  rfl

theorem samplesOf?_append (sample : Int) (rest : List UInt8) :
    samplesOf? (sampleBytes sample ++ rest) =
      (samplesOf? rest).map (sampleOf (ofLittleEndian (sampleBytes sample)) :: ·) := rfl

theorem samplesOf?_flatMap {samples : List Int} (h : ∀ sample ∈ samples, SixteenBit sample) :
    samplesOf? (samples.flatMap sampleBytes) = some samples := by
  induction samples with
  | nil => rfl
  | cons sample rest ih =>
      obtain ⟨hsample, hrest⟩ := List.forall_mem_cons.mp h
      rw [List.flatMap_cons, samplesOf?_append, sampleOf_sampleBytes hsample, ih hrest,
        Option.map_some]

/-- The reader finds the format, the sizes and the samples of the wave that was
written. -/
theorem ofBytes?_bytes (w : Wave) (hfits : misfit? w.rate w.samples.length = none)
    (hsamples : ∀ sample ∈ w.samples, SixteenBit sample) :
    ofBytes? w.bytes = some
      { riffSize := 36 + 2 * w.samples.length, format := 1, channels := 1,
        rate := w.rate, byteRate := 2 * w.rate, blockSize := 2, bits := 16,
        dataSize := 2 * w.samples.length, samples := w.samples } := by
  obtain ⟨hsize, hrate⟩ := (misfit?_eq_none_iff _ _).mp hfits
  have hdata : 2 * w.samples.length < 4294967296 := by omega
  have hrate' : w.rate < 4294967296 := by omega
  rw [bytes, header]
  simp only [List.append_assoc]
  -- One step for each field. The reader is not simplified as a whole, for what follows a
  -- field stands inside a function of it.
  refine (dropTag?_bind "RIFF" _ _).trans ?_
  refine (number?_bind hsize _ _).trans ?_
  refine (dropTag?_bind "WAVE" _ _).trans ?_
  refine (dropTag?_bind "fmt " _ _).trans ?_
  refine (number?_bind (show 16 < 256 ^ 4 by decide) _ _).trans ?_
  refine (number?_bind (show 1 < 256 ^ 2 by decide) _ _).trans ?_
  refine (number?_bind (show 1 < 256 ^ 2 by decide) _ _).trans ?_
  refine (number?_bind hrate' _ _).trans ?_
  refine (number?_bind hrate _ _).trans ?_
  refine (number?_bind (show 2 < 256 ^ 2 by decide) _ _).trans ?_
  refine (number?_bind (show 16 < 256 ^ 2 by decide) _ _).trans ?_
  refine (dropTag?_bind "data" _ _).trans ?_
  refine (number?_bind hdata _ _).trans ?_
  dsimp only
  rw [samplesOf?_flatMap hsamples]
  exact if_pos ⟨rfl, rfl, (length_flatMap_sampleBytes w.samples).symm⟩

-- Both sides above use `tag`; here are its bytes in a file with two samples.
example : Wave.bytes ⟨8000, [1, -2]⟩ =
    [0x52, 0x49, 0x46, 0x46, 0x28, 0x00, 0x00, 0x00, 0x57, 0x41, 0x56, 0x45,
      0x66, 0x6D, 0x74, 0x20, 0x10, 0x00, 0x00, 0x00, 0x01, 0x00, 0x01, 0x00,
      0x40, 0x1F, 0x00, 0x00, 0x80, 0x3E, 0x00, 0x00, 0x02, 0x00, 0x10, 0x00,
      0x64, 0x61, 0x74, 0x61, 0x04, 0x00, 0x00, 0x00, 0x01, 0x00, 0xFE, 0xFF] := by
  decide

end WaveFile

end ChipEight
