import ChipEight.Host.Tone
import ChipEight.Proofs.Host.WaveFile
import Mathlib.Algebra.BigOperators.Group.List.Basic
import Mathlib.Tactic.Linarith

/-!
The tone is a square wave without end, cut off after whole periods. `level` is
that wave. The samples of the periods are its first values, and because a cut
falls between two periods, playing them over and over gives all of its values
(`getElem?_samples_mod`). With a rate and a length that fit into a sound file
nothing stands in the way of writing it (`squareWave_eq_ok`), and the samples are
read back from it (`ofBytes?_samples`).
-/

namespace ChipEight

theorem Index.fits_natCast {n : Nat} (h : n < limit) : fits n = true := by
  rw [fits, Bool.and_eq_true, decide_eq_true_iff, decide_eq_true_iff]
  omega

namespace Tone

open Wave

/-- The value at a time of a square wave that goes on for ever. -/
def level (half t : Nat) : Int := if t % (2 * half) < half then 8192 else -8192

/-- The samples of some periods. -/
def samples (half count : Nat) : List Int := (List.replicate count (period half)).flatten

theorem level_add_period (half t : Nat) : level half (t + 2 * half) = level half t := by
  rw [level, Nat.add_mod_right, level]

theorem length_period (half : Nat) : (period half).length = 2 * half := by
  rw [period, List.length_append, List.length_replicate, List.length_replicate, Nat.two_mul]

theorem getElem?_period {half t : Nat} (h : t < 2 * half) :
    (period half)[t]? = some (level half t) := by
  rw [period, level, Nat.mod_eq_of_lt h]
  by_cases hhigh : t < half
  · rw [List.getElem?_append_left (by rwa [List.length_replicate]),
      List.getElem?_replicate_of_lt hhigh, if_pos hhigh]
    rfl
  · have hlow : t - half < half := by omega
    rw [List.getElem?_append_right (by rw [List.length_replicate]; omega), List.length_replicate,
      List.getElem?_replicate_of_lt hlow, if_neg hhigh]
    rfl

theorem sum_period (half : Nat) : (period half).sum = 0 := by
  simp [period]

theorem eq_amplitude_of_mem_period {half : Nat} {sample : Int} (h : sample ∈ period half) :
    sample = amplitude ∨ sample = -amplitude := by
  rcases List.mem_append.mp h with hhigh | hlow
  · exact .inl (List.eq_of_mem_replicate hhigh)
  · exact .inr (List.eq_of_mem_replicate hlow)

theorem samples_succ (half count : Nat) :
    samples half (count + 1) = period half ++ samples half count := rfl

theorem length_samples (half count : Nat) : (samples half count).length = 2 * half * count := by
  induction count with
  | zero => rfl
  | succ count ih =>
      rw [samples_succ, List.length_append, length_period, ih, Nat.mul_succ, Nat.add_comm]

/-- What the samples take up in the file. -/
theorem two_mul_length_samples (half count : Nat) :
    2 * (samples half count).length = 4 * half * count := by
  rw [length_samples, ← Nat.mul_assoc, ← Nat.mul_assoc]

theorem getElem?_samples {half count t : Nat} (h : t < 2 * half * count) :
    (samples half count)[t]? = some (level half t) := by
  induction count generalizing t with
  | zero => exact absurd h (Nat.not_lt_zero t)
  | succ count ih =>
      rw [samples_succ]
      by_cases hfirst : t < 2 * half
      · rw [List.getElem?_append_left (by rwa [length_period]), getElem?_period hfirst]
      · obtain ⟨later, rfl⟩ := Nat.exists_eq_add_of_le' (Nat.le_of_not_lt hfirst)
        rw [Nat.mul_succ] at h
        rw [List.getElem?_append_right (by rw [length_period]; omega), length_period,
          Nat.add_sub_cancel, ih (by omega), level_add_period]

/-- A player that begins again at the end of the samples never leaves the wave. -/
theorem getElem?_samples_mod {half count : Nat} (hhalf : 0 < half) (hcount : 0 < count)
    (t : Nat) : (samples half count)[t % (2 * half * count)]? = some (level half t) := by
  have hlength : 0 < 2 * half * count := Nat.mul_pos (by omega) hcount
  rw [getElem?_samples (Nat.mod_lt t hlength), level, level, Nat.mod_mul_right_mod]

theorem sum_samples (half count : Nat) : (samples half count).sum = 0 := by
  induction count with
  | zero => rfl
  | succ count ih => rw [samples_succ, List.sum_append, sum_period, ih, Int.add_zero]

theorem sixteenBit_of_mem_samples {half count : Nat} {sample : Int}
    (h : sample ∈ samples half count) : SixteenBit sample := by
  obtain ⟨block, hblock, hsample⟩ := List.mem_flatten.mp h
  rw [List.eq_of_mem_replicate hblock] at hsample
  rcases eq_amplitude_of_mem_period hsample with rfl | rfl
  · exact ⟨by decide, by decide⟩
  · exact ⟨by decide, by decide⟩

theorem sampleBytes_level (half t : Nat) :
    sampleBytes (level half t) = [0x00, if t % (2 * half) < half then 0x20 else 0xE0] := by
  rw [level]
  split <;> rfl

theorem natCast_halfPeriod (frequency rate : Int) :
    (halfPeriod frequency rate : Int) = max 1 (rate.fdiv (2 * frequency)) := by
  rw [halfPeriod]
  omega

theorem halfPeriod_pos (frequency rate : Int) : 0 < halfPeriod frequency rate :=
  Nat.lt_of_lt_of_le Nat.one_pos (Nat.le_max_left _ _)

theorem halfPeriod_le_rate (frequency : Int) {rate : Nat} (hrate : 0 < rate) :
    halfPeriod frequency rate ≤ rate := by
  have hquotient : (rate : Int).fdiv (2 * frequency) ≤ rate := by
    rcases Int.le_total 0 (2 * frequency) with hpos | hneg
    · rw [Int.fdiv_eq_ediv_of_nonneg _ hpos]
      exact Int.ediv_le_self _ (Int.natCast_nonneg rate)
    · -- Below zero the quotient is not positive either, and a half is one sample.
      have hnonpos := Int.fdiv_nonpos_of_nonneg_of_nonpos (Int.natCast_nonneg rate) hneg
      omega
  have hhalf := natCast_halfPeriod frequency rate
  omega

/-- For a frequency of at most half the rate, a period is as long as the frequency
asks for but for a rest of less than two samples. -/
theorem halfPeriod_bounds (frequency rate : Int) (hfrequency : 0 < frequency)
    (hrate : 2 * frequency ≤ rate) :
    2 * halfPeriod frequency rate * frequency ≤ rate ∧
      rate < 2 * (halfPeriod frequency rate + 1) * frequency := by
  have hpos : 0 < 2 * frequency := by omega
  have hone : 1 ≤ rate / (2 * frequency) := by
    rw [Int.le_ediv_iff_mul_le hpos]
    omega
  rw [natCast_halfPeriod, Int.fdiv_eq_ediv_of_nonneg rate hpos.le, max_eq_right hone]
  have hbelow := Int.ediv_mul_le rate hpos.ne'
  have habove := Int.lt_ediv_add_one_mul_self rate hpos
  constructor <;> linarith

theorem layoutError?_eq_none {half count : Nat} (hpos : 0 < half) (hhalf : half < Index.limit)
    (hsize : 4 * half * count < Index.limit) : layoutError? half count = none := by
  have hcount : count ≤ 4 * half * count := Nat.le_mul_of_pos_left count (by omega)
  simp only [layoutError?, Index.fits_natCast hhalf,
    Index.fits_natCast (Nat.lt_of_le_of_lt hcount hsize), Int.toNat_natCast, Bool.not_true,
    Bool.false_eq_true, if_false]
  exact if_neg (Nat.not_le.mpr hsize)

theorem misfit?_eq_none {half rate count : Nat} (hrate : rate ≤ 2147483647)
    (hsize : 36 + 4 * half * count < 4294967296) :
    misfit? rate (samples half count).length = none := by
  rw [misfit?_eq_none_iff, two_mul_length_samples]
  omega

theorem squareWave_eq_ok {frequency : Int} {half rate count : Nat} (hfrequency : frequency ≠ 0)
    (hrate : 0 < rate) (hrate' : rate ≤ 2147483647) (hhalf : halfPeriod frequency rate = half)
    (hsize : 36 + 4 * half * count < 4294967296) :
    squareWave frequency rate count = .ok ⟨rate, samples half count⟩ := by
  have hpos := halfPeriod_pos frequency rate
  have hle := halfPeriod_le_rate frequency hrate
  rw [hhalf] at hpos hle
  have hlimit : 4294967296 < Index.limit := by decide
  have hlayout : layoutError? half count = none :=
    layoutError?_eq_none hpos (by omega) (by omega)
  have hfile : fileError? rate (2 * half * count) = none := by
    rw [fileError?, if_neg (by omega), Int.toNat_natCast, ← length_samples,
      misfit?_eq_none hrate' hsize, Option.map_none]
  simp only [squareWave, if_neg hfrequency, hhalf, hlayout, Int.toNat_natCast, hfile,
    Option.or_none]
  rfl

theorem ofBytes?_samples {half rate count : Nat} (hrate : rate ≤ 2147483647)
    (hsize : 36 + 4 * half * count < 4294967296) :
    WaveFile.ofBytes? (Wave.bytes ⟨rate, samples half count⟩) = some
      { riffSize := 36 + 4 * half * count, format := 1, channels := 1, rate,
        byteRate := 2 * rate, blockSize := 2, bits := 16, dataSize := 4 * half * count,
        samples := samples half count } := by
  rw [WaveFile.ofBytes?_bytes ⟨rate, samples half count⟩ (misfit?_eq_none hrate hsize)
    fun _ => sixteenBit_of_mem_samples, two_mul_length_samples]

/-- The file of a tone can be written and says what was asked for. It holds one
channel of sixteen bits at the rate, its sizes agree with its length, and its
samples are those of a square wave over whole periods, each in two's complement
with the low byte first. They sum to zero, and played over and over they go on
as the wave does. For a frequency of at most half the rate, the period is the
longest with two equal halves that is not longer than the frequency asks for. -/
theorem tone_file_holds_square_wave (frequency rate periods : Int) (half : Nat)
    (hfrequency : frequency ≠ 0) (hrate : 1 ≤ rate) (hrate' : rate ≤ 2147483647)
    (hperiods : 0 ≤ periods) (hhalf : (half : Int) = max 1 (rate.fdiv (2 * frequency)))
    (hsize : 36 + 4 * half * periods < 4294967296) :
    sampleCount frequency rate periods = 2 * half * periods ∧
    ∃ wave file, squareWave frequency rate periods = .ok wave ∧
      WaveFile.ofBytes? wave.bytes = some file ∧
      file.format = 1 ∧ file.channels = 1 ∧ file.bits = 16 ∧ file.blockSize = 2 ∧
      file.rate = rate ∧ file.byteRate = 2 * rate ∧
      wave.bytes.length = 44 + 4 * half * periods ∧
      44 + file.dataSize = wave.bytes.length ∧ 8 + file.riffSize = wave.bytes.length ∧
      file.samples.length = 2 * half * periods ∧
      (∀ t < file.samples.length, file.samples[t]? = some (level half t) ∧
        wave.bytes[44 + 2 * t]? = some 0x00 ∧
        wave.bytes[44 + 2 * t + 1]? = some (if t % (2 * half) < half then 0x20 else 0xE0)) ∧
      file.samples.sum = 0 ∧
      (0 < periods → ∀ t, file.samples[t % file.samples.length]? = some (level half t)) ∧
      (0 < frequency → 2 * frequency ≤ rate →
        2 * half * frequency ≤ rate ∧ rate < 2 * (half + 1) * frequency) := by
  have hbounds := halfPeriod_bounds frequency rate
  have hpos := halfPeriod_pos frequency rate
  have hhalf' : halfPeriod frequency rate = half := by
    rw [← natCast_halfPeriod] at hhalf
    omega
  rw [hhalf'] at hbounds hpos
  refine ⟨by rw [sampleCount, hhalf'], ?_⟩
  lift rate to Nat using by omega
  lift periods to Nat using hperiods
  have hsize' : 36 + 4 * half * periods < 4294967296 := by exact_mod_cast hsize
  have hwritten := squareWave_eq_ok hfrequency (by omega) (by omega) hhalf' hsize'
  have hread := ofBytes?_samples (show rate ≤ 2147483647 by omega) hsize'
  have hlength := length_samples half periods
  have hbytes := length_bytes ⟨rate, samples half periods⟩
  rw [two_mul_length_samples] at hbytes
  refine ⟨_, _, hwritten, hread, rfl, rfl, rfl, rfl, rfl, rfl, ?_, hbytes.symm, ?_, ?_, ?_,
    sum_samples half periods, ?_, hbounds⟩
  · rw [hbytes]
    push_cast
    rfl
  · rw [hbytes, ← Nat.add_assoc]
  · exact_mod_cast hlength
  · intro t ht
    have hsample : (samples half periods)[t]? = some (level half t) :=
      getElem?_samples (hlength ▸ ht)
    refine ⟨hsample, ?_, ?_⟩
    · rw [← Nat.add_zero (44 + 2 * t), getElem?_bytes hsample Nat.two_pos, sampleBytes_level]
      rfl
    · rw [getElem?_bytes hsample Nat.one_lt_two, sampleBytes_level]
      rfl
  · intro hsome t
    rw [hlength]
    exact getElem?_samples_mod hpos (by omega) t

/-- Two periods a second at ten samples a second. The halves have two samples each, so
the ten samples of a second are two periods and a half. -/
theorem two_hertz_at_ten_samples :
    (2 : Int) ≠ 0 ∧ (1 : Int) ≤ 10 ∧ (10 : Int) ≤ 2147483647 ∧ (0 : Int) ≤ 3 ∧
    ((2 : Nat) : Int) = max 1 (Int.fdiv 10 (2 * 2)) ∧
    36 + 4 * ((2 : Nat) : Int) * 3 < 4294967296 ∧
    sampleCount 2 10 3 = 12 ∧
    ∃ wave file, squareWave 2 10 3 = .ok wave ∧ WaveFile.ofBytes? wave.bytes = some file ∧
      file.rate = (10 : Int) ∧ wave.bytes.length = (68 : Int) ∧ file.samples.length = (12 : Int) ∧
      file.samples[7]? = some (-8192) ∧ wave.bytes[58]? = some 0x00 ∧
      wave.bytes[59]? = some 0xE0 ∧ file.samples[1001 % file.samples.length]? = some 8192 ∧
      2 * ((2 : Nat) : Int) * 2 ≤ 10 ∧ 10 < 2 * (((2 : Nat) : Int) + 1) * 2 := by
  have hhalf : ((2 : Nat) : Int) = max 1 (Int.fdiv 10 (2 * 2)) := by decide
  obtain ⟨hcount, wave, file, hwritten, hread, -, -, -, -, hrate, -, hbytes, -, -, hlength, hat, -,
    hloop, hbounds⟩ := tone_file_holds_square_wave 2 10 3 2 (by decide) (by decide) (by decide)
      (by decide) hhalf (by decide)
  have htwelve : file.samples.length = (12 : Int) := hlength
  obtain ⟨hlevel, hlow, hhigh⟩ := hat 7 (by omega)
  exact ⟨by decide, by decide, by decide, by decide, hhalf, by decide, hcount, wave, file, hwritten,
    hread, hrate, hbytes, htwelve, hlevel, hlow, hhigh, hloop (by decide) 1001,
    hbounds (by decide) (by decide)⟩

end Tone

end ChipEight
