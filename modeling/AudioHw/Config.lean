/-
# The fixed configuration of the Tegra audio HAL, and C's integer conversions

`audio_hw.c` runs every PCM at 44100 Hz, 16 bits, two channels: playback in
periods of 1024 frames, two of them in the short regime and four in the long
one, capture in four periods of 1024 frames, or of 512 for a fast input. The
output side also fixes the bounds of `out_write`'s pacing sleeps.

The HAL is built for 32-bit ARM, so `int`, `unsigned int` and `size_t` are all
32 bits wide. `toI32` and `toU32` are the conversions the code makes between
them: to `int` by two's complement, as the compiler does, and to an unsigned
type modulo `2 ^ 32`; `toI64` is the conversion to `int64_t`.

Key definitions: `PcmConfig`, `pcmConfigOut`, `pcmConfigIn`,
`pcmConfigInLowLatency`, `maxWriteSleepUs`, `toI32`, `toU32`, `toI64`.
-/
import Mathlib.Algebra.Group.Nat.Basic
import Mathlib.Algebra.Ring.Int.Defs

namespace AudioHw

def outPeriodSize : ℕ := 1024
def outShortPeriodCount : ℕ := 2
def outLongPeriodCount : ℕ := 4
def outSamplingRate : ℕ := 44100

def inPeriodSize : ℕ := 1024
def inPeriodSizeLowLatency : ℕ := 512
def inPeriodCount : ℕ := 4
def inSamplingRate : ℕ := 44100

/-- `MIN_WRITE_SLEEP_US`: the shortest sleep the pacing loop of `out_write`
bothers with. -/
def minWriteSleepUs : ℤ := 2000

/-- `MAX_WRITE_SLEEP_US`: the time a short regime's worth of frames plays, in
µs; it bounds the pacing sleeps of one `out_write`. -/
def maxWriteSleepUs : ℤ := (outPeriodSize * outShortPeriodCount * 1000000 : ℤ) / outSamplingRate

theorem maxWriteSleepUs_eq : maxWriteSleepUs = 46439 := by decide

/-- `ENOMEM`. -/
def enomem : ℤ := 12

/-- `EINVAL`. -/
def einval : ℤ := 22

/-- The fields of `struct pcm_config` that the HAL reads back. -/
structure PcmConfig where
  channels : ℕ
  rate : ℕ
  periodSize : ℕ
  periodCount : ℕ
  deriving DecidableEq, Repr

/-- `pcm_config_out`. -/
def pcmConfigOut : PcmConfig := ⟨2, outSamplingRate, outPeriodSize, outLongPeriodCount⟩

/-- `pcm_config_in`. -/
def pcmConfigIn : PcmConfig := ⟨2, inSamplingRate, inPeriodSize, inPeriodCount⟩

/-- `pcm_config_in_low_latency`. -/
def pcmConfigInLowLatency : PcmConfig := ⟨2, inSamplingRate, inPeriodSizeLowLatency, inPeriodCount⟩

@[simp] theorem pcmConfigOut_periodSize : pcmConfigOut.periodSize = 1024 := rfl
@[simp] theorem pcmConfigOut_rate : pcmConfigOut.rate = 44100 := rfl

/-! ### Conversions between 32-bit integer types -/

/-- A value converted to a 32-bit `int`. -/
def toI32 (x : ℤ) : ℤ := (x + 2 ^ 31) % 2 ^ 32 - 2 ^ 31

/-- A value converted to a 32-bit unsigned type (`unsigned int`, `size_t`). -/
def toU32 (x : ℤ) : ℕ := (x % 2 ^ 32).toNat

/-- A value an `int` holds converts to itself. -/
theorem toI32_of_mem {x : ℤ} (h1 : -2 ^ 31 ≤ x) (h2 : x < 2 ^ 31) : toI32 x = x := by
  unfold toI32
  rw [Int.emod_eq_of_lt (by omega) (by omega)]
  omega

theorem toI32_mem (x : ℤ) : -2 ^ 31 ≤ toI32 x ∧ toI32 x < 2 ^ 31 := by
  unfold toI32
  have := Int.emod_nonneg (x + 2 ^ 31) (by decide : (2 : ℤ) ^ 32 ≠ 0)
  have := Int.emod_lt_of_pos (x + 2 ^ 31) (by decide : (0 : ℤ) < 2 ^ 32)
  omega

/-- Conversion to `int` sees a value only modulo `2 ^ 32`. -/
theorem toI32_add_mul (x k : ℤ) : toI32 (x + k * 2 ^ 32) = toI32 x := by
  unfold toI32
  rw [show x + k * 2 ^ 32 + 2 ^ 31 = x + 2 ^ 31 + k * 2 ^ 32 by omega, Int.add_mul_emod_self]

/-- A negative `int` converts to `size_t` as itself plus `2 ^ 32`. -/
theorem toU32_of_neg {x : ℤ} (h1 : -2 ^ 32 ≤ x) (h2 : x < 0) : (toU32 x : ℤ) = x + 2 ^ 32 := by
  unfold toU32
  rw [show x % 2 ^ 32 = x + 2 ^ 32 by
    rw [← Int.add_emod_self, Int.emod_eq_of_lt (by omega) (by omega)]]
  omega

/-- A value converted to a 64-bit `int64_t`. -/
def toI64 (x : ℤ) : ℤ := (x + 2 ^ 63) % 2 ^ 64 - 2 ^ 63

theorem toU32_of_nonneg {x : ℤ} (h1 : 0 ≤ x) (h2 : x < 2 ^ 32) : (toU32 x : ℤ) = x := by
  unfold toU32
  rw [Int.emod_eq_of_lt h1 h2]
  omega

end AudioHw
