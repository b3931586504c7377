/-
# Write pacing in `out_write`

Before each `pcm_write` of an active output stream, `out_write` chooses the
buffering regime (long, four periods, while the screen is off and no input is
active; short, two, otherwise), sleeps while the kernel holds more than
`cur_write_threshold` frames, and then moves `cur_write_threshold` toward
`write_threshold`: a quarter period per write, or, when the kernel buffer has
drained more than two periods below the target, back to a quarter period above
the period the kernel is in.

`outWritePace` is that part of `out_write`: the regime update
(`updateBufferType`), the sleep loop (`paceLoop`; the hardware's answers are a
sequence `qs`, and a fuel bounds the iterations), the threshold step
(`stepCurWriteThreshold`) and the count of frames written.

* `paceLoop_finishes`: while every reading exceeds the threshold by less than
  `2 ^ 20` frames, the loop ends within `MAX_WRITE_SLEEP_US / MIN_WRITE_SLEEP_US + 1`
  iterations, its sleeps non-negative and adding up to at most
  `MAX_WRITE_SLEEP_US`.
* `outWritePace_curWriteThreshold`: one write moves `cur_write_threshold` a quarter
  period toward the target, or resets it above a depleted buffer, or leaves it.
* `curWriteThreshold_converges`: writes with no regime change bring it to the
  target in `⌈|W - C₀| / 256⌉` steps, monotonically.
* `outWritePace_kernelFrames_garbage`: when no reading succeeds, the step reads
  the uninitialised `kernel_frames`.

Key definitions: `Pace`, `Pace.Valid`, `paceStep`, `paceLoop`, `lastReading`,
`stepCurWriteThreshold`, `outWritePace`.
-/
import AudioHw.Config
import Mathlib.Algebra.BigOperators.Group.List

namespace AudioHw

/-- `OUT_BUFFER_TYPE_UNKNOWN`, `OUT_BUFFER_TYPE_SHORT`, `OUT_BUFFER_TYPE_LONG`. -/
inductive BufferType
  | unknown
  | short
  | long
  deriving DecidableEq, Repr

/-- The period count of a regime, as `out_write` picks it. -/
def BufferType.periodCount : BufferType → ℕ
  | .long => outLongPeriodCount
  | _ => outShortPeriodCount

/-- The fields of `struct stream_out` that the write path paces with:
`write_threshold`, `cur_write_threshold`, `buffer_type` and `written`. -/
structure Pace where
  writeThreshold : ℤ
  curWriteThreshold : ℤ
  bufferType : BufferType
  written : ℕ
  deriving DecidableEq, Repr

/-- The regime `out_write` chooses: long while the screen is off and no input
stream is active. -/
def chooseBufferType (screenOff activeIn : Bool) : BufferType :=
  if screenOff && !activeIn then .long else .short

/-- The regime update of `out_write`: a new regime sets `write_threshold`, and
`cur_write_threshold` with it when the stream has just left standby. -/
def updateBufferType (p : Pace) (bt : BufferType) : Pace :=
  if bt = p.bufferType then p
  else
    let w : ℤ := pcmConfigOut.periodSize * bt.periodCount
    { p with
      writeThreshold := w
      curWriteThreshold := if p.bufferType = .unknown then w else p.curWriteThreshold
      bufferType := bt }

/-! ### The sleep loop -/

/-- What one `pcm_get_htimestamp` of the pacing loop returns: a failure, or the
frames `avail` free in the kernel buffer, after which the loop also reads the
buffer's size from `pcm_get_buffer_size`. -/
inductive Query
  | fail
  | ok (avail bufferSize : ℕ)
  deriving DecidableEq, Repr

/-- The locals of the pacing loop: `kernel_frames`, `total_sleep_time_us`, the
iterations run, and the `usleep` arguments issued. -/
structure Pacer where
  kernelFrames : ℤ
  totalSleep : ℤ
  iters : ℕ
  sleeps : List ℤ
  deriving DecidableEq, Repr

/-- The frames the kernel holds, as `out_write` computes them from a reading:
an `unsigned int` difference stored in the `int` `kernel_frames`. -/
def queuedFrames (avail bufferSize : ℕ) : ℤ := toI32 ((bufferSize : ℤ) - avail)

/-- The sleep `out_write` asks for when the kernel holds `kf` frames against the
threshold `c`: the excess in `int`, times 10⁶ in `int64_t`, divided (toward
zero) by the rate, back to `int`. -/
def sleepFor (kf c : ℤ) : ℤ := toI32 (Int.tdiv (toI32 (kf - c) * 1000000) pcmConfigOut.rate)

/-- One iteration of the pacing loop against the threshold `c`, on the reading
`q`: the locals after it, and whether the loop goes on. -/
def paceStep (c : ℤ) (q : Query) (st : Pacer) : Pacer × Bool :=
  match q with
  | .fail => ({ st with iters := st.iters + 1 }, false)
  | .ok avail bufferSize =>
    let kf := queuedFrames avail bufferSize
    if c < kf then
      let sleep := sleepFor kf c
      if sleep < minWriteSleepUs then ({ st with kernelFrames := kf, iters := st.iters + 1 }, false)
      else
        let total := toI32 (st.totalSleep + sleep)
        let arg := if maxWriteSleepUs < total then toI32 (maxWriteSleepUs - toI32 (total - sleep))
          else sleep
        (⟨kf, total, st.iters + 1, st.sleeps ++ [arg]⟩, decide (total ≤ maxWriteSleepUs))
    else ({ st with kernelFrames := kf, iters := st.iters + 1 }, false)

/-- The pacing `do … while` loop of `out_write`: its `i`-th iteration reads
`qs i`. It runs `fuel` iterations at most, and is `none` if that is not enough. -/
def paceLoop (c : ℤ) (qs : ℕ → Query) : ℕ → Pacer → Option Pacer
  | 0, _ => none
  | fuel + 1, st =>
    let r := paceStep c (qs st.iters) st
    if r.2 then paceLoop c qs fuel r.1 else some r.1

/-- The frames the kernel held at the last successful reading among the first
`n`. -/
def lastReading (qs : ℕ → Query) : ℕ → Option ℤ
  | 0 => none
  | n + 1 =>
    match qs n with
    | .ok avail bufferSize => some (queuedFrames avail bufferSize)
    | .fail => lastReading qs n

/-! ### The threshold step and the write path -/

/-- How `out_write` moves `cur_write_threshold` `c` toward `write_threshold` `w`
when the kernel holds `kf` frames. The steps of a quarter period are `size_t`
arithmetic stored back in the `int`; the reset converts `kf` to `size_t`. -/
def stepCurWriteThreshold (w c kf : ℤ) : ℤ :=
  let ps := pcmConfigOut.periodSize
  if w < c then
    let c' := toI32 (c - (ps / 4 : ℕ))
    if c' < w then w else c'
  else if c < w then
    let c' := toI32 (c + (ps / 4 : ℕ))
    if w < c' then w else c'
  else if kf < w ∧ ((ps * outShortPeriodCount : ℕ) : ℤ) < toI32 (w - kf) then
    toI32 (toI32 (((toU32 kf / ps + 1) * ps : ℕ) : ℤ) + (ps / 4 : ℕ))
  else c

/-- The write path of `out_write` for a stream out of standby, from the regime
update to the `pcm_write`: the regime it sees (`screenOff`, an active input),
the `bytes` to write, the garbage `kf0` in the uninitialised local
`kernel_frames`, the pacing loop's readings `qs` and fuel, and the status
`pcm_write` returns. The stream is stereo at the PCM's rate, so there is no
down-mix and no resampling: `out_frames` is `bytes / 4`. `none` while the
pacing loop has not finished. -/
def outWritePace (p : Pace) (screenOff activeIn : Bool) (bytes : ℕ) (kf0 : ℤ) (qs : ℕ → Query)
    (fuel : ℕ) (status : ℤ) : Option (Pace × Pacer) :=
  let p1 := updateBufferType p (chooseBufferType screenOff activeIn)
  (paceLoop p1.curWriteThreshold qs fuel ⟨kf0, 0, 0, []⟩).map fun st =>
    ({ p1 with
      curWriteThreshold := stepCurWriteThreshold p1.writeThreshold p1.curWriteThreshold
        st.kernelFrames
      written := if status = 0 then (p1.written + bytes / 4) % 2 ^ 64 else p1.written }, st)

/-- What every output stream satisfies: a known regime has its threshold, and
`cur_write_threshold` is an `int`. -/
structure Pace.Valid (p : Pace) : Prop where
  threshold : p.bufferType ≠ .unknown →
    p.writeThreshold = (outPeriodSize * p.bufferType.periodCount : ℕ)
  cur_ge : -2 ^ 31 ≤ p.curWriteThreshold
  cur_lt : p.curWriteThreshold < 2 ^ 31

/-! ### The sleep loop ends, and sleeps at most `MAX_WRITE_SLEEP_US`

An iteration that goes on slept at least `MIN_WRITE_SLEEP_US` and left the
total at most `MAX_WRITE_SLEEP_US`; so at most `MAX / MIN` iterations go on,
and the one that ends the loop clamps its sleep to what is left. -/

/-- What the pacing loop keeps while it goes on: its sleeps so far are
non-negative and add up to `total_sleep_time_us`, which is at most
`MAX_WRITE_SLEEP_US` and at least `MIN_WRITE_SLEEP_US` per iteration run. -/
structure Pacer.Ok (st : Pacer) : Prop where
  nonneg : ∀ x ∈ st.sleeps, 0 ≤ x
  sum : st.sleeps.sum = st.totalSleep
  le_max : st.totalSleep ≤ maxWriteSleepUs
  iters : (st.iters : ℤ) * minWriteSleepUs ≤ st.totalSleep

theorem Pacer.ok_start (kf0 : ℤ) : Pacer.Ok ⟨kf0, 0, 0, []⟩ :=
  ⟨by simp, rfl, show (0 : ℤ) ≤ maxWriteSleepUs by rw [maxWriteSleepUs_eq]; decide, by simp⟩

/-- An excess of less than `2 ^ 20` frames overflows nothing: the sleep is the
excess's play time, truncated. -/
theorem sleepFor_eq {kf c : ℤ} (h1 : c < kf) (h2 : kf - c < 2 ^ 20) :
    sleepFor kf c = (kf - c) * 1000000 / 44100 := by
  unfold sleepFor
  rw [toI32_of_mem (x := kf - c) (by omega) (by omega), pcmConfigOut_rate, Nat.cast_ofNat,
    Int.tdiv_eq_ediv (by omega) (by decide)]
  exact toI32_of_mem (by omega) (by omega)

theorem paceStep_iters (c : ℤ) (q : Query) (st : Pacer) :
    (paceStep c q st).1.iters = st.iters + 1 := by
  unfold paceStep
  split
  · rfl
  · dsimp only
    split_ifs <;> rfl

/-- One iteration: its sleeps stay non-negative and within `MAX_WRITE_SLEEP_US`,
and if the loop goes on it keeps `Pacer.Ok`. -/
theorem paceStep_ok {c : ℤ} {q : Query} {st : Pacer} (hst : st.Ok)
    (hq : ∀ avail bufferSize, q = .ok avail bufferSize →
      queuedFrames avail bufferSize - c < 2 ^ 20) :
    (∀ x ∈ (paceStep c q st).1.sleeps, 0 ≤ x) ∧ (paceStep c q st).1.sleeps.sum ≤ maxWriteSleepUs ∧
      ((paceStep c q st).2 = true → (paceStep c q st).1.Ok) := by
  obtain ⟨hnn, hsum, hle, hit⟩ := hst
  have hmax : maxWriteSleepUs = 46439 := maxWriteSleepUs_eq
  have hmin : minWriteSleepUs = 2000 := rfl
  rw [hmin] at hit
  have h0 : 0 ≤ st.totalSleep := by omega
  cases q with
  | fail => exact ⟨hnn, by simp only [paceStep]; omega, by simp [paceStep]⟩
  | ok avail bufferSize =>
    simp only [paceStep]
    by_cases hc : c < queuedFrames avail bufferSize
    swap
    · rw [if_neg hc]; dsimp only; exact ⟨hnn, by omega, by simp⟩
    by_cases hs : sleepFor (queuedFrames avail bufferSize) c < minWriteSleepUs
    · rw [if_pos hc, if_pos hs]; dsimp only; exact ⟨hnn, by omega, by simp⟩
    have hx := hq avail bufferSize rfl
    have hsl := sleepFor_eq hc hx
    set s := sleepFor (queuedFrames avail bufferSize) c
    have e1 : toI32 (st.totalSleep + s) = st.totalSleep + s := toI32_of_mem (by omega) (by omega)
    have hall : ∀ x, 0 ≤ x → ∀ y ∈ st.sleeps ++ [x], 0 ≤ y := fun x hx y hy => by
      rw [List.mem_append, List.mem_singleton] at hy
      exact hy.elim (hnn y) (· ▸ hx)
    have hsum' : ∀ x, (st.sleeps ++ [x]).sum = st.totalSleep + x := by simp [hsum]
    rw [if_pos hc, if_neg hs]
    dsimp only
    rw [e1]
    split_ifs with ht
    · -- the sleep that crosses `MAX_WRITE_SLEEP_US` is clamped to what is left
      have e2 : toI32 (st.totalSleep + s - s) = st.totalSleep := by
        rw [add_sub_cancel_right]
        exact toI32_of_mem (by omega) (by omega)
      have e3 : toI32 (maxWriteSleepUs - st.totalSleep) = maxWriteSleepUs - st.totalSleep :=
        toI32_of_mem (by omega) (by omega)
      rw [e2, e3, hsum']
      exact ⟨hall _ (by omega), by omega, fun h => absurd (of_decide_eq_true h) (by omega)⟩
    · refine ⟨hall _ (by omega), by rw [hsum']; omega,
        fun _ => ⟨hall _ (by omega), hsum' s, by dsimp only; omega, ?_⟩⟩
      rw [hmin]
      push_cast
      omega

/-- **The pacing loop ends.** While every reading exceeds the threshold by less
than `2 ^ 20` frames, the loop finishes within `MAX_WRITE_SLEEP_US /
MIN_WRITE_SLEEP_US + 1` iterations, every `usleep` argument it issues is
non-negative, and together they sleep at most `MAX_WRITE_SLEEP_US`. -/
theorem paceLoop_finishes (c kf0 : ℤ) (qs : ℕ → Query)
    (hq : ∀ i avail bufferSize, qs i = .ok avail bufferSize →
      queuedFrames avail bufferSize - c < 2 ^ 20) :
    ∃ st, paceLoop c qs ((maxWriteSleepUs / minWriteSleepUs).toNat + 1) ⟨kf0, 0, 0, []⟩ = some st ∧
      st.iters ≤ (maxWriteSleepUs / minWriteSleepUs).toNat + 1 ∧
      (∀ x ∈ st.sleeps, 0 ≤ x) ∧ st.sleeps.sum ≤ maxWriteSleepUs := by
  have hN : (maxWriteSleepUs / minWriteSleepUs).toNat + 1 = 24 := by rw [maxWriteSleepUs_eq]; rfl
  rw [hN]
  have hbound : ∀ st : Pacer, st.Ok → st.iters ≤ 23 := fun st h => by
    have h1 := h.iters
    have h2 := h.le_max
    rw [show minWriteSleepUs = 2000 from rfl] at h1
    rw [maxWriteSleepUs_eq] at h2
    omega
  suffices ∀ fuel st, Pacer.Ok st → 24 ≤ st.iters + fuel → ∃ st', paceLoop c qs fuel st = some st' ∧
      st'.iters ≤ 24 ∧ (∀ x ∈ st'.sleeps, 0 ≤ x) ∧ st'.sleeps.sum ≤ maxWriteSleepUs from
    this 24 _ (Pacer.ok_start kf0) (by simp)
  intro fuel
  induction fuel with
  | zero => intro st h hf; have := hbound st h; omega
  | succ fuel ih =>
    intro st h hf
    obtain ⟨hnn, hsum, hgo⟩ := paceStep_ok (c := c) (q := qs st.iters) h (hq st.iters)
    have hi := paceStep_iters c (qs st.iters) st
    have := hbound st h
    simp only [paceLoop]
    split
    · exact ih _ (hgo ‹_›) (by omega)
    · exact ⟨_, rfl, by omega, hnn, hsum⟩

/-- A kernel two periods past the short threshold: the loop sleeps the full
`MAX_WRITE_SLEEP_US`, then a clamped `0`, and stops. -/
theorem paceLoop_finishes_twoPeriods :
    (∀ i avail bufferSize, (fun _ => Query.ok 0 4096 : ℕ → Query) i = .ok avail bufferSize →
      queuedFrames avail bufferSize - 2048 < 2 ^ 20) ∧
    ∃ st, paceLoop 2048 (fun _ => .ok 0 4096) ((maxWriteSleepUs / minWriteSleepUs).toNat + 1)
        ⟨0, 0, 0, []⟩ = some st ∧
      st.iters ≤ (maxWriteSleepUs / minWriteSleepUs).toNat + 1 ∧
      (∀ x ∈ st.sleeps, 0 ≤ x) ∧ st.sleeps.sum ≤ maxWriteSleepUs :=
  have hq : ∀ i avail bufferSize, (fun _ => Query.ok 0 4096 : ℕ → Query) i = .ok avail bufferSize →
      queuedFrames avail bufferSize - 2048 < 2 ^ 20 := fun _ _ _ h => by
    injection h with h1 h2
    subst h1 h2
    decide
  ⟨hq, paceLoop_finishes 2048 0 _ hq⟩

/-! ### The regime update keeps the stream valid -/

theorem chooseBufferType_ne_unknown (screenOff activeIn : Bool) :
    chooseBufferType screenOff activeIn ≠ .unknown := by
  unfold chooseBufferType
  split <;> decide

@[simp] theorem updateBufferType_bufferType (p : Pace) (bt : BufferType) :
    (updateBufferType p bt).bufferType = bt := by
  unfold updateBufferType
  split_ifs with h <;> first | exact h.symm | rfl

theorem updateBufferType_of_eq {p : Pace} {bt : BufferType} (h : bt = p.bufferType) :
    updateBufferType p bt = p := if_pos h

/-- A regime's threshold is two or four periods. -/
theorem Pace.Valid.writeThreshold_eq {p : Pace} (hp : p.Valid) (h : p.bufferType ≠ .unknown) :
    p.writeThreshold = 2048 ∨ p.writeThreshold = 4096 := by
  rw [hp.threshold h]
  cases p.bufferType <;> decide

theorem updateBufferType_valid {p : Pace} {bt : BufferType} (hp : p.Valid)
    (hbt : bt ≠ .unknown) : (updateBufferType p bt).Valid := by
  have hw : (pcmConfigOut.periodSize : ℤ) * bt.periodCount = 2048 ∨
      (pcmConfigOut.periodSize : ℤ) * bt.periodCount = 4096 := by
    cases bt <;> decide
  unfold updateBufferType
  split_ifs with h hu
  · exact hp
  · exact ⟨fun _ => by simp [outPeriodSize], by dsimp only; omega, by dsimp only; omega⟩
  · exact ⟨fun _ => by simp [outPeriodSize], hp.cur_ge, hp.cur_lt⟩

/-! ### One step of the threshold -/

/-- One step of `cur_write_threshold` from `C` toward the target `W`, the kernel
holding `kf` frames, as the specification states it: a quarter period toward `W`
without passing it; at the target, a reset to a quarter period above the
period the kernel is in, when it holds more than two periods less than `W`;
otherwise no change. -/
def ThresholdStep (W C kf C' : ℤ) : Prop :=
  (C < W → C < C' ∧ C' ≤ W ∧ C' - C = min ((outPeriodSize : ℤ) / 4) (W - C)) ∧
  (W < C → W ≤ C' ∧ C' < C ∧ C - C' = min ((outPeriodSize : ℤ) / 4) (C - W)) ∧
  (C = W → kf < W - 2 * outPeriodSize →
    C' = (kf / outPeriodSize + 1) * outPeriodSize + (outPeriodSize : ℤ) / 4 ∧ kf < C' ∧ C' < W) ∧
  (C = W → W - 2 * outPeriodSize ≤ kf → C' = W)

/-- The reset's `size_t` arithmetic is floor division, for a negative `kf`
too: `kf` converts to `kf + 2 ^ 32`, a multiple of the period away. -/
theorem resetThreshold_eq {kf : ℤ} (h1 : -2 ^ 30 ≤ kf) (h2 : kf ≤ 2 ^ 30) :
    toI32 (toI32 (((toU32 kf / 1024 + 1) * 1024 : ℕ) : ℤ) + ((1024 / 4 : ℕ) : ℤ)) =
      (kf / 1024 + 1) * 1024 + 256 := by
  have hr : toI32 (((toU32 kf / 1024 + 1) * 1024 : ℕ) : ℤ) = (kf / 1024 + 1) * 1024 := by
    push_cast
    rcases lt_or_le kf 0 with hk | hk
    · rw [toU32_of_neg (by omega) hk,
        show ((kf + 2 ^ 32) / 1024 + 1) * 1024 = (kf / 1024 + 1) * 1024 + 1 * 2 ^ 32 by omega,
        toI32_add_mul]
      exact toI32_of_mem (by omega) (by omega)
    · rw [toU32_of_nonneg hk (by omega)]
      exact toI32_of_mem (by omega) (by omega)
  rw [hr]
  exact toI32_of_mem (by omega) (by omega)

/-- The code's step meets `ThresholdStep`, for a target of at most `2 ^ 20`
frames, an `int` threshold and a reading within `± 2 ^ 30`. -/
theorem stepCurWriteThreshold_spec {W C kf : ℤ} (hW : 0 ≤ W) (hW' : W ≤ 2 ^ 20)
    (hC : -2 ^ 31 ≤ C) (hC' : C < 2 ^ 31) (hk : -2 ^ 30 ≤ kf) (hk' : kf ≤ 2 ^ 30) :
    ThresholdStep W C kf (stepCurWriteThreshold W C kf) := by
  have hP : (outPeriodSize : ℤ) = 1024 := rfl
  unfold stepCurWriteThreshold ThresholdStep
  simp only [pcmConfigOut_periodSize, hP, outShortPeriodCount]
  refine ⟨fun h => ?_, fun h => ?_, fun h hd => ?_, fun h hd => ?_⟩
  · rw [if_neg (by omega), if_pos h, toI32_of_mem (by omega) (by omega)]
    split_ifs <;> omega
  · rw [if_pos h, toI32_of_mem (by omega) (by omega)]
    split_ifs <;> omega
  · rw [if_neg (by omega), if_neg (by omega), if_pos ⟨by omega, by
      rw [toI32_of_mem (by omega) (by omega)]; omega⟩, resetThreshold_eq hk hk']
    have := Int.lt_ediv_add_one_mul_self kf (by decide : (0 : ℤ) < 1024)
    have := Int.ediv_mul_le kf (by decide : (1024 : ℤ) ≠ 0)
    omega
  · rw [if_neg (by omega), if_neg (by omega), if_neg (by
      rw [toI32_of_mem (by omega) (by omega)]; omega)]
    exact h

theorem stepCurWriteThreshold_mem {W C kf : ℤ} (hW : -2 ^ 31 ≤ W) (hW' : W < 2 ^ 31)
    (hC : -2 ^ 31 ≤ C) (hC' : C < 2 ^ 31) :
    -2 ^ 31 ≤ stepCurWriteThreshold W C kf ∧ stepCurWriteThreshold W C kf < 2 ^ 31 := by
  simp only [stepCurWriteThreshold]
  split_ifs
  · exact ⟨hW, hW'⟩
  · exact toI32_mem _
  · exact ⟨hW, hW'⟩
  · exact toI32_mem _
  · exact toI32_mem _
  · exact ⟨hC, hC'⟩

/-! ### The pacing loop's reading -/

theorem paceStep_kernelFrames (c : ℤ) (q : Query) (st : Pacer) :
    (paceStep c q st).1.kernelFrames = match q with
      | .fail => st.kernelFrames
      | .ok avail bufferSize => queuedFrames avail bufferSize := by
  unfold paceStep
  split
  · rfl
  · dsimp only
    split_ifs <;> rfl

/-- At the end of the loop, `kernel_frames` holds the last successful reading,
or, if there was none, what it held before. -/
theorem paceLoop_kernelFrames {c kf0 : ℤ} {qs : ℕ → Query} :
    ∀ {fuel : ℕ} {st st' : Pacer}, st.kernelFrames = (lastReading qs st.iters).getD kf0 →
      paceLoop c qs fuel st = some st' → st'.kernelFrames = (lastReading qs st'.iters).getD kf0
  | 0, _, _, _, h => by simp [paceLoop] at h
  | fuel + 1, st, st', hst, h => by
    have hk : (paceStep c (qs st.iters) st).1.kernelFrames =
        (lastReading qs (paceStep c (qs st.iters) st).1.iters).getD kf0 := by
      rw [paceStep_kernelFrames, paceStep_iters, lastReading]
      cases qs st.iters <;> simp [hst]
    simp only [paceLoop] at h
    split at h
    · exact paceLoop_kernelFrames hk h
    · cases h
      exact hk

/-! ### One write, and a run of writes -/

/-- **One write's threshold step.** On a valid stream, a write path that ends
after a successful reading of `kf` frames (within `± 2 ^ 30`) takes the step
`ThresholdStep` from the threshold the regime update left; just out of
standby that threshold is the target. -/
theorem outWritePace_curWriteThreshold {p p' : Pace} {st : Pacer} {screenOff activeIn : Bool}
    {bytes fuel : ℕ} {kf0 kf status : ℤ} {qs : ℕ → Query} (hp : p.Valid)
    (h : outWritePace p screenOff activeIn bytes kf0 qs fuel status = some (p', st))
    (hkf : lastReading qs st.iters = some kf) (hlo : -2 ^ 30 ≤ kf) (hhi : kf ≤ 2 ^ 30) :
    (p.bufferType = .unknown →
      (updateBufferType p (chooseBufferType screenOff activeIn)).curWriteThreshold =
        (updateBufferType p (chooseBufferType screenOff activeIn)).writeThreshold) ∧
    ThresholdStep (updateBufferType p (chooseBufferType screenOff activeIn)).writeThreshold
      (updateBufferType p (chooseBufferType screenOff activeIn)).curWriteThreshold kf
      p'.curWriteThreshold := by
  set bt := chooseBufferType screenOff activeIn
  have hbt : bt ≠ .unknown := chooseBufferType_ne_unknown screenOff activeIn
  have hv := updateBufferType_valid hp hbt
  have hw := hv.writeThreshold_eq (by simpa using hbt)
  unfold outWritePace at h
  obtain ⟨st0, hl, he⟩ := Option.map_eq_some'.mp h
  cases he
  have hk := paceLoop_kernelFrames rfl hl
  rw [hkf, Option.getD_some] at hk
  refine ⟨fun hu => ?_, ?_⟩
  · unfold updateBufferType
    rw [if_neg (by rw [hu]; exact hbt)]
    simp [hu]
  · rw [hk]
    exact stepCurWriteThreshold_spec (by omega) (by omega) hv.cur_ge hv.cur_lt hlo hhi

/-- Every write path keeps the stream valid. -/
theorem outWritePace_valid {p p' : Pace} {st : Pacer} {screenOff activeIn : Bool}
    {bytes fuel : ℕ} {kf0 status : ℤ} {qs : ℕ → Query} (hp : p.Valid)
    (h : outWritePace p screenOff activeIn bytes kf0 qs fuel status = some (p', st)) :
    p'.Valid := by
  have hv := updateBufferType_valid hp (chooseBufferType_ne_unknown screenOff activeIn)
  unfold outWritePace at h
  obtain ⟨st0, -, he⟩ := Option.map_eq_some'.mp h
  cases he
  have hw := hv.writeThreshold_eq (by simpa using chooseBufferType_ne_unknown screenOff activeIn)
  have hm := fun kf => @stepCurWriteThreshold_mem _ _ kf
    (by omega : -2 ^ 31 ≤ (updateBufferType p (chooseBufferType screenOff activeIn)).writeThreshold)
    (by omega) hv.cur_ge hv.cur_lt
  exact ⟨hv.threshold, (hm _).1, (hm _).2⟩

@[simp] theorem updateBufferType_written (p : Pace) (bt : BufferType) :
    (updateBufferType p bt).written = p.written := by
  unfold updateBufferType
  split_ifs <;> rfl

/-- A write counts the frames of a successful `pcm_write` in `uint64_t`. -/
theorem outWritePace_written {p p' : Pace} {st : Pacer} {screenOff activeIn : Bool}
    {bytes fuel : ℕ} {kf0 status : ℤ} {qs : ℕ → Query}
    (h : outWritePace p screenOff activeIn bytes kf0 qs fuel status = some (p', st)) :
    p'.written = if status = 0 then (p.written + bytes / 4) % 2 ^ 64 else p.written := by
  unfold outWritePace at h
  obtain ⟨st0, -, he⟩ := Option.map_eq_some'.mp h
  cases he
  simp

/-- One write that keeps the regime: what the write path leaves from `p` for
some readings, when the regime it chooses is the one `p` has. -/
def SteadyWrite (p p' : Pace) : Prop :=
  ∃ (screenOff activeIn : Bool) (bytes : ℕ) (kf0 : ℤ) (qs : ℕ → Query) (fuel : ℕ) (status : ℤ)
    (st : Pacer), chooseBufferType screenOff activeIn = p.bufferType ∧
    outWritePace p screenOff activeIn bytes kf0 qs fuel status = some (p', st)

/-- `n` quarter-period steps from `c` toward `w`, stopping at `w`. -/
def approach (w c : ℤ) (n : ℕ) : ℤ :=
  if c < w then min (c + n * ((outPeriodSize : ℤ) / 4)) w
  else max (c - n * ((outPeriodSize : ℤ) / 4)) w

/-- `⌈|w - c| / (period_size / 4)⌉`: the writes the specification says the
threshold needs to reach `w` from `c`. -/
def stepsToTarget (w c : ℤ) : ℕ :=
  ((w - c).natAbs + (outPeriodSize / 4 - 1)) / (outPeriodSize / 4)

theorem approach_zero (w c : ℤ) : approach w c 0 = c := by
  unfold approach
  split_ifs <;> omega

/-- Each of the `n` steps is the one `stepCurWriteThreshold` takes away from the
target. -/
theorem approach_succ (w c : ℤ) (n : ℕ) :
    approach w c (n + 1) = if approach w c n < w then min (approach w c n + 256) w
      else max (approach w c n - 256) w := by
  have hP : (outPeriodSize : ℤ) / 4 = 256 := rfl
  unfold approach
  rw [hP]
  push_cast
  split_ifs <;> omega

theorem approach_ne_of_lt {w c : ℤ} {n : ℕ} (hn : n < stepsToTarget w c) : approach w c n ≠ w := by
  have hP : (outPeriodSize : ℤ) / 4 = 256 := rfl
  have hN : stepsToTarget w c = ((w - c).natAbs + 255) / 256 := rfl
  unfold approach
  rw [hP]
  split_ifs <;> omega

theorem approach_stepsToTarget (w c : ℤ) : approach w c (stepsToTarget w c) = w := by
  have hP : (outPeriodSize : ℤ) / 4 = 256 := rfl
  have hN : stepsToTarget w c = ((w - c).natAbs + 255) / 256 := rfl
  unfold approach
  rw [hP]
  split_ifs <;> omega

/-- Away from the target, the step is a quarter period toward it. -/
theorem stepCurWriteThreshold_of_ne {W C kf : ℤ} (hW : 0 ≤ W) (hW' : W ≤ 2 ^ 20)
    (hC : -2 ^ 31 ≤ C) (hC' : C < 2 ^ 31) (hne : C ≠ W) :
    stepCurWriteThreshold W C kf = if C < W then min (C + 256) W else max (C - 256) W := by
  unfold stepCurWriteThreshold
  simp only [pcmConfigOut_periodSize]
  rcases lt_or_gt_of_ne hne with h | h
  · rw [toI32_of_mem (x := C + ((1024 / 4 : ℕ) : ℤ)) (by omega) (by omega)]
    split_ifs <;> omega
  · rw [toI32_of_mem (x := C - ((1024 / 4 : ℕ) : ℤ)) (by omega) (by omega)]
    split_ifs <;> omega

/-- **Convergence.** From a valid stream whose threshold `C₀` has the target
`W`, writes that keep the regime move the threshold a quarter period
toward `W` each, monotonically and never past it (`approach`), and reach `W`
after exactly `⌈|W - C₀| / (period_size / 4)⌉` writes. -/
theorem curWriteThreshold_converges (ps : ℕ → Pace) (hv : (ps 0).Valid)
    (hrun : ∀ i < stepsToTarget (ps 0).writeThreshold (ps 0).curWriteThreshold,
      SteadyWrite (ps i) (ps (i + 1))) :
    (∀ i ≤ stepsToTarget (ps 0).writeThreshold (ps 0).curWriteThreshold,
      (ps i).curWriteThreshold = approach (ps 0).writeThreshold (ps 0).curWriteThreshold i) ∧
    (∀ i < stepsToTarget (ps 0).writeThreshold (ps 0).curWriteThreshold,
      (ps i).curWriteThreshold ≠ (ps 0).writeThreshold) ∧
    (ps (stepsToTarget (ps 0).writeThreshold (ps 0).curWriteThreshold)).curWriteThreshold =
      (ps 0).writeThreshold := by
  set W := (ps 0).writeThreshold
  set C₀ := (ps 0).curWriteThreshold
  -- the run keeps the regime, hence the target, and the stream valid
  have key : ∀ i ≤ stepsToTarget W C₀, (ps i).Valid ∧ (ps i).writeThreshold = W ∧
      (ps i).curWriteThreshold = approach W C₀ i := by
    intro i
    induction i with
    | zero => intro _; exact ⟨hv, rfl, (approach_zero W C₀).symm⟩
    | succ i ih =>
      intro hi
      obtain ⟨hvi, hwi, hci⟩ := ih (by omega)
      obtain ⟨so, ai, bytes, kf0, qs, fuel, status, st, hbt, h⟩ := hrun i (by omega)
      have hw := hvi.writeThreshold_eq (hbt ▸ chooseBufferType_ne_unknown so ai)
      refine ⟨outWritePace_valid hvi h, ?_⟩
      unfold outWritePace at h
      rw [updateBufferType_of_eq hbt] at h
      obtain ⟨st0, -, he⟩ := Option.map_eq_some'.mp h
      rw [← (Prod.mk.inj he).1]
      refine ⟨hwi, ?_⟩
      dsimp only
      rw [stepCurWriteThreshold_of_ne (by omega) (by omega) hvi.cur_ge hvi.cur_lt
        (by rw [hci, hwi]; exact approach_ne_of_lt (by omega)), hci, hwi, approach_succ]
  refine ⟨fun i hi => (key i hi).2.2, fun i hi => (key i hi.le).2.2 ▸ approach_ne_of_lt hi, ?_⟩
  rw [(key _ le_rfl).2.2, approach_stepsToTarget]

/-- **Threshold smoothing.** Every write that ends after a successful reading
of `kf` frames, `-2 ^ 30 ≤ kf ≤ 2 ^ 30`, takes one `ThresholdStep` from the
threshold the regime update left (the target itself just out of standby); and
writes that keep the regime bring the threshold `C₀` to the target `W`
monotonically, never past it, in exactly `⌈|W - C₀| / (period_size / 4)⌉`
writes. -/
theorem curWriteThreshold_smoothing :
    (∀ (p p' : Pace) (st : Pacer) (screenOff activeIn : Bool) (bytes fuel : ℕ)
      (kf0 kf status : ℤ) (qs : ℕ → Query), p.Valid →
      outWritePace p screenOff activeIn bytes kf0 qs fuel status = some (p', st) →
      lastReading qs st.iters = some kf → -2 ^ 30 ≤ kf → kf ≤ 2 ^ 30 →
      (p.bufferType = .unknown →
        (updateBufferType p (chooseBufferType screenOff activeIn)).curWriteThreshold =
          (updateBufferType p (chooseBufferType screenOff activeIn)).writeThreshold) ∧
      ThresholdStep (updateBufferType p (chooseBufferType screenOff activeIn)).writeThreshold
        (updateBufferType p (chooseBufferType screenOff activeIn)).curWriteThreshold kf
        p'.curWriteThreshold) ∧
    (∀ ps : ℕ → Pace, (ps 0).Valid →
      (∀ i < stepsToTarget (ps 0).writeThreshold (ps 0).curWriteThreshold,
        SteadyWrite (ps i) (ps (i + 1))) →
      (∀ i ≤ stepsToTarget (ps 0).writeThreshold (ps 0).curWriteThreshold,
        (ps i).curWriteThreshold = approach (ps 0).writeThreshold (ps 0).curWriteThreshold i) ∧
      (∀ i < stepsToTarget (ps 0).writeThreshold (ps 0).curWriteThreshold,
        (ps i).curWriteThreshold ≠ (ps 0).writeThreshold) ∧
      (ps (stepsToTarget (ps 0).writeThreshold (ps 0).curWriteThreshold)).curWriteThreshold =
        (ps 0).writeThreshold) :=
  ⟨fun _ _ _ _ _ _ _ _ _ _ _ hp h hkf hlo hhi =>
    outWritePace_curWriteThreshold hp h hkf hlo hhi, curWriteThreshold_converges⟩

/-- In the long regime, a threshold two periods below its target of four,
a quarter period higher at each write. -/
def longClimb (i : ℕ) : Pace := ⟨4096, min (2048 + 256 * i) 4096, .long, 0⟩

/-- Just out of standby with the screen on, a reading of `-100` frames (`avail`
past the buffer's size) is below the threshold by more than two periods: the
threshold resets to a quarter period above the period the reading is in. With
the screen off, in the long regime, a threshold of two periods climbs to its
target of four periods in eight writes. -/
theorem curWriteThreshold_smoothing_resetAndClimb :
    (outWritePace ⟨2048, 2048, .short, 0⟩ false false 4096 0 (fun _ => .ok 4196 4096) 1 0 =
        some (⟨2048, 256, .short, 1024⟩, ⟨-100, 0, 1, []⟩) ∧
      lastReading (fun _ => .ok 4196 4096) 1 = some (-100) ∧ ThresholdStep 2048 2048 (-100) 256) ∧
    (∀ i < stepsToTarget 4096 2048, SteadyWrite (longClimb i) (longClimb (i + 1))) ∧
      stepsToTarget 4096 2048 = 8 ∧ (∀ i < 8, (longClimb i).curWriteThreshold ≠ 4096) ∧
      (longClimb 8).curWriteThreshold = 4096 := by
  have h : outWritePace ⟨2048, 2048, .short, 0⟩ false false 4096 0 (fun _ => .ok 4196 4096) 1 0 =
      some (⟨2048, 256, .short, 1024⟩, ⟨-100, 0, 1, []⟩) := by decide
  have hl : lastReading (fun _ => .ok 4196 4096) 1 = some (-100) := rfl
  have hw : ∀ i < 8, outWritePace (longClimb i) true false 0 0 (fun _ => .fail) 1 0 =
      some (longClimb (i + 1), ⟨0, 0, 1, []⟩) := by decide
  have hs : ∀ i < stepsToTarget 4096 2048, SteadyWrite (longClimb i) (longClimb (i + 1)) :=
    fun i hi => ⟨true, false, 0, 0, _, 1, 0, _, rfl, hw i hi⟩
  have hc := curWriteThreshold_smoothing.2 longClimb ⟨fun _ => rfl, by decide, by decide⟩ hs
  rw [show stepsToTarget (longClimb 0).writeThreshold (longClimb 0).curWriteThreshold = 8 by decide,
    show (longClimb 0).writeThreshold = 4096 from rfl] at hc
  exact ⟨⟨h, hl, (curWriteThreshold_smoothing.1 _ _ _ false false 4096 1 0 (-100) 0 _
    ⟨fun _ => rfl, by decide, by decide⟩ h hl (by decide) (by decide)).2⟩, hs, rfl, hc.2.1, hc.2.2⟩

/-! ### The uninitialised `kernel_frames` -/

/-- **The threshold step reads the uninitialised `kernel_frames`.** Just out of
standby with the screen on (the short regime: `write_threshold =
cur_write_threshold = 2048`) and the PCM not yet running (the first
`pcm_get_htimestamp` fails and the loop breaks before any reading), the garbage
in `kernel_frames` decides the threshold: `0` leaves it at 2048, `-1` resets it
to 256. -/
theorem outWritePace_kernelFrames_garbage :
    outWritePace ⟨0, 0, .unknown, 0⟩ false false 4096 0 (fun _ => .fail) 1 0 =
      some (⟨2048, 2048, .short, 1024⟩, ⟨0, 0, 1, []⟩) ∧
    outWritePace ⟨0, 0, .unknown, 0⟩ false false 4096 (-1) (fun _ => .fail) 1 0 =
      some (⟨2048, 256, .short, 1024⟩, ⟨-1, 0, 1, []⟩) := by
  decide

end AudioHw
