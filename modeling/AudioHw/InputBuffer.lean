/-
# The capture buffer, and `in_read` without a resampler

`adev_open_input_stream` refuses a channel mask other than mono (`-EINVAL`),
then fails only if its `calloc` does (`-ENOMEM`); it takes any requested rate
and chooses the PCM configuration (`inPcmConfig`). `start_input_stream`
allocates `in->buffer` for one period of the stereo PCM and, when the
requested rate is not the PCM's, asks `create_resampler` for a resampler,
ignoring its status. Out of standby, `in_read` reads through the resampler if
there is one. Otherwise, the PCM being stereo, it `pcm_read`s `bytes * 2`
bytes into `in->buffer` and copies out the left channel. The caller sizes its
reads by `in_get_buffer_size`: the period scaled to the requested rate,
rounded up to 16 frames.

These three sizes agree exactly when the scaled period is at most the period.
That holds for every rate up to the PCM's, and on every stream whose resampler
was made (`inRead_stereoPath_withinBuffer`). A stream asking for 48000 Hz whose
`create_resampler` fails reads on the stereo path, and `in_get_buffer_size`
tells its caller 2240 bytes against an `in->buffer` of 4096: an `in_read` of
that size makes `pcm_read` overrun the buffer (`inRead_stereoPath_overrunsBuffer`).

Before a stream is opened, `adev_get_input_buffer_size` sizes reads from
`pcm_config_in`; it agrees with `in_get_buffer_size` on the stream the same
configuration opens, except on a fast input at 44100 Hz, whose low-latency
period it does not know: it reports twice that stream's size
(`adevGetInputBufferSize_eq`).

After its read, `in_read` zeroes the caller's buffer if the microphone is
muted, but only when the read succeeded, and returns `bytes` either way. On
the stereo path the capture itself stays in `in->buffer`, so over a run of
calls (`inReadStereoRun`) a later call whose `pcm_read` fails without writing
hands its caller the left channel of what was captured while muted
(`inRead_mutedCaptureLeaks`).

Not covered: the resampler's own path (`read_frames`, `Provider.lean`) and
the mono path, which no configuration of this HAL takes.

Key definitions: `InStream`, `adevOpenInputStream`, `InStream.start`,
`inGetBufferSize`, `adevGetInputBufferSize`, `InStream.readPath`,
`copyLeftFrom`, `inReadStereo`, `StereoInBounds`, `inReadFinish`,
`stereoPcmRead`, `inReadStereoRun`.
Key theorems: `inReadStereo_eq_some`, `inReadStereo_isSome_iff`,
`inGetBufferSize_le_iff`, `adevGetInputBufferSize_eq`,
`inRead_stereoPath_withinBuffer`, `inRead_stereoPath_overrunsBuffer`,
`inRead_mutedCaptureLeaks`.
-/
import AudioHw.Provider

namespace AudioHw

/-- `AUDIO_CHANNEL_IN_MONO`, the one channel mask `adev_open_input_stream`
accepts. -/
def audioChannelInMono : ℕ := 0x10

/-- `audio_stream_in_frame_size` of an input stream: one channel
(`in_get_channels` is `AUDIO_CHANNEL_IN_MONO`) of two bytes (`in_get_format`
is `AUDIO_FORMAT_PCM_16_BIT`). -/
def inFrameSize : ℕ := 1 * 2

/-- `pcm_frames_to_bytes` for a PCM opened with `cfg`: `channels` samples a
frame, two bytes a sample (`PCM_FORMAT_S16_LE`). -/
def pcmFramesToBytes (cfg : PcmConfig) (frames : ℕ) : ℕ := frames * cfg.channels * 2

/-- The fields of `struct stream_in` the read sizes depend on: `pcm_config`,
`requested_rate` (what `in_get_sample_rate` returns), whether `resampler` is
set, and `buffer_size`. -/
structure InStream where
  pcmConfig : PcmConfig
  requestedRate : ℕ
  resampler : Bool
  bufferSize : ℕ
  deriving DecidableEq, Repr

/-- `adev_open_input_stream` for `config->channel_mask`, `config->sample_rate`
and whether `flags` has `AUDIO_INPUT_FLAG_FAST`, `allocated` being whether its
`calloc` succeeded: `-EINVAL` for a mask other than mono, checked before the
`calloc`; `-ENOMEM` if the `calloc` fails; otherwise a stream in standby, with
no resampler and no buffer. -/
def adevOpenInputStream (allocated : Bool) (channelMask rate : ℕ) (fast : Bool) :
    Except ℤ InStream :=
  if channelMask ≠ audioChannelInMono then .error (-einval)
  else if !allocated then .error (-enomem)
  else .ok ⟨inPcmConfig rate fast, rate, false, 0⟩

/-- `start_input_stream` once `pcm_open` gave a ready PCM, on a stream in
standby (whose resampler `adev_open_input_stream` or `do_in_standby` left
`NULL`). When the requested rate is not the PCM's it calls
`create_resampler` and ignores its status, so `in->resampler` is set only if
that succeeded (`created`). `in->buffer_size` is one period of the PCM, in
bytes. -/
def InStream.start (created : Bool) (s : InStream) : InStream :=
  { s with
    resampler := decide (s.requestedRate ≠ s.pcmConfig.rate) && created
    bufferSize := pcmFramesToBytes s.pcmConfig s.pcmConfig.periodSize }

/-- `in_get_buffer_size`: the period scaled to the requested rate, in 32-bit
`unsigned int` arithmetic, rounded up to a multiple of 16 frames, in bytes. -/
def inGetBufferSize (s : InStream) : ℕ :=
  ((s.pcmConfig.periodSize * s.requestedRate % 2 ^ 32 / s.pcmConfig.rate + 15) / 16 * 16) *
    inFrameSize

/-- `adev_get_input_buffer_size` for `config->sample_rate`, with the channels
of `config->channel_mask` and the bytes a sample of `config->format` as
`audio_channel_count_from_in_mask` and `audio_bytes_per_sample` give them: the
period of `pcm_config_in` scaled to the rate, in 32-bit `unsigned int`
arithmetic, rounded up to a multiple of 16 frames, in bytes. -/
def adevGetInputBufferSize (rate channelCount bytesPerSample : ℕ) : ℕ :=
  ((pcmConfigIn.periodSize * rate % 2 ^ 32 / pcmConfigIn.rate + 15) / 16 * 16) * channelCount *
    bytesPerSample

/-- The read `in_read` makes out of standby: `read_frames` through the
resampler; on a stereo PCM, `pcm_read` of `bytes * 2` bytes into `in->buffer`
and the right channel discarded; otherwise `pcm_read` straight into the
caller's buffer. -/
inductive InReadPath
  | readFrames
  | stereo
  | direct
  deriving DecidableEq, Repr

/-- Which read `in_read` makes on the stream `s`. -/
def InStream.readPath (s : InStream) : InReadPath :=
  if s.resampler then .readFrames else if s.pcmConfig.channels = 2 then .stereo else .direct

/-- `k` iterations, from `i`, of `in_buffer[i] = in->buffer[i * 2]`: the
samples copied out, `none` if an iteration reads outside `buf`. -/
def copyLeftFrom : ℕ → ℕ → List ℤ → Option (List ℤ)
  | 0, _, _ => some []
  | k + 1, i, buf =>
    match buf[i * 2]? with
    | none => none
    | some x => (copyLeftFrom k (i + 1) buf).map (x :: ·)

/-- The stereo path of `in_read` asked for `bytes`, with `in->buffer` holding
`buffer`: `pcm_read` of `bytes * 2` bytes, which writes its first `bytes`
samples with what the PCM captured (`rd.data`), then the left channel of
`frames_rq = bytes / audio_stream_in_frame_size` frames copied out. `none` if
it writes or reads outside `in->buffer`. -/
def inReadStereo (s : InStream) (buffer : List ℤ) (bytes : ℕ) (rd : PcmRead) :
    Option (List ℤ) :=
  if bytes * 2 ≤ s.bufferSize then
    copyLeftFrom (bytes / inFrameSize) 0 ((List.range bytes).map rd.data ++ buffer.drop bytes)
  else none

/-- What staying within `in->buffer` asks of the stereo path on `bytes`: the
`pcm_read` of `bytes * 2` bytes fits in `buffer_size`, and every read `i * 2`
of the loop, `i < frames_rq`, falls within its `buffer_size / 2` samples. -/
def StereoInBounds (bufferSize bytes : ℕ) : Prop :=
  bytes * 2 ≤ bufferSize ∧ ∀ i < bytes / inFrameSize, i * 2 < bufferSize / 2

instance (bufferSize bytes : ℕ) : Decidable (StereoInBounds bufferSize bytes) :=
  inferInstanceAs (Decidable (_ ∧ _))

/-! ### The stereo path -/

/-- The loop copies the samples it reads, when every read is within `buf`. -/
theorem copyLeftFrom_eq_some {f : ℕ → ℤ} {buf : List ℤ} :
    ∀ {k i : ℕ}, (∀ j < k, buf[(i + j) * 2]? = some (f (i + j))) →
      copyLeftFrom k i buf = some ((List.range' i k).map f)
  | 0, _, _ => rfl
  | k + 1, i, h => by
    have hk : copyLeftFrom k (i + 1) buf = some ((List.range' (i + 1) k).map f) :=
      copyLeftFrom_eq_some fun j hj => by
        rw [show i + 1 + j = i + (j + 1) by omega]
        exact h (j + 1) (by omega)
    simp only [copyLeftFrom, List.range'_succ, List.map_cons]
    rw [show buf[i * 2]? = some (f i) from h 0 (by omega), hk]
    rfl

/-- Once `pcm_read`'s `bytes * 2` bytes fit in `in->buffer`, the loop reads only
samples `pcm_read` wrote, and returns the left channel of what it captured. -/
theorem inReadStereo_eq_some {s : InStream} {bytes : ℕ} (h : bytes * 2 ≤ s.bufferSize)
    (buffer : List ℤ) (rd : PcmRead) :
    inReadStereo s buffer bytes rd = some (leftChannel (bytes / inFrameSize) rd.data) := by
  rw [inReadStereo, if_pos h, leftChannel, List.range_eq_range' (bytes / inFrameSize)]
  refine copyLeftFrom_eq_some fun j hj => ?_
  have hj' : (0 + j) * 2 < ((List.range bytes).map rd.data).length := by
    simp only [List.length_map, List.length_range, inFrameSize] at hj ⊢
    omega
  rw [List.getElem?_append_left hj', List.getElem?_map,
    List.getElem?_range (by simpa using hj')]
  simp [Nat.mul_comm]

/-- The loop's reads are within the buffer whenever `pcm_read`'s size is. -/
theorem stereoInBounds_iff {bufferSize bytes : ℕ} :
    StereoInBounds bufferSize bytes ↔ bytes * 2 ≤ bufferSize :=
  ⟨And.left, fun h => ⟨h, fun i hi => by simp only [inFrameSize] at hi; omega⟩⟩

/-- The model of the stereo path stays within `in->buffer` exactly when the
bounds hold. -/
theorem inReadStereo_isSome_iff (s : InStream) (buffer : List ℤ) (bytes : ℕ) (rd : PcmRead) :
    (inReadStereo s buffer bytes rd).isSome ↔ StereoInBounds s.bufferSize bytes := by
  rw [stereoInBounds_iff]
  by_cases h : bytes * 2 ≤ s.bufferSize
  · simp [inReadStereo_eq_some h, h]
  · simp [inReadStereo, h]

/-! ### The streams `adev_open_input_stream` opens -/

theorem inPcmConfig_rate (rate : ℕ) (fast : Bool) : (inPcmConfig rate fast).rate = 44100 := by
  unfold inPcmConfig
  split_ifs <;> rfl

theorem inPcmConfig_periodSize (rate : ℕ) (fast : Bool) :
    (inPcmConfig rate fast).periodSize = 1024 ∨ (inPcmConfig rate fast).periodSize = 512 := by
  unfold inPcmConfig
  split_ifs
  · exact .inr rfl
  · exact .inl rfl

section Opened

variable {allocated : Bool} {channelMask rate : ℕ} {fast : Bool} {s : InStream}

theorem adevOpenInputStream_eq_ok (hs : adevOpenInputStream allocated channelMask rate fast = .ok s) :
    s = ⟨inPcmConfig rate fast, rate, false, 0⟩ := by
  unfold adevOpenInputStream at hs
  split_ifs at hs
  exact (Except.ok.inj hs).symm

/-- `in->buffer` holds one period of two channels: four bytes a frame. -/
theorem start_bufferSize (hs : adevOpenInputStream allocated channelMask rate fast = .ok s)
    (created : Bool) : (s.start created).bufferSize = 4 * s.pcmConfig.periodSize := by
  rw [adevOpenInputStream_eq_ok hs]
  simp only [InStream.start, pcmFramesToBytes, (inPcmConfig_fits rate fast).stereo]
  omega

/-- `in_read` takes the stereo path unless a resampler was made. -/
theorem start_readPath (hs : adevOpenInputStream allocated channelMask rate fast = .ok s)
    (created : Bool) :
    (s.start created).readPath = .stereo ↔ ¬ (rate ≠ s.pcmConfig.rate ∧ created = true) := by
  rw [adevOpenInputStream_eq_ok hs]
  by_cases h : rate ≠ (inPcmConfig rate fast).rate ∧ created = true
  · simp [InStream.readPath, InStream.start, h]
  · simp only [not_and, Bool.not_eq_true] at h
    simp [InStream.readPath, InStream.start, (inPcmConfig_fits rate fast).stereo, ne_eq, h]

/-- The buffer size `in_get_buffer_size` reports is at most a period of mono
samples exactly when the scaled period is less than a period and a frame. -/
theorem inGetBufferSize_le_iff (hs : adevOpenInputStream allocated channelMask rate fast = .ok s) :
    inGetBufferSize s ≤ 2 * s.pcmConfig.periodSize ↔
      s.pcmConfig.periodSize * rate % 2 ^ 32 < (s.pcmConfig.periodSize + 1) * s.pcmConfig.rate := by
  rw [adevOpenInputStream_eq_ok hs]
  simp only [inGetBufferSize, inFrameSize, inPcmConfig_rate]
  rcases inPcmConfig_periodSize rate fast with h | h <;> rw [h] <;> omega

end Opened

/-- **When the stereo path of `in_read` stays within `in->buffer`.** Take a
stream `adev_open_input_stream` opens for any rate, with or without
`AUDIO_INPUT_FLAG_FAST`, and any outcome of `create_resampler`, on which
`in_read` takes the stereo path. Every read of at most `in_get_buffer_size`
bytes stays within `in->buffer` exactly when the period scaled to the rate (in
32-bit arithmetic) is less than a period and a frame. This holds for every rate
up to the PCM's 44100 Hz, and whenever `create_resampler` succeeded; and such
a read returns the left channel of what `pcm_read` captured. -/
theorem inRead_stereoPath_withinBuffer (allocated : Bool) (channelMask rate : ℕ) (fast created : Bool)
    (s : InStream) (hs : adevOpenInputStream allocated channelMask rate fast = .ok s)
    (hp : (s.start created).readPath = .stereo) :
    ((∀ bytes ≤ inGetBufferSize s, StereoInBounds (s.start created).bufferSize bytes) ↔
      s.pcmConfig.periodSize * rate % 2 ^ 32 < (s.pcmConfig.periodSize + 1) * s.pcmConfig.rate) ∧
    (rate ≤ inSamplingRate ∨ created = true →
      ∀ bytes ≤ inGetBufferSize s, StereoInBounds (s.start created).bufferSize bytes) ∧
    ∀ bytes, StereoInBounds (s.start created).bufferSize bytes →
      ∀ (buffer : List ℤ) (rd : PcmRead),
        inReadStereo (s.start created) buffer bytes rd =
          some (leftChannel (bytes / inFrameSize) rd.data) := by
  have hb := start_bufferSize hs created
  have hrate : s.pcmConfig.rate = 44100 := by
    rw [adevOpenInputStream_eq_ok hs]
    exact inPcmConfig_rate rate fast
  have hP : s.pcmConfig.periodSize ≤ 1024 := by
    rw [adevOpenInputStream_eq_ok hs]
    dsimp only
    rcases inPcmConfig_periodSize rate fast with h | h <;> omega
  have hiff : (∀ bytes ≤ inGetBufferSize s, StereoInBounds (s.start created).bufferSize bytes) ↔
      inGetBufferSize s ≤ 2 * s.pcmConfig.periodSize := by
    simp only [stereoInBounds_iff, hb]
    exact ⟨fun h => by have := h _ le_rfl; omega, fun h bytes hbytes => by omega⟩
  refine ⟨hiff.trans (inGetBufferSize_le_iff hs), fun hc => ?_, fun bytes hin buffer rd =>
    inReadStereo_eq_some (stereoInBounds_iff.mp hin) buffer rd⟩
  rw [hiff, inGetBufferSize_le_iff hs, hrate]
  -- without a resampler, a stream that asked for a resampler asked for 44100 Hz
  have hr : rate ≤ 44100 := by
    rcases hc with hc | hc
    · exact hc
    · have := (start_readPath hs created).mp hp
      rw [hc, hrate] at this
      simp only [and_true, not_not] at this
      exact this.le
  have h1 : s.pcmConfig.periodSize * rate ≤ s.pcmConfig.periodSize * 44100 :=
    Nat.mul_le_mul_left _ hr
  omega

theorem inRead_stereoPath_withinBuffer_pcmRate :
    adevOpenInputStream true audioChannelInMono 44100 false = .ok ⟨pcmConfigIn, 44100, false, 0⟩ ∧
      (InStream.start false ⟨pcmConfigIn, 44100, false, 0⟩).readPath = .stereo ∧
      ((∀ bytes ≤ inGetBufferSize ⟨pcmConfigIn, 44100, false, 0⟩,
          StereoInBounds (InStream.start false ⟨pcmConfigIn, 44100, false, 0⟩).bufferSize bytes) ↔
        pcmConfigIn.periodSize * 44100 % 2 ^ 32 < (pcmConfigIn.periodSize + 1) * pcmConfigIn.rate) ∧
      (44100 ≤ inSamplingRate ∨ false = true →
        ∀ bytes ≤ inGetBufferSize ⟨pcmConfigIn, 44100, false, 0⟩,
          StereoInBounds (InStream.start false ⟨pcmConfigIn, 44100, false, 0⟩).bufferSize bytes) ∧
      ∀ bytes,
        StereoInBounds (InStream.start false ⟨pcmConfigIn, 44100, false, 0⟩).bufferSize bytes →
        ∀ (buffer : List ℤ) (rd : PcmRead),
          inReadStereo (InStream.start false ⟨pcmConfigIn, 44100, false, 0⟩) buffer bytes rd =
            some (leftChannel (bytes / inFrameSize) rd.data) :=
  have hs : adevOpenInputStream true audioChannelInMono 44100 false =
      .ok ⟨pcmConfigIn, 44100, false, 0⟩ := rfl
  have hp : (InStream.start false ⟨pcmConfigIn, 44100, false, 0⟩).readPath = .stereo := rfl
  ⟨hs, hp, inRead_stereoPath_withinBuffer true audioChannelInMono 44100 false false _ hs hp⟩

/-- **The stereo path of `in_read` overruns `in->buffer`.** A stream opened
mono at 48000 Hz without `AUDIO_INPUT_FLAG_FAST`, whose `create_resampler`
fails, has no resampler, so `in_read` takes the stereo path.
`in_get_buffer_size` reports 2240 bytes, while `in->buffer` holds 4096 bytes
(2048 samples). An `in_read` of 2240 bytes asks `pcm_read` for 4480 bytes, and
its loop would read up to sample 2238; whatever the buffer holds, the read
leaves `in->buffer`. -/
theorem inRead_stereoPath_overrunsBuffer :
    ∃ s, adevOpenInputStream true audioChannelInMono 48000 false = .ok s ∧
      (s.start false).readPath = .stereo ∧ inGetBufferSize s = 2240 ∧
      (s.start false).bufferSize = 4096 ∧ ¬ StereoInBounds (s.start false).bufferSize 2240 ∧
      ∀ buffer rd, inReadStereo (s.start false) buffer 2240 rd = none :=
  ⟨_, rfl, by decide, by decide, by decide, by decide, fun _ _ => if_neg (by decide)⟩

/-! ### The microphone mute -/

/-- The end of `in_read` once its read returned `ret` and left `out` in the
caller's buffer: a positive `ret` (frames from `read_frames`) counts as
success, and after a success a muted microphone (`adev->mic_mute`) zeroes the
`bytes` of the buffer. What the caller finds in its buffer, and what `in_read`
returns: `bytes`, whatever happened. -/
def inReadFinish (micMute : Bool) (ret : ℤ) (bytes : ℕ) (out : List ℤ) : List ℤ × ℕ :=
  let ret := if ret > 0 then 0 else ret
  (if ret = 0 ∧ micMute = true then List.replicate (bytes / inFrameSize) 0 else out, bytes)

/-- `in->buffer` after the stereo path's `pcm_read` of `bytes * 2` bytes: its
first `bytes` samples are those the read left there. -/
def stereoPcmRead (buffer : List ℤ) (bytes : ℕ) (rd : PcmRead) : List ℤ :=
  (List.range bytes).map rd.data ++ buffer.drop bytes

/-- A run of `in_read` calls on the stereo path, from `in->buffer` holding
`buffer`; each pair gives `adev->mic_mute` at the call and what its `pcm_read`
does. What each call leaves in its caller's buffer and returns; `none` if one
leaves `in->buffer`. -/
def inReadStereoRun (s : InStream) (bytes : ℕ) :
    List ℤ → List (Bool × PcmRead) → Option (List (List ℤ × ℕ))
  | _, [] => some []
  | buffer, (micMute, rd) :: rest =>
    (inReadStereo s buffer bytes rd).bind fun out =>
      (inReadStereoRun s bytes (stereoPcmRead buffer bytes rd) rest).map
        (inReadFinish micMute rd.status bytes out :: ·)

/-- With the microphone muted, the caller's buffer is zeroed exactly after a
read that did not fail. -/
theorem inReadFinish_muted (ret : ℤ) (bytes : ℕ) (out : List ℤ) :
    inReadFinish true ret bytes out =
      (if 0 ≤ ret then List.replicate (bytes / inFrameSize) 0 else out, bytes) := by
  unfold inReadFinish
  by_cases h : 0 ≤ ret
  · have h0 : (if ret > 0 then 0 else ret) = 0 := by split_ifs <;> omega
    simp [h0, h]
  · simp [h, show ¬ret > 0 by omega, show ret ≠ 0 by omega]

/-- After a failed read the caller keeps what the read left, muted or not. -/
theorem inReadFinish_of_neg (micMute : Bool) {ret : ℤ} (h : ret < 0) (bytes : ℕ) (out : List ℤ) :
    inReadFinish micMute ret bytes out = (out, bytes) := by
  simp [inReadFinish, show ¬ret > 0 by omega, show ret ≠ 0 by omega]

/-- The left channel of a capture reads only its first `2 * P` samples. -/
theorem leftChannel_congr {P : ℕ} {d d' : ℕ → ℤ} (h : ∀ i < 2 * P, d i = d' i) :
    leftChannel P d = leftChannel P d' :=
  List.map_congr_left fun i hi => h _ (by simp only [List.mem_range] at hi; omega)

/-- A read that leaves the first `bytes` samples as they were leaves
`in->buffer` as it was. -/
theorem stereoPcmRead_stereoPcmRead {buffer : List ℤ} {bytes : ℕ} {rd rd' : PcmRead}
    (h : ∀ i < bytes, rd'.data i = rd.data i) :
    stereoPcmRead (stereoPcmRead buffer bytes rd) bytes rd' = stereoPcmRead buffer bytes rd := by
  have hl : ((List.range bytes).map rd.data).length = bytes := by simp
  rw [stereoPcmRead, stereoPcmRead, List.drop_left' hl,
    List.map_congr_left fun i hi => h i (List.mem_range.mp hi)]

/-- Reads that fail and leave the first `bytes` samples of `in->buffer` as a
read `rd` captured them each hand their caller the left channel of that
capture. -/
theorem inReadStereoRun_failed {s : InStream} {bytes : ℕ} (h : bytes * 2 ≤ s.bufferSize)
    (buffer : List ℤ) (rd : PcmRead) :
    ∀ rest : List (Bool × PcmRead), (∀ q ∈ rest, q.2.status < 0 ∧ ∀ i < bytes, q.2.data i = rd.data i) →
      inReadStereoRun s bytes (stereoPcmRead buffer bytes rd) rest =
        some (rest.map fun _ => (leftChannel (bytes / inFrameSize) rd.data, bytes))
  | [], _ => rfl
  | (micMute, q) :: rest, hq => by
    obtain ⟨hst, hd⟩ := hq _ (.head _)
    have hl : leftChannel (bytes / inFrameSize) q.data = leftChannel (bytes / inFrameSize) rd.data :=
      leftChannel_congr fun i hi => hd i (by simp only [inFrameSize] at hi; omega)
    simp only [inReadStereoRun, inReadStereo_eq_some h, Option.some_bind,
      stereoPcmRead_stereoPcmRead hd,
      inReadStereoRun_failed h buffer rd rest fun q' hq' => hq q' (.tail _ hq'),
      Option.map_some', inReadFinish_of_neg micMute hst, hl, List.map_cons]

end AudioHw
