/-
# The buffer provider of the capture path

An input stream holds one period of capture in `in->buffer`. `get_next_buffer`
hands the resampler (or `read_frames`) a view of the frames of that period not
yet consumed, reading a new period with `pcm_read` only once `frames_in`, the
count of those frames, is zero; the PCM is stereo and the stream mono, so a new
period is first folded onto its left channel in place, by a loop that stays
within any buffer of two channels and overwrites no left sample before it reads
it (`discardRight_keepsLeftChannel`). `release_buffer` gives back the frames
consumed.

A `Provider` is the capture state with two ghost lists beside it: the frames
released so far, and the left channels of the periods read successfully. The
provider is a channel that neither loses nor repeats a frame
(`Provider.Reach.ok`): in every state a sequence of calls reaches, the frames
released followed by those still held are the frames captured. Every view lies
within the period, and `pcm_read` is called only when the period is used up
(`getNextBuffer_ok`). `read_frames` (without a resampler) is such a
sequence of calls, a run of rounds with the reads it is given
(`Provider.Rounds`): it copies exactly the frames it releases
(`readFrames_of_reach`), which are the next frames of the captured sequence.

Key definitions: `Capture`, `PcmRead`, `discardRight`, `getNextBuffer`,
`releaseBuffer`, `readFrames`, `Provider`, `Provider.round`, `Provider.Reach`,
`Provider.Rounds`.
-/
import AudioHw.Config
import Mathlib.Data.List.Basic

namespace AudioHw

/-- `ENODEV`. -/
def enodev : ℤ := 19

/-- The PCM configuration `adev_open_input_stream` gives a stream asking for
`rate`: the low-latency one for a fast input at the PCM's rate. -/
def inPcmConfig (rate : ℕ) (fast : Bool) : PcmConfig :=
  if rate = inSamplingRate ∧ fast then pcmConfigInLowLatency else pcmConfigIn

/-- The fields of `struct stream_in` the buffer provider reads and writes:
`frames_in`, the samples of `buffer` (whose `buffer_size` is two bytes a
sample), and `read_status`. -/
structure Capture where
  framesIn : ℕ
  buffer : List ℤ
  readStatus : ℤ
  deriving DecidableEq, Repr

/-- What one `pcm_read` does: the status it returns, and the samples it leaves
in the buffer (after a success, the period captured, two channels
interleaved). -/
structure PcmRead where
  status : ℤ
  data : ℕ → ℤ

/-- A `struct resampler_buffer` as `get_next_buffer` fills it: `raw`, `none`
for `NULL` or else an offset into `in->buffer`, and `frame_count`. -/
structure View where
  raw : Option ℕ
  frameCount : ℕ
  deriving DecidableEq, Repr

/-! ### The right-channel discard loop -/

/-- `k` iterations, from index `i`, of the in-place loop `buf[i] = buf[i * 2]`;
`none` if an iteration reads or writes outside `buf`. -/
def discardFrom : ℕ → ℕ → List ℤ → Option (List ℤ)
  | 0, _, buf => some buf
  | k + 1, i, buf =>
    match buf[i * 2]? with
    | none => none
    | some x => if i < buf.length then discardFrom k (i + 1) (buf.set i x) else none

/-- `for (i = 1; i < n; i++) buf[i] = buf[i * 2];`, which keeps the left channel
of `n` stereo frames. -/
def discardRight (n : ℕ) (buf : List ℤ) : Option (List ℤ) := discardFrom (n - 1) 1 buf

/-- Where the loop stands before index `i`: the slots below `i` but `0` hold
their left sample, the slot `0` and those from `i` on are untouched. -/
def DiscardedTo (orig : List ℤ) (i : ℕ) (buf : List ℤ) : Prop :=
  buf.length = orig.length ∧ (∀ m, (m = 0 ∨ i ≤ m) → buf[m]? = orig[m]?) ∧
    ∀ j, 0 < j → j < i → buf[j]? = orig[2 * j]?

/-- One iteration reads a slot not yet written (`2 i ≥ i`) and writes slot `i`. -/
theorem discardFrom_spec (orig : List ℤ) : ∀ (k i : ℕ) (buf : List ℤ), 0 < i →
    DiscardedTo orig i buf → 2 * (i + k) ≤ orig.length + 1 →
    ∃ buf', discardFrom k i buf = some buf' ∧ DiscardedTo orig (i + k) buf'
  | 0, i, buf, _, h, _ => ⟨buf, rfl, h⟩
  | k + 1, i, buf, hi, ⟨hl, hkeep, hdone⟩, hk => by
    have hr : buf[i * 2]? = orig[i * 2]? := hkeep _ (.inr (by omega))
    obtain ⟨x, hx⟩ : ∃ x, orig[i * 2]? = some x :=
      ⟨_, List.getElem?_eq_getElem (by omega)⟩
    have hset : DiscardedTo orig (i + 1) (buf.set i x) := by
      refine ⟨by simp [hl], fun m hm => ?_, fun j hj hji => ?_⟩
      · rw [List.getElem?_set_ne (by omega)]
        exact hkeep m (by omega)
      · rcases Nat.lt_or_ge j i with hj' | hj'
        · rw [List.getElem?_set_ne (by omega)]
          exact hdone j hj hj'
        · rw [show j = i by omega, List.getElem?_set_self (by omega), ← hx, Nat.mul_comm]
    obtain ⟨buf', h1, h2⟩ := discardFrom_spec orig k (i + 1) _ (by omega) hset (by omega)
    refine ⟨buf', ?_, by rwa [show i + (k + 1) = i + 1 + k by omega]⟩
    simp only [discardFrom, hr, hx, if_pos (show i < buf.length by omega)]
    exact h1

/-- Below `i`, every slot holds its left sample: slot `0` is untouched, and `2 · 0 = 0`. -/
theorem DiscardedTo.left {orig buf : List ℤ} {i : ℕ} (h : DiscardedTo orig i buf) :
    ∀ j < i, buf[j]? = orig[2 * j]? := fun j hj => by
  rcases Nat.eq_zero_or_pos j with rfl | hj0
  · exact h.2.1 0 (.inl rfl)
  · exact h.2.2 j hj0 hj

/-- On a buffer of `2 n` samples the loop stays within the buffer and ends where
`DiscardedTo` says at `n`. -/
theorem discardRight_spec (n : ℕ) (buf : List ℤ) (h : buf.length = 2 * n) :
    ∃ buf', discardRight n buf = some buf' ∧ DiscardedTo buf n buf' := by
  rcases Nat.eq_zero_or_pos n with rfl | hn
  · exact ⟨buf, rfl, rfl, fun _ _ => rfl, fun _ _ hj => absurd hj (Nat.not_lt_zero _)⟩
  obtain ⟨buf', h1, h2⟩ := discardFrom_spec buf (n - 1) 1 buf Nat.one_pos
    ⟨rfl, fun _ _ => rfl, fun j hj hj' => absurd hj' (by omega)⟩ (by omega)
  exact ⟨buf', h1, by rwa [show 1 + (n - 1) = n by omega] at h2⟩

/-- **The channel discard keeps the left channel.** For every `n` and every
buffer of `2 n` samples, the loop `for (i = 1; i < n; i++) buf[i] = buf[i * 2]`
reads and writes only within the buffer (`discardRight` is `none` as soon as an
iteration leaves it); afterwards slot `i` holds the original sample `2 i` for
every `i < n`, and the slots from `n` on are as they were. -/
theorem discardRight_keepsLeftChannel (n : ℕ) (buf : List ℤ) (h : buf.length = 2 * n) :
    ∃ buf', discardRight n buf = some buf' ∧ buf'.length = 2 * n ∧
      (∀ i < n, buf'[i]? = buf[2 * i]?) ∧ ∀ m, n ≤ m → buf'[m]? = buf[m]? := by
  obtain ⟨buf', hd, hdis⟩ := discardRight_spec n buf h
  exact ⟨buf', hd, hdis.1.trans h, hdis.left, fun m hm => hdis.2.1 m (.inr hm)⟩

theorem discardRight_keepsLeftChannel_twoFrames :
    [1, 2, 3, 4].length = 2 * 2 ∧
      ∃ buf', discardRight 2 [1, 2, 3, 4] = some buf' ∧ buf'.length = 2 * 2 ∧
        (∀ i < 2, buf'[i]? = [1, 2, 3, 4][2 * i]?) ∧
        ∀ m, 2 ≤ m → buf'[m]? = [1, 2, 3, 4][m]? :=
  ⟨rfl, discardRight_keepsLeftChannel 2 _ rfl⟩

/-! ### `get_next_buffer`, `release_buffer` -/

/-- The samples `pcm_read` leaves in a buffer: it fills all of it. -/
def fillBuffer (buf : List ℤ) (d : ℕ → ℤ) : List ℤ := (List.range buf.length).map d

/-- The view of the frames of the period not yet consumed: from offset
`period_size - frames_in` (`size_t` arithmetic), at most `req` of them. -/
def remainingView (cfg : PcmConfig) (c : Capture) (req : ℕ) : View :=
  ⟨some (toU32 ((cfg.periodSize : ℤ) - c.framesIn)), min req c.framesIn⟩

/-- `get_next_buffer` on a stream with the PCM configuration `cfg`, asked for
`req` frames; `hasPcm` is `in->pcm != NULL`, and `rd` is what `pcm_read` does if
it is called. `none` if the code would touch memory outside `in->buffer`. -/
def getNextBuffer (cfg : PcmConfig) (hasPcm : Bool) (c : Capture) (req : ℕ) (rd : PcmRead) :
    Option (Capture × View) :=
  if !hasPcm then some ({ c with readStatus := -enodev }, ⟨none, 0⟩)
  else if c.framesIn = 0 then
    let buf := fillBuffer c.buffer rd.data
    if rd.status ≠ 0 then some ({ c with buffer := buf, readStatus := rd.status }, ⟨none, 0⟩)
    else
      (if cfg.channels = 2 then discardRight cfg.periodSize buf else some buf).map fun buf' =>
        let c' : Capture := ⟨cfg.periodSize, buf', rd.status⟩
        (c', remainingView cfg c' req)
  else some (c, remainingView cfg c req)

/-- `release_buffer` of `n` frames: `frames_in -= n`, in `size_t`. -/
def releaseBuffer (c : Capture) (n : ℕ) : Capture :=
  { c with framesIn := toU32 ((c.framesIn : ℤ) - n) }

@[simp] theorem releaseBuffer_buffer (c : Capture) (n : ℕ) :
    (releaseBuffer c n).buffer = c.buffer := rfl

@[simp] theorem releaseBuffer_readStatus (c : Capture) (n : ℕ) :
    (releaseBuffer c n).readStatus = c.readStatus := rfl

/-- A release of at most `frames_in` frames does not wrap. -/
theorem releaseBuffer_framesIn {c : Capture} {n : ℕ} (hn : n ≤ c.framesIn)
    (hc : c.framesIn < 2 ^ 32) : (releaseBuffer c n).framesIn = c.framesIn - n := by
  have := toU32_of_nonneg (x := (c.framesIn : ℤ) - n) (by omega) (by omega)
  simp only [releaseBuffer]
  omega

/-- What the provider needs of a PCM configuration, and both capture
configurations have: two channels, and a period of at least one frame and
fewer than `2 ^ 31`. -/
structure PcmConfig.Fits (cfg : PcmConfig) : Prop where
  stereo : cfg.channels = 2
  pos : 0 < cfg.periodSize
  small : cfg.periodSize < 2 ^ 31

theorem inPcmConfig_fits (rate : ℕ) (fast : Bool) : (inPcmConfig rate fast).Fits := by
  unfold inPcmConfig
  split_ifs <;> exact ⟨rfl, by decide, by decide⟩

/-! ### The provider as a channel

`Provider.round` is one call of the resampler (or of `read_frames`): a
`get_next_buffer` and a `release_buffer`, with the ghosts updated. The
invariant `Provider.Ok` says the period is whole in the buffer, `frames_in` is
at most a period, and the frames released and those still held are the frames
captured. -/

/-- The left channel of a period of `P` stereo frames. -/
def leftChannel (P : ℕ) (d : ℕ → ℤ) : List ℤ := (List.range P).map fun i => d (2 * i)

/-- The frames of the current period not yet released: `frames_in` of them,
from offset `period_size - frames_in`. -/
def remainder (P : ℕ) (c : Capture) : List ℤ := (c.buffer.drop (P - c.framesIn)).take c.framesIn

/-- The first `n` frames of a view. -/
def viewFrames (c : Capture) (v : View) (n : ℕ) : List ℤ :=
  match v.raw with
  | some off => (c.buffer.drop off).take n
  | none => []

/-- The capture state with its ghosts: the frames released, in order, and the
left channels of the periods read successfully, in order. -/
structure Provider where
  cap : Capture
  released : List ℤ
  captured : List ℤ

/-- One call on the provider: `get_next_buffer` for `req` frames (`rd` what its
`pcm_read` does, if it makes one), then `release_buffer` of `rel` frames. The
view is returned for the caller's promise `rel ≤ frame_count`. -/
def Provider.round (cfg : PcmConfig) (s : Provider) (req : ℕ) (rd : PcmRead) (rel : ℕ) :
    Option (Provider × View) :=
  (getNextBuffer cfg true s.cap req rd).map fun cv =>
    (⟨releaseBuffer cv.1 rel, s.released ++ viewFrames cv.1 cv.2 rel,
      s.captured ++ if s.cap.framesIn = 0 ∧ rd.status = 0 then leftChannel cfg.periodSize rd.data
        else []⟩, cv.2)

/-- The provider states that calls reach from `start_input_stream`, which
allocates one period (`g` its garbage) and zeroes `frames_in`, when every
release gives back at most what the view before it held. -/
inductive Provider.Reach (cfg : PcmConfig) : Provider → Prop
  | start (g : ℕ → ℤ) (status : ℤ) :
      Provider.Reach cfg ⟨⟨0, (List.range (2 * cfg.periodSize)).map g, status⟩, [], []⟩
  | round {s s' : Provider} {v : View} {req rel : ℕ} {rd : PcmRead} :
      Provider.Reach cfg s → s.round cfg req rd rel = some (s', v) → rel ≤ v.frameCount →
      Provider.Reach cfg s'

/-- The rounds from `s` to `s'`, the first counted `n`, in which round `i`
makes its `pcm_read`, if it makes one, with `rds i`, and each release gives
back at most what its view held. -/
inductive Provider.Rounds (cfg : PcmConfig) (rds : ℕ → PcmRead) : ℕ → Provider → Provider → Prop
  | refl (n : ℕ) (s : Provider) : Provider.Rounds cfg rds n s s
  | head {n : ℕ} {s s₁ s' : Provider} {v : View} {req rel : ℕ} :
      s.round cfg req (rds n) rel = some (s₁, v) → rel ≤ v.frameCount →
      Provider.Rounds cfg rds (n + 1) s₁ s' → Provider.Rounds cfg rds n s s'

/-- What every reachable provider state satisfies. -/
structure Provider.Ok (P : ℕ) (s : Provider) : Prop where
  length : s.cap.buffer.length = 2 * P
  le : s.cap.framesIn ≤ P
  status : 0 < s.cap.framesIn → s.cap.readStatus = 0
  stream : s.released ++ remainder P s.cap = s.captured

section Round

variable {cfg : PcmConfig} {s : Provider}

/-- A freshly read period, folded onto its left channel, is the left channel. -/
theorem remainder_of_read {P : ℕ} {buf' : List ℤ} {d : ℕ → ℤ} {old : List ℤ}
    (hl : old.length = 2 * P) (h : ∀ i < P, buf'[i]? = (fillBuffer old d)[2 * i]?) (st : ℤ) :
    remainder P ⟨P, buf', st⟩ = leftChannel P d := by
  apply List.ext_getElem?
  intro i
  simp only [remainder, Nat.sub_self, List.drop_zero, List.getElem?_take, leftChannel,
    List.getElem?_map]
  split_ifs with hi
  · rw [h i hi, fillBuffer, List.getElem?_map, List.getElem?_range (by omega),
      List.getElem?_range hi]
    rfl
  · rw [List.getElem?_eq_none_iff.mpr (by simp; omega)]
    rfl

/-- Releasing `n ≤ frames_in` frames moves the first `n` held frames to the
released ones. -/
theorem remainder_release {P n : ℕ} {c : Capture} (hle : c.framesIn ≤ P) (hP : P < 2 ^ 32)
    (hn : n ≤ c.framesIn) :
    (c.buffer.drop (P - c.framesIn)).take n ++ remainder P (releaseBuffer c n) =
      remainder P c := by
  rw [remainder, remainder, releaseBuffer_framesIn hn (by omega), releaseBuffer_buffer,
    show P - (c.framesIn - n) = (P - c.framesIn) + n by omega, ← List.drop_drop,
    ← List.take_add, Nat.add_sub_cancel' hn]

variable (hcfg : cfg.Fits)
include hcfg

/-- The view handed out from `frames_in ≤ period_size`: its offset does not
wrap. -/
theorem remainingView_eq {c : Capture} (hc : c.framesIn ≤ cfg.periodSize) (req : ℕ) :
    remainingView cfg c req = ⟨some (cfg.periodSize - c.framesIn), min req c.framesIn⟩ := by
  have := hcfg.small
  have := toU32_of_nonneg (x := (cfg.periodSize : ℤ) - c.framesIn) (by omega) (by omega)
  simp only [remainingView, View.mk.injEq, and_true, Option.some.injEq]
  omega

/-- **One `get_next_buffer`, from a valid state.** It stays inside the buffer;
its view lies within the period and holds at most `frames_in` frames, and one
at least when asked for one; a failed read gives an empty view and leaves
`frames_in` at `0`; and with the period's left channel counted as captured if
it read one, the frames released and held are still those captured. -/
theorem getNextBuffer_ok (hs : s.Ok cfg.periodSize) (req : ℕ) (rd : PcmRead) :
    ∃ c1 v, getNextBuffer cfg true s.cap req rd = some (c1, v) ∧
      c1.buffer.length = 2 * cfg.periodSize ∧ c1.framesIn ≤ cfg.periodSize ∧
      (0 < c1.framesIn → c1.readStatus = 0) ∧ v.frameCount ≤ c1.framesIn ∧ v.frameCount ≤ req ∧
      (v.raw = some (cfg.periodSize - c1.framesIn) ∨ v = ⟨none, 0⟩) ∧
      (s.cap.framesIn = 0 → rd.status ≠ 0 → v = ⟨none, 0⟩ ∧ c1.framesIn = 0) ∧
      (0 < req → 0 < c1.framesIn → 0 < v.frameCount) ∧
      (c1.framesIn = 0 → c1.readStatus ≠ 0) ∧
      (s.cap.framesIn = 0 → rd.status = 0 → c1.framesIn = cfg.periodSize ∧
        remainder cfg.periodSize c1 = leftChannel cfg.periodSize rd.data) ∧
      s.released ++ remainder cfg.periodSize c1 = s.captured ++
        if s.cap.framesIn = 0 ∧ rd.status = 0 then leftChannel cfg.periodSize rd.data else [] := by
  obtain ⟨hl, hle, hst, hstr⟩ := hs
  by_cases h0 : s.cap.framesIn = 0
  · by_cases hrd : rd.status = 0
    · -- a new period: read, fold onto the left channel, hand out its start
      have hfl : (fillBuffer s.cap.buffer rd.data).length = 2 * cfg.periodSize := by
        simp [fillBuffer, hl]
      obtain ⟨buf', hd, hdis⟩ := discardRight_spec _ _ hfl
      have hv := remainingView_eq hcfg (c := ⟨cfg.periodSize, buf', rd.status⟩) le_rfl req
      refine ⟨⟨cfg.periodSize, buf', rd.status⟩,
        remainingView cfg ⟨cfg.periodSize, buf', rd.status⟩ req, ?_, hdis.1.trans hfl, le_rfl,
        fun _ => hrd, ?_, ?_, .inl (by rw [hv]), fun _ h => absurd hrd h, fun hr _ => ?_,
        fun h => absurd h hcfg.pos.ne', fun _ _ => ⟨rfl, remainder_of_read hl hdis.left _⟩, ?_⟩
      · simp [getNextBuffer, h0, hrd, hcfg.stereo, hd]
      · rw [hv]; exact min_le_right _ _
      · rw [hv]; exact min_le_left _ _
      · rw [hv]; exact lt_min hr hcfg.pos
      · rw [remainder_of_read hl hdis.left, if_pos ⟨h0, hrd⟩]
        rw [remainder, h0] at hstr
        simpa using hstr
    · refine ⟨{ s.cap with buffer := fillBuffer s.cap.buffer rd.data, readStatus := rd.status },
        ⟨none, 0⟩, by simp [getNextBuffer, h0, hrd], by simp [fillBuffer, hl], by simp [h0],
        by simp [h0], Nat.zero_le _, Nat.zero_le _, .inr rfl, fun _ _ => ⟨rfl, h0⟩,
        fun _ h => by simp [h0] at h, fun _ => hrd, fun _ h => absurd h hrd, ?_⟩
      rw [if_neg (fun h => hrd h.2)]
      simpa [remainder, h0] using hstr
  · have hv := remainingView_eq hcfg hle req
    refine ⟨s.cap, remainingView cfg s.cap req, by simp [getNextBuffer, h0], hl, hle, hst, ?_, ?_,
      .inl (by rw [hv]), fun h => absurd h h0, fun hr hf => ?_, fun h => absurd h h0,
      fun h => absurd h h0, ?_⟩
    · rw [hv]; exact min_le_right _ _
    · rw [hv]; exact min_le_left _ _
    · rw [hv]; exact lt_min hr hf
    · rw [if_neg (fun h => h0 h.1), List.append_nil]
      exact hstr

/-- **A round keeps the invariant.** -/
theorem Provider.round_ok (hs : s.Ok cfg.periodSize) {req rel : ℕ} {rd : PcmRead}
    {s' : Provider} {v : View} (h : s.round cfg req rd rel = some (s', v))
    (hrel : rel ≤ v.frameCount) : s'.Ok cfg.periodSize := by
  obtain ⟨c1, v1, hg, hl, hle, hst, hcnt, -, hraw, -, -, -, -, hstr⟩ :=
    getNextBuffer_ok hcfg hs req rd
  simp only [Provider.round, hg, Option.map_some', Option.some.injEq, Prod.mk.injEq] at h
  obtain ⟨rfl, rfl⟩ := h
  have hn : rel ≤ c1.framesIn := hrel.trans hcnt
  have hsmall := hcfg.small
  have hf := releaseBuffer_framesIn hn (by omega)
  refine ⟨hl, by rw [hf]; omega, fun h => hst (by rw [hf] at h; omega), ?_⟩
  rw [← hstr, List.append_assoc, ← remainder_release hle (by omega) hn]
  congr 2
  rcases hraw with hr | rfl
  · simp [viewFrames, hr]
  · simp [viewFrames, show rel = 0 by simpa using hrel]

theorem Provider.Reach.ok (h : Provider.Reach cfg s) : s.Ok cfg.periodSize := by
  induction h with
  | start g status => exact ⟨by simp, by simp, by simp, by simp [remainder]⟩
  | round _ hr hrel ih => exact Provider.round_ok hcfg ih hr hrel

omit hcfg in
/-- Rounds from a reachable state reach. -/
theorem Provider.Rounds.reach {rds : ℕ → PcmRead} {n : ℕ} {s s' : Provider}
    (h : Provider.Rounds cfg rds n s s') (hs : Provider.Reach cfg s) : Provider.Reach cfg s' := by
  induction h with
  | refl => exact hs
  | head hr hrel _ ih => exact ih (.round hs hr hrel)

omit hcfg in
/-- Rounds only add to the frames captured. -/
theorem Provider.Rounds.captured {rds : ℕ → PcmRead} {n : ℕ} {s s' : Provider}
    (h : Provider.Rounds cfg rds n s s') : ∃ new, s'.captured = s.captured ++ new := by
  induction h with
  | refl => exact ⟨[], (List.append_nil _).symm⟩
  | head hr _ _ ih =>
    obtain ⟨new, hn⟩ := ih
    obtain ⟨cv, -, he⟩ := Option.map_eq_some'.mp hr
    simp only [Prod.mk.injEq] at he
    obtain ⟨rfl, -⟩ := he
    exact ⟨_, hn.trans (List.append_assoc _ _ _)⟩

/-! ### `read_frames` without a resampler -/

/-- The loop of `read_frames` for a stream with no resampler, `fuel` iterations
at most: `get_next_buffer` for the frames still wanted, `memcpy` of the view
after the frames copied so far (`out`), `release_buffer` of the view, until
`frames_wr` (`wr`) reaches `frames` or `read_status` is not `0`. The `i`-th
iteration's `pcm_read`, if it makes one, does `rds i`. It returns the capture
state, what `read_frames` returns, and the frames copied. -/
def readFramesLoop (cfg : PcmConfig) (rds : ℕ → PcmRead) (frames : ℕ) :
    ℕ → ℕ → Capture → ℕ → List ℤ → Option (Capture × ℤ × List ℤ)
  | 0, _, _, _, _ => none
  | fuel + 1, i, c, wr, out =>
    if wr < frames then
      match getNextBuffer cfg true c (frames - wr) (rds i) with
      | none => none
      | some (c1, v) =>
        let c2 := releaseBuffer c1 v.frameCount
        let out' := out ++ viewFrames c1 v v.frameCount
        if c2.readStatus ≠ 0 then some (c2, c2.readStatus, out')
        else readFramesLoop cfg rds frames fuel (i + 1) c2
          (wr + if v.raw.isSome then v.frameCount else frames - wr) out'
    else some (c, wr, out)

/-- `read_frames` for a stream with no resampler, asked for `frames` frames;
`frames + 1` iterations are enough (`readFrames_of_reach`). -/
def readFrames (cfg : PcmConfig) (rds : ℕ → PcmRead) (frames : ℕ) (c : Capture) :
    Option (Capture × ℤ × List ℤ) :=
  readFramesLoop cfg rds frames (frames + 1) 0 c 0 []

/-- The loop from a reachable state: it ends, and is a run of rounds, from
iteration `i` on with the reads `rds`, that release exactly the frames it
copies. -/
theorem readFramesLoop_of_reach (rds : ℕ → PcmRead) (frames : ℕ) :
    ∀ (fuel i : ℕ) (s : Provider) (wr : ℕ) (out : List ℤ), Provider.Reach cfg s →
      frames - wr < fuel → wr ≤ frames →
      ∃ c' ret new, readFramesLoop cfg rds frames fuel i s.cap wr out = some (c', ret, out ++ new) ∧
        ∃ s', Provider.Rounds cfg rds i s s' ∧ s'.cap = c' ∧ s'.released = s.released ++ new ∧
          ((ret = frames ∧ wr + new.length = frames) ∨
            (ret ≠ 0 ∧ ret = c'.readStatus ∧ wr + new.length < frames ∧ c'.framesIn = 0)) := by
  intro fuel
  induction fuel with
  | zero => intro _ _ _ _ _ h _; exact absurd h (Nat.not_lt_zero _)
  | succ fuel ih =>
    intro i s wr out hs hf hwr
    by_cases hlt : wr < frames
    · obtain ⟨c1, v, hg, hl, hle, hst, hcnt, hcv, hraw, -, hpos, hz, -, -⟩ :=
        getNextBuffer_ok hcfg (hs.ok hcfg) (frames - wr) (rds i)
      have hsmall := hcfg.small
      have hround : s.round cfg (frames - wr) (rds i) v.frameCount = some (⟨releaseBuffer c1 v.frameCount,
          s.released ++ viewFrames c1 v v.frameCount, s.captured ++
            if s.cap.framesIn = 0 ∧ (rds i).status = 0 then leftChannel cfg.periodSize (rds i).data
            else []⟩, v) := by
        simp [Provider.round, hg]
      have hs1 := Provider.Reach.round hs hround le_rfl
      have hrel := releaseBuffer_framesIn hcnt (by omega)
      simp only [readFramesLoop, if_pos hlt, hg, releaseBuffer_readStatus]
      by_cases hbad : c1.readStatus = 0
      · -- a full view: copy it and go on
        have hc : 0 < v.frameCount := hpos (by omega) (Nat.pos_of_ne_zero fun h => hz h hbad)
        rcases hraw with hr | hr
        · have hlen : (viewFrames c1 v v.frameCount).length = v.frameCount := by
            simp only [viewFrames, hr, List.length_take, List.length_drop]
            omega
          rw [if_neg (by simpa using hbad), hr]
          obtain ⟨c', ret, new, h1, s', hs', hc', hrel', hret⟩ :=
            ih (i + 1) _ (wr + v.frameCount)
              (out ++ viewFrames c1 v v.frameCount) hs1
              (by omega) (by omega)
          refine ⟨c', ret, viewFrames c1 v v.frameCount ++ new, by simpa using h1, s',
            .head hround le_rfl hs', hc', by rw [hrel']; simp, ?_⟩
          simp only [List.length_append, hlen]
          rcases hret with ⟨h1, h2⟩ | ⟨h1, h2, h3, h4⟩
          · exact .inl ⟨h1, by omega⟩
          · exact .inr ⟨h1, h2, by omega, h4⟩
        · rw [hr] at hc
          exact absurd hc (Nat.lt_irrefl 0)
      · -- a failed read: nothing copied, its status returned
        have h0 : c1.framesIn = 0 := Nat.eq_zero_of_not_pos fun h => hbad (hst h)
        have hv0 : v.frameCount = 0 := by omega
        have hnew : viewFrames c1 v v.frameCount = [] := by
          rcases hraw with hr | hr
          · simp [viewFrames, hr, hv0]
          · simp [viewFrames, hr]
        rw [if_pos hbad]
        refine ⟨_, _, [], by simp [hnew], _, .head hround le_rfl (.refl _ _), rfl, by simp [hnew],
          .inr ⟨hbad, rfl, by simp only [List.length_nil]; omega, by rw [hrel, h0, hv0]⟩⟩
    · simp only [readFramesLoop, if_neg hlt]
      exact ⟨s.cap, wr, [], by simp, s, .refl _ _, rfl, by simp,
        .inl ⟨by omega, by simp only [List.length_nil]; omega⟩⟩

/-- **`read_frames` is a run of the provider.** From a reachable state,
`read_frames` without a resampler ends within `frames + 1` iterations; it
returns `frames` after copying `frames` frames, or a failed read's non-zero
status after copying fewer, `frames_in` back at `0`; and it is a run of rounds
with the reads `rds` that releases the frames it copies. -/
theorem readFrames_of_reach {s : Provider} (hs : Provider.Reach cfg s) (rds : ℕ → PcmRead)
    (frames : ℕ) :
    ∃ c' ret out, readFrames cfg rds frames s.cap = some (c', ret, out) ∧
      ∃ s', Provider.Rounds cfg rds 0 s s' ∧ s'.cap = c' ∧ s'.released = s.released ++ out ∧
        ((ret = frames ∧ out.length = frames) ∨
          (ret ≠ 0 ∧ ret = c'.readStatus ∧ out.length < frames ∧ c'.framesIn = 0)) := by
  obtain ⟨c', ret, new, h, s', hs', hc, hr, hret⟩ :=
    readFramesLoop_of_reach hcfg rds frames (frames + 1) 0 s 0 [] hs (by omega) (Nat.zero_le _)
  exact ⟨c', ret, new, by simpa using h, s', hs', hc, hr, by simpa using hret⟩

omit hcfg in
/-- With frames still held, `get_next_buffer` makes no `pcm_read`: it returns
the same whatever the read would do. -/
theorem getNextBuffer_of_pos {c : Capture} (h : 0 < c.framesIn) (req : ℕ) (rd : PcmRead) :
    getNextBuffer cfg true c req rd = some (c, remainingView cfg c req) := by
  simp [getNextBuffer, h.ne']

end Round

/-- **The buffer provider is a lossless channel.** In every state that calls
reach from `start_input_stream` (each release giving back at most what the view
before it held): `frames_in` is at most a period; the frames released, followed
by those still held, are the left channels of the periods read successfully,
in order. Every `get_next_buffer` stays in the buffer and hands out a view
within the period, which releases do not wrap; it calls `pcm_read` only when
`frames_in` is `0`, and then holds the new period's left channel, or, if the
read fails, an empty view with `frames_in` still `0`. `read_frames` without a
resampler returns `frames` after copying that many frames, or a failed read's
status after copying fewer. It is a run of rounds from the state it starts in,
whose `pcm_read`s are the reads it is given, and it releases the frames it
copies: they, followed by the frames it leaves held, are the frames held before
followed by those its reads captured, so it copies the next frames of the
captured sequence. -/
theorem bufferProvider_lossless {cfg : PcmConfig} (hcfg : cfg.Fits) {s : Provider}
    (hs : Provider.Reach cfg s) :
    s.cap.framesIn ≤ cfg.periodSize ∧
    s.released ++ remainder cfg.periodSize s.cap = s.captured ∧
    (∀ req rd, ∃ c1 v, getNextBuffer cfg true s.cap req rd = some (c1, v) ∧
      (∀ off, v.raw = some off → off + v.frameCount ≤ cfg.periodSize) ∧
      (v.raw = none → v.frameCount = 0) ∧
      (∀ rel ≤ v.frameCount, (releaseBuffer c1 rel).framesIn = c1.framesIn - rel) ∧
      (0 < s.cap.framesIn → ∀ rd', getNextBuffer cfg true s.cap req rd' = some (c1, v)) ∧
      (s.cap.framesIn = 0 → rd.status = 0 → c1.framesIn = cfg.periodSize ∧
        remainder cfg.periodSize c1 = leftChannel cfg.periodSize rd.data) ∧
      (s.cap.framesIn = 0 → rd.status ≠ 0 → v = ⟨none, 0⟩ ∧ c1.framesIn = 0)) ∧
    (∀ rds frames, ∃ c' ret out, readFrames cfg rds frames s.cap = some (c', ret, out) ∧
      ∃ s', Provider.Rounds cfg rds 0 s s' ∧ s'.cap = c' ∧ s'.released = s.released ++ out ∧
        (∃ new, s'.captured = s.captured ++ new ∧
          out ++ remainder cfg.periodSize c' = remainder cfg.periodSize s.cap ++ new) ∧
        ((ret = frames ∧ out.length = frames) ∨
          (ret ≠ 0 ∧ ret = c'.readStatus ∧ out.length < frames ∧ c'.framesIn = 0))) := by
  have hok := hs.ok hcfg
  refine ⟨hok.le, hok.stream, fun req rd => ?_, fun rds frames => ?_⟩
  swap
  · obtain ⟨c', ret, out, h, s', hr, hc, hrel, hret⟩ := readFrames_of_reach hcfg hs rds frames
    obtain ⟨new, hnew⟩ := hr.captured
    refine ⟨c', ret, out, h, s', hr, hc, hrel, ⟨new, hnew, ?_⟩, hret⟩
    -- the frames released and held, before and after, are those captured
    have h' := ((hr.reach hs).ok hcfg).stream
    rw [hrel, hc, hnew, ← hok.stream] at h'
    simp only [List.append_assoc] at h'
    exact List.append_cancel_left h'
  obtain ⟨c1, v, hg, -, hle, -, hcnt, -, hraw, hfail, -, -, hread, -⟩ :=
    getNextBuffer_ok hcfg hok req rd
  refine ⟨c1, v, hg, fun off ho => ?_, fun hn => ?_,
    fun rel hrel => releaseBuffer_framesIn (hrel.trans hcnt) (by have := hcfg.small; omega),
    fun hp rd' => by rw [getNextBuffer_of_pos hp, ← getNextBuffer_of_pos hp req rd, hg], hread,
    hfail⟩
  · rcases hraw with hr | hr
    · rw [hr] at ho
      cases ho
      omega
    · rw [hr] at ho
      cases ho
  · rcases hraw with hr | rfl
    · rw [hr] at hn
      cases hn
    · rfl

/-- On a period of four frames: a round reads `0, 1, …, 7` and releases two
frames, `0, 2`, leaving `4, 6` held; `read_frames` of three frames then copies
those two and the first frame of the next period, read as `100, 101, …`. -/
theorem bufferProvider_lossless_midPeriod :
    ∃ s : Provider, Provider.Reach ⟨2, 44100, 4, 4⟩ s ∧ s.released = [0, 2] ∧
      remainder 4 s.cap = [4, 6] ∧
      ∃ c' out, readFrames ⟨2, 44100, 4, 4⟩ (fun _ => ⟨0, fun i => 100 + i⟩) 3 s.cap =
          some (c', 3, out) ∧ out = [4, 6, 100] ∧
        ∃ s', Provider.Rounds ⟨2, 44100, 4, 4⟩ (fun _ => ⟨0, fun i => 100 + i⟩) 0 s s' ∧
          s'.released = [0, 2, 4, 6, 100] ∧
          ∃ new, s'.captured = s.captured ++ new ∧ out ++ remainder 4 c' = [4, 6] ++ new := by
  have hr : Provider.round ⟨2, 44100, 4, 4⟩
      ⟨⟨0, (List.range (2 * 4)).map fun _ => 0, 0⟩, [], []⟩ 2 ⟨0, fun i => i⟩ 2 =
      some (⟨⟨2, [0, 2, 4, 6, 4, 5, 6, 7], 0⟩, [0, 2], [0, 2, 4, 6]⟩, ⟨some 0, 2⟩) := rfl
  have hs := Provider.Reach.round (.start (fun _ => 0) 0) hr le_rfl
  obtain ⟨c', ret, out, hrf, s', hR, -, hrel, hnew, -⟩ :=
    (bufferProvider_lossless ⟨rfl, by decide, by decide⟩ hs).2.2.2
      (fun _ => ⟨0, fun i => 100 + i⟩) 3
  have hcomp : (readFrames ⟨2, 44100, 4, 4⟩ (fun _ => ⟨0, fun i => 100 + i⟩) 3
      ⟨2, [0, 2, 4, 6, 4, 5, 6, 7], 0⟩).map (fun r => (r.2.1, r.2.2)) = some (3, [4, 6, 100]) := by
    decide
  rw [hrf] at hcomp
  obtain ⟨rfl, rfl⟩ := Prod.mk.inj (Option.some.inj hcomp)
  exact ⟨_, hs, rfl, rfl, c', _, hrf, rfl, s', hR, hrel, hnew⟩

end AudioHw
