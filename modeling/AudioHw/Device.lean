/-
# The device, its two streams, and the calls in progress on them

What the HAL's calls share: the fields of `struct audio_device`, of one
`struct stream_out` and of one `struct stream_in` that the calls read and
write, and the three mutexes (`out->lock`, `in->lock`, `adev->lock`), each
with the thread that holds it. A call in progress is a thread with a program
counter: where it is in its function, with the locals it has there
(`OutWritePc`, `InReadPc`, `YieldPc`, `Pc`). Two ghost fields record what
the hardware saw: the devices of the last `select_devices` call (`routed`)
and the number of `pcm_open` calls so far, which stamps each opened PCM with
the time it was opened (`opens`).

The routines the calls share (`do_out_standby`, `do_in_standby`,
`start_output_stream`, `start_input_stream`, `select_devices`) are functions
of the state here, each with the lemmas that say which fields it writes.

Key definitions: `Mutex`, `Handle`, `OutState`, `InState`, `DevState`, `Pc`,
`Sys`, `Sys.acquire`, `Sys.release`, `Sys.doOutStandby`, `Sys.doInStandby`,
`Sys.startOutputStream`, `Sys.startInputStream`, `Sys.selectDevices`.
-/
import AudioHw.Pacing
import Mathlib.Logic.Function.Basic

namespace AudioHw

/-- `AUDIO_MODE_NORMAL`. -/
def audioModeNormal : ℤ := 0

/-- `AUDIO_MODE_IN_CALL`. -/
def audioModeInCall : ℤ := 2

/-- `AUDIO_DEVICE_BIT_IN`. -/
def audioDeviceBitIn : UInt32 := 0x80000000

/-- The mutexes: `out->lock`, `in->lock` and `adev->lock`. -/
inductive Mutex
  | output
  | input
  | device
  deriving DecidableEq, Repr

/-- The order in which the calls take the mutexes: the output stream's, then
the input stream's, then the device's. -/
def Mutex.rank : Mutex → ℕ
  | .output => 0
  | .input => 1
  | .device => 2

/-- The two streams. -/
inductive Stream
  | output
  | input
  deriving DecidableEq, Repr

/-- The mutex of a stream. -/
def Stream.lock : Stream → Mutex
  | .output => .output
  | .input => .input

/-- What a stream's `pcm` designates: nothing (`NULL`), a PCM that `pcm_open`
opened ready at time `stamp`, or a PCM closed since: `start_*_stream` closes
one that is not ready but keeps the pointer. -/
inductive Handle
  | null
  | opened (stamp : ℕ)
  | closed
  deriving DecidableEq, Repr

/-- The handle is an open, ready PCM. -/
def Handle.isOpen : Handle → Bool
  | .opened _ => true
  | _ => false

@[simp] theorem Handle.isOpen_opened (n : ℕ) : (Handle.opened n).isOpen = true := rfl
@[simp] theorem Handle.isOpen_null : Handle.null.isOpen = false := rfl
@[simp] theorem Handle.isOpen_closed : Handle.closed.isOpen = false := rfl

/-- The fields of `struct stream_out` the calls share: `pcm`, `standby`,
`sleep_req`, and the pacing fields. -/
structure OutState where
  pcm : Handle
  standby : Bool
  sleepReq : Bool
  pace : Pace
  deriving DecidableEq, Repr

/-- The fields of `struct stream_in` the calls share: `pcm`, `standby`,
`sleep_req`. -/
structure InState where
  pcm : Handle
  standby : Bool
  sleepReq : Bool
  deriving DecidableEq, Repr

/-- The fields of `struct audio_device` the calls share; `active_out` and
`active_in` point to the one stream of their direction or are `NULL`. -/
structure DevState where
  mode : ℤ
  outDevice : UInt32
  inDevice : UInt32
  inSource : UInt32
  micMute : Bool
  screenOff : Bool
  activeOut : Bool
  activeIn : Bool
  deriving DecidableEq, Repr

/-! ### Program counters -/

/-- Where an `out_write` call is. The local `in` is the input stream in the
loop; after it, `inP` says it is not `NULL`. -/
inductive OutWritePc
  /-- before `out_lock(out)` -/
  | lockOut
  /-- in standby, before `adev_lock(adev)` -/
  | lockDev
  /-- in the loop with the device lock undone, before `in->sleep_req = true` -/
  | setInSleepReq
  /-- before `in_lock(in)` -/
  | lockIn
  /-- before the loop's `adev_lock(adev)` -/
  | relockDev
  /-- after the loop, before `start_output_stream(out)`, with the locals
  `in != NULL`, `in_locked` and `restart_input` -/
  | startOut (inP inLocked restartInput : Bool)
  /-- before `start_input_stream(in)` -/
  | restartIn (inLocked : Bool)
  /-- out of standby, before the pacing loop and `pcm_write` -/
  | write
  deriving DecidableEq, Repr

/-- Where an `in_read` call is. The local `out` is the output stream in the
loop; after it, `outP` says it is not `NULL`. -/
inductive InReadPc
  /-- before `in_lock(in)` -/
  | lockIn
  /-- in standby, before `adev_lock(adev)` -/
  | lockDev
  /-- in the loop with both locks undone, before `out->sleep_req = true` -/
  | setOutSleepReq
  /-- before `out_lock(out)` -/
  | lockOut
  /-- before the loop's `in_lock(in)` -/
  | relockIn
  /-- before the loop's `adev_lock(adev)` -/
  | relockDev
  /-- after the loop, before `if (out && !out->standby)`, with the locals
  `out != NULL` and `out_locked` -/
  | restartOut (outP outLocked : Bool)
  /-- before `start_input_stream(in)` -/
  | startIn
  /-- out of standby (or failed to leave it), before the read -/
  | read
  deriving DecidableEq, Repr

/-- Where a call of the shape `x->sleep_req = true; x_lock(x);
x->sleep_req = false; adev_lock(adev); …; adev_unlock(adev); x_unlock(x)` is:
`out_standby`, `in_standby`, the `set_parameters` calls, and
`adev_set_mic_mute` once it has found an input. -/
inductive YieldPc
  /-- before `x->sleep_req = true` -/
  | setSleepReq
  /-- before `x_lock(x)` -/
  | lockStream
  /-- holding `x->lock`, before `adev_lock(adev)` -/
  | lockDev
  deriving DecidableEq, Repr

/-- Where a thread is: idle, or in one of the calls, with the call's
arguments. -/
inductive Pc
  | idle
  | outWrite (l : OutWritePc)
  | inRead (l : InReadPc)
  | outStandby (l : YieldPc)
  | inStandby (l : YieldPc)
  /-- `out_set_parameters`, with the routing it was given, if any -/
  | outSetParameters (routing : Option UInt32) (l : YieldPc)
  /-- `in_set_parameters`, with the input source and routing it was given -/
  | inSetParameters (source routing : Option UInt32) (l : YieldPc)
  /-- `adev_set_mic_mute`; `none` before it reads `adev->active_in` -/
  | adevSetMicMute (state : Bool) (l : Option YieldPc)
  | adevSetMode (mode : ℤ)
  /-- `adev_close_input_stream`: in its `in_standby`, or (`none`) before its
  own `adev_lock` -/
  | adevCloseInputStream (l : Option YieldPc)
  /-- `out_get_presentation_position`: before `out->sleep_req = true`, or
  (`true`) before `out_lock` -/
  | outGetPresentationPosition (requested : Bool)
  /-- `adev_set_parameters`, with the screen state it was given, if any -/
  | adevSetParameters (screenOff : Option Bool)
  deriving DecidableEq, Repr

/-- The state of the device, its two streams, the mutexes (each with the thread
holding it), and the threads. -/
structure Sys where
  dev : DevState
  output : OutState
  input : InState
  owner : Mutex → Option ℕ
  th : ℕ → Pc
  /-- ghost: `adev->out_device` and `adev->in_device` at the last
  `select_devices` -/
  routed : Option (UInt32 × UInt32)
  /-- ghost: the `pcm_open` calls so far -/
  opens : ℕ

/-- After `adev_open`, `adev_open_output_stream` and `adev_open_input_stream`:
both streams in standby, nothing routed, no mutex held, no call in progress. -/
def initSys : Sys where
  dev := ⟨audioModeNormal, 0, 0, 0, false, false, false, false⟩
  output := ⟨.null, true, false, ⟨0, 0, .unknown, 0⟩⟩
  input := ⟨.null, true, false⟩
  owner := fun _ => none
  th := fun _ => .idle
  routed := none
  opens := 0

namespace Sys

/-! ### Mutexes and program counters -/

/-- `pthread_mutex_lock` by thread `t`: it goes on only when no one holds the
mutex. -/
def acquire (s : Sys) (m : Mutex) (t : ℕ) : Option Sys :=
  if s.owner m = none then some { s with owner := Function.update s.owner m (some t) } else none

/-- `pthread_mutex_unlock`. -/
def release (s : Sys) (m : Mutex) : Sys := { s with owner := Function.update s.owner m none }

/-- Thread `t` moves to `pc`. -/
def goto (s : Sys) (t : ℕ) (pc : Pc) : Sys := { s with th := Function.update s.th t pc }

theorem acquire_eq_some {s s' : Sys} {m : Mutex} {t : ℕ} (h : s.acquire m t = some s') :
    s.owner m = none ∧ s' = { s with owner := Function.update s.owner m (some t) } := by
  unfold acquire at h
  split at h
  · exact ⟨‹_›, (Option.some.inj h).symm⟩
  · cases h

theorem map_acquire_eq_some {s s' : Sys} {m : Mutex} {t : ℕ} {f : Sys → Sys}
    (h : (s.acquire m t).map f = some s') :
    s.owner m = none ∧ s' = f { s with owner := Function.update s.owner m (some t) } := by
  obtain ⟨s₁, h₁, rfl⟩ := Option.map_eq_some'.mp h
  obtain ⟨hf, rfl⟩ := acquire_eq_some h₁
  exact ⟨hf, rfl⟩

@[simp] theorem release_owner (s : Sys) (m : Mutex) :
    (s.release m).owner = Function.update s.owner m none := rfl
@[simp] theorem release_th (s : Sys) (m : Mutex) : (s.release m).th = s.th := rfl
@[simp] theorem release_dev (s : Sys) (m : Mutex) : (s.release m).dev = s.dev := rfl
@[simp] theorem release_output (s : Sys) (m : Mutex) : (s.release m).output = s.output := rfl
@[simp] theorem release_input (s : Sys) (m : Mutex) : (s.release m).input = s.input := rfl
@[simp] theorem release_routed (s : Sys) (m : Mutex) : (s.release m).routed = s.routed := rfl
@[simp] theorem release_opens (s : Sys) (m : Mutex) : (s.release m).opens = s.opens := rfl

@[simp] theorem goto_th (s : Sys) (t : ℕ) (pc : Pc) :
    (s.goto t pc).th = Function.update s.th t pc := rfl
@[simp] theorem goto_owner (s : Sys) (t : ℕ) (pc : Pc) : (s.goto t pc).owner = s.owner := rfl
@[simp] theorem goto_dev (s : Sys) (t : ℕ) (pc : Pc) : (s.goto t pc).dev = s.dev := rfl
@[simp] theorem goto_output (s : Sys) (t : ℕ) (pc : Pc) : (s.goto t pc).output = s.output := rfl
@[simp] theorem goto_input (s : Sys) (t : ℕ) (pc : Pc) : (s.goto t pc).input = s.input := rfl
@[simp] theorem goto_routed (s : Sys) (t : ℕ) (pc : Pc) : (s.goto t pc).routed = s.routed := rfl
@[simp] theorem goto_opens (s : Sys) (t : ℕ) (pc : Pc) : (s.goto t pc).opens = s.opens := rfl

/-! ### The shared routines -/

/-- `x->sleep_req = b`. -/
def setSleepReq (s : Sys) (x : Stream) (b : Bool) : Sys :=
  match x with
  | .output => { s with output := { s.output with sleepReq := b } }
  | .input => { s with input := { s.input with sleepReq := b } }

/-- `do_out_standby`: an output out of standby closes its PCM, is no longer
the active output, and goes to standby. -/
def doOutStandby (s : Sys) : Sys :=
  if s.output.standby then s
  else { s with output := { s.output with pcm := .null, standby := true },
                dev := { s.dev with activeOut := false } }

/-- `do_in_standby`, the same for the input. -/
def doInStandby (s : Sys) : Sys :=
  if s.input.standby then s
  else { s with input := { s.input with pcm := .null, standby := true },
                dev := { s.dev with activeIn := false } }

/-- `start_output_stream`: it resets the regime to `OUT_BUFFER_TYPE_UNKNOWN`
and opens the PCM; one that is not ready it closes, failing with `-ENOMEM`;
a ready one it registers as the active output. The stream's rate is the
PCM's, so it creates no resampler. -/
def startOutputStream (s : Sys) (ready : Bool) : Sys × ℤ :=
  let out := { s.output with pace := { s.output.pace with bufferType := .unknown } }
  if ready then
    ({ s with output := { out with pcm := .opened s.opens },
              dev := { s.dev with activeOut := true }, opens := s.opens + 1 }, 0)
  else ({ s with output := { out with pcm := .closed }, opens := s.opens + 1 }, -enomem)

/-- `start_input_stream`: it opens the PCM; one that is not ready it closes,
failing with `-ENOMEM`; a ready one it registers as the active input. -/
def startInputStream (s : Sys) (ready : Bool) : Sys × ℤ :=
  if ready then
    ({ s with input := { s.input with pcm := .opened s.opens },
              dev := { s.dev with activeIn := true }, opens := s.opens + 1 }, 0)
  else ({ s with input := { s.input with pcm := .closed }, opens := s.opens + 1 }, -enomem)

/-- `select_devices`: the mixer paths follow `adev->out_device` and
`adev->in_device`. -/
def selectDevices (s : Sys) : Sys := { s with routed := some (s.dev.outDevice, s.dev.inDevice) }

@[simp] theorem setSleepReq_owner (s : Sys) (x : Stream) (b : Bool) :
    (s.setSleepReq x b).owner = s.owner := by cases x <;> rfl
@[simp] theorem setSleepReq_th (s : Sys) (x : Stream) (b : Bool) :
    (s.setSleepReq x b).th = s.th := by cases x <;> rfl
@[simp] theorem setSleepReq_dev (s : Sys) (x : Stream) (b : Bool) :
    (s.setSleepReq x b).dev = s.dev := by cases x <;> rfl
@[simp] theorem setSleepReq_routed (s : Sys) (x : Stream) (b : Bool) :
    (s.setSleepReq x b).routed = s.routed := by cases x <;> rfl
@[simp] theorem setSleepReq_opens (s : Sys) (x : Stream) (b : Bool) :
    (s.setSleepReq x b).opens = s.opens := by cases x <;> rfl
@[simp] theorem setSleepReq_output_standby (s : Sys) (x : Stream) (b : Bool) :
    (s.setSleepReq x b).output.standby = s.output.standby := by cases x <;> rfl
@[simp] theorem setSleepReq_output_pcm (s : Sys) (x : Stream) (b : Bool) :
    (s.setSleepReq x b).output.pcm = s.output.pcm := by cases x <;> rfl
@[simp] theorem setSleepReq_output_pace (s : Sys) (x : Stream) (b : Bool) :
    (s.setSleepReq x b).output.pace = s.output.pace := by cases x <;> rfl
@[simp] theorem setSleepReq_input_standby (s : Sys) (x : Stream) (b : Bool) :
    (s.setSleepReq x b).input.standby = s.input.standby := by cases x <;> rfl
@[simp] theorem setSleepReq_input_pcm (s : Sys) (x : Stream) (b : Bool) :
    (s.setSleepReq x b).input.pcm = s.input.pcm := by cases x <;> rfl

@[simp] theorem doOutStandby_owner (s : Sys) : s.doOutStandby.owner = s.owner := by
  unfold doOutStandby; split <;> rfl
@[simp] theorem doOutStandby_th (s : Sys) : s.doOutStandby.th = s.th := by
  unfold doOutStandby; split <;> rfl
@[simp] theorem doOutStandby_input (s : Sys) : s.doOutStandby.input = s.input := by
  unfold doOutStandby; split <;> rfl
@[simp] theorem doOutStandby_routed (s : Sys) : s.doOutStandby.routed = s.routed := by
  unfold doOutStandby; split <;> rfl
@[simp] theorem doOutStandby_opens (s : Sys) : s.doOutStandby.opens = s.opens := by
  unfold doOutStandby; split <;> rfl
@[simp] theorem doOutStandby_standby (s : Sys) : s.doOutStandby.output.standby = true := by
  unfold doOutStandby; split <;> simp_all
@[simp] theorem doOutStandby_outDevice (s : Sys) :
    s.doOutStandby.dev.outDevice = s.dev.outDevice := by
  unfold doOutStandby; split <;> rfl
@[simp] theorem doOutStandby_inDevice (s : Sys) :
    s.doOutStandby.dev.inDevice = s.dev.inDevice := by
  unfold doOutStandby; split <;> rfl
@[simp] theorem doOutStandby_mode (s : Sys) : s.doOutStandby.dev.mode = s.dev.mode := by
  unfold doOutStandby; split <;> rfl
@[simp] theorem doOutStandby_pcm (s : Sys) :
    s.doOutStandby.output.pcm = if s.output.standby then s.output.pcm else .null := by
  unfold doOutStandby; split <;> simp_all
@[simp] theorem doOutStandby_pace (s : Sys) : s.doOutStandby.output.pace = s.output.pace := by
  unfold doOutStandby; split <;> rfl
@[simp] theorem doOutStandby_activeOut (s : Sys) :
    s.doOutStandby.dev.activeOut = (s.output.standby && s.dev.activeOut) := by
  unfold doOutStandby; split <;> simp_all
@[simp] theorem doOutStandby_activeIn (s : Sys) : s.doOutStandby.dev.activeIn = s.dev.activeIn := by
  unfold doOutStandby; split <;> rfl

@[simp] theorem doInStandby_owner (s : Sys) : s.doInStandby.owner = s.owner := by
  unfold doInStandby; split <;> rfl
@[simp] theorem doInStandby_th (s : Sys) : s.doInStandby.th = s.th := by
  unfold doInStandby; split <;> rfl
@[simp] theorem doInStandby_output (s : Sys) : s.doInStandby.output = s.output := by
  unfold doInStandby; split <;> rfl
@[simp] theorem doInStandby_routed (s : Sys) : s.doInStandby.routed = s.routed := by
  unfold doInStandby; split <;> rfl
@[simp] theorem doInStandby_opens (s : Sys) : s.doInStandby.opens = s.opens := by
  unfold doInStandby; split <;> rfl
@[simp] theorem doInStandby_standby (s : Sys) : s.doInStandby.input.standby = true := by
  unfold doInStandby; split <;> simp_all
@[simp] theorem doInStandby_outDevice (s : Sys) :
    s.doInStandby.dev.outDevice = s.dev.outDevice := by
  unfold doInStandby; split <;> rfl
@[simp] theorem doInStandby_inDevice (s : Sys) :
    s.doInStandby.dev.inDevice = s.dev.inDevice := by
  unfold doInStandby; split <;> rfl
@[simp] theorem doInStandby_mode (s : Sys) : s.doInStandby.dev.mode = s.dev.mode := by
  unfold doInStandby; split <;> rfl
@[simp] theorem doInStandby_pcm (s : Sys) :
    s.doInStandby.input.pcm = if s.input.standby then s.input.pcm else .null := by
  unfold doInStandby; split <;> simp_all
@[simp] theorem doInStandby_activeIn (s : Sys) :
    s.doInStandby.dev.activeIn = (s.input.standby && s.dev.activeIn) := by
  unfold doInStandby; split <;> simp_all
@[simp] theorem doInStandby_activeOut (s : Sys) :
    s.doInStandby.dev.activeOut = s.dev.activeOut := by
  unfold doInStandby; split <;> rfl

@[simp] theorem startOutputStream_owner (s : Sys) (r : Bool) :
    (s.startOutputStream r).1.owner = s.owner := by cases r <;> rfl
@[simp] theorem startOutputStream_th (s : Sys) (r : Bool) :
    (s.startOutputStream r).1.th = s.th := by cases r <;> rfl
@[simp] theorem startOutputStream_input (s : Sys) (r : Bool) :
    (s.startOutputStream r).1.input = s.input := by cases r <;> rfl
@[simp] theorem startOutputStream_routed (s : Sys) (r : Bool) :
    (s.startOutputStream r).1.routed = s.routed := by cases r <;> rfl
@[simp] theorem startOutputStream_standby (s : Sys) (r : Bool) :
    (s.startOutputStream r).1.output.standby = s.output.standby := by cases r <;> rfl
@[simp] theorem startOutputStream_outDevice (s : Sys) (r : Bool) :
    (s.startOutputStream r).1.dev.outDevice = s.dev.outDevice := by cases r <;> rfl
@[simp] theorem startOutputStream_inDevice (s : Sys) (r : Bool) :
    (s.startOutputStream r).1.dev.inDevice = s.dev.inDevice := by cases r <;> rfl
@[simp] theorem startOutputStream_mode (s : Sys) (r : Bool) :
    (s.startOutputStream r).1.dev.mode = s.dev.mode := by cases r <;> rfl
@[simp] theorem startOutputStream_activeIn (s : Sys) (r : Bool) :
    (s.startOutputStream r).1.dev.activeIn = s.dev.activeIn := by cases r <;> rfl
@[simp] theorem startOutputStream_pcm (s : Sys) (r : Bool) :
    (s.startOutputStream r).1.output.pcm = if r then .opened s.opens else .closed := by
  cases r <;> rfl
@[simp] theorem startOutputStream_pace (s : Sys) (r : Bool) :
    (s.startOutputStream r).1.output.pace = { s.output.pace with bufferType := .unknown } := by
  cases r <;> rfl
@[simp] theorem startOutputStream_activeOut (s : Sys) (r : Bool) :
    (s.startOutputStream r).1.dev.activeOut = (r || s.dev.activeOut) := by cases r <;> rfl
@[simp] theorem startOutputStream_opens (s : Sys) (r : Bool) :
    (s.startOutputStream r).1.opens = s.opens + 1 := by cases r <;> rfl
@[simp] theorem startOutputStream_ret (s : Sys) (r : Bool) :
    (s.startOutputStream r).2 = if r then 0 else -enomem := by cases r <;> rfl

@[simp] theorem startInputStream_owner (s : Sys) (r : Bool) :
    (s.startInputStream r).1.owner = s.owner := by cases r <;> rfl
@[simp] theorem startInputStream_th (s : Sys) (r : Bool) :
    (s.startInputStream r).1.th = s.th := by cases r <;> rfl
@[simp] theorem startInputStream_output (s : Sys) (r : Bool) :
    (s.startInputStream r).1.output = s.output := by cases r <;> rfl
@[simp] theorem startInputStream_routed (s : Sys) (r : Bool) :
    (s.startInputStream r).1.routed = s.routed := by cases r <;> rfl
@[simp] theorem startInputStream_standby (s : Sys) (r : Bool) :
    (s.startInputStream r).1.input.standby = s.input.standby := by cases r <;> rfl
@[simp] theorem startInputStream_outDevice (s : Sys) (r : Bool) :
    (s.startInputStream r).1.dev.outDevice = s.dev.outDevice := by cases r <;> rfl
@[simp] theorem startInputStream_inDevice (s : Sys) (r : Bool) :
    (s.startInputStream r).1.dev.inDevice = s.dev.inDevice := by cases r <;> rfl
@[simp] theorem startInputStream_mode (s : Sys) (r : Bool) :
    (s.startInputStream r).1.dev.mode = s.dev.mode := by cases r <;> rfl
@[simp] theorem startInputStream_activeOut (s : Sys) (r : Bool) :
    (s.startInputStream r).1.dev.activeOut = s.dev.activeOut := by cases r <;> rfl
@[simp] theorem startInputStream_pcm (s : Sys) (r : Bool) :
    (s.startInputStream r).1.input.pcm = if r then .opened s.opens else .closed := by
  cases r <;> rfl
@[simp] theorem startInputStream_activeIn (s : Sys) (r : Bool) :
    (s.startInputStream r).1.dev.activeIn = (r || s.dev.activeIn) := by cases r <;> rfl
@[simp] theorem startInputStream_opens (s : Sys) (r : Bool) :
    (s.startInputStream r).1.opens = s.opens + 1 := by cases r <;> rfl
@[simp] theorem startInputStream_ret (s : Sys) (r : Bool) :
    (s.startInputStream r).2 = if r then 0 else -enomem := by cases r <;> rfl

@[simp] theorem selectDevices_owner (s : Sys) : s.selectDevices.owner = s.owner := rfl
@[simp] theorem selectDevices_th (s : Sys) : s.selectDevices.th = s.th := rfl
@[simp] theorem selectDevices_dev (s : Sys) : s.selectDevices.dev = s.dev := rfl
@[simp] theorem selectDevices_output (s : Sys) : s.selectDevices.output = s.output := rfl
@[simp] theorem selectDevices_input (s : Sys) : s.selectDevices.input = s.input := rfl
@[simp] theorem selectDevices_routed (s : Sys) :
    s.selectDevices.routed = some (s.dev.outDevice, s.dev.inDevice) := rfl
@[simp] theorem selectDevices_opens (s : Sys) : s.selectDevices.opens = s.opens := rfl

end Sys

end AudioHw
