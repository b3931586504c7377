/-
# The HAL's calls, step by step, under any interleaving

Each call of the HAL is a thread that runs its function's code in steps. A
step begins with at most one `pthread_mutex_lock`, and goes on only if no one
holds that mutex; it makes at most one `pcm_open`, whose outcome (a ready PCM
or not) the environment chooses; between two such points the code runs
without interruption. The writes of the `sleep_req` flags, which no mutex
guards, and `adev_set_mic_mute`'s read of `adev->active_in` are steps of their
own. Any number of threads make any of the calls, interleaved at will
(`step`); the states reached from `initSys` are `Reach`, and those reached
through states that all satisfy a property `P` are `ReachVia P`.

Key definitions: `Op`, `Act`, `Sys.outWriteStep`, `Sys.inReadStep`,
`Sys.yieldStep`, `Sys.step`, `ReachVia`, `Reach`, `Sys.runSteps`.
-/
import AudioHw.Device

namespace AudioHw

/-- The calls, with their arguments: `out_write`, `in_read`, `out_standby`,
`in_standby`, `out_set_parameters` (the routing it carries, if any),
`in_set_parameters` (the input source and the routing), `adev_set_mic_mute`,
`adev_set_mode`, `adev_close_input_stream`, `out_get_presentation_position`
and `adev_set_parameters` (the screen state, if any). -/
inductive Op
  | outWrite
  | inRead
  | outStandby
  | inStandby
  | outSetParameters (routing : Option UInt32)
  | inSetParameters (source routing : Option UInt32)
  | adevSetMicMute (state : Bool)
  | adevSetMode (mode : ℤ)
  | adevCloseInputStream
  | outGetPresentationPosition
  | adevSetParameters (screenOff : Option Bool)
  deriving DecidableEq, Repr

/-- Where a call starts. -/
def Op.entry : Op → Pc
  | .outWrite => .outWrite .lockOut
  | .inRead => .inRead .lockIn
  | .outStandby => .outStandby .setSleepReq
  | .inStandby => .inStandby .setSleepReq
  | .outSetParameters r => .outSetParameters r .setSleepReq
  | .inSetParameters src r => .inSetParameters src r .setSleepReq
  | .adevSetMicMute b => .adevSetMicMute b none
  | .adevSetMode m => .adevSetMode m
  | .adevCloseInputStream => .adevCloseInputStream (some .setSleepReq)
  | .outGetPresentationPosition => .outGetPresentationPosition false
  | .adevSetParameters v => .adevSetParameters v

/-- The environment's part in a step: the call an idle thread makes; the
outcome of the step's `pcm_open`, if it makes one (`ready`); or what the
hardware answers the pacing loop and `pcm_write` of a write. -/
inductive Act
  | call (op : Op)
  | run (ready : Bool)
  | write (bytes : ℕ) (kf0 : ℤ) (qs : ℕ → Query) (fuel : ℕ) (status : ℤ)

namespace Sys

/-! ### `out_write` -/

/-- The test of `out_write`'s loop, `in != NULL && !in->standby`, with the
output and device locks held: round the loop, undoing the device lock, or on
to `start_output_stream`. -/
def outWriteLoop (s : Sys) (t : ℕ) (inP : Bool) : Sys :=
  if inP && !s.input.standby then (s.release .device).goto t (.outWrite .setInSleepReq)
  else s.goto t (.outWrite (.startOut inP false false))

/-- The end of `out_write`'s exit from standby once `start_output_stream` has
succeeded: the input lock released if taken and the input's sleep request
cleared, the mixer set, the stream out of standby, the device lock released. -/
def outWriteExitStandby (s : Sys) (t : ℕ) (inP inLocked : Bool) : Sys :=
  let s := if inP then (if inLocked then s.release .input else s).setSleepReq .input false else s
  ({ s.selectDevices with output := { s.output with standby := false } }.release .device).goto t
    (.outWrite .write)

section

variable (s : Sys) (t : ℕ) (inP inLocked : Bool)

@[simp] theorem outWriteExitStandby_output :
    (s.outWriteExitStandby t inP inLocked).output = { s.output with standby := false } := by
  cases inP <;> cases inLocked <;> rfl
@[simp] theorem outWriteExitStandby_dev : (s.outWriteExitStandby t inP inLocked).dev = s.dev := by
  cases inP <;> cases inLocked <;> rfl
@[simp] theorem outWriteExitStandby_input :
    (s.outWriteExitStandby t inP inLocked).input =
      if inP then { s.input with sleepReq := false } else s.input := by
  cases inP <;> cases inLocked <;> rfl
@[simp] theorem outWriteExitStandby_routed :
    (s.outWriteExitStandby t inP inLocked).routed = some (s.dev.outDevice, s.dev.inDevice) := by
  cases inP <;> cases inLocked <;> rfl
@[simp] theorem outWriteExitStandby_opens :
    (s.outWriteExitStandby t inP inLocked).opens = s.opens := by
  cases inP <;> cases inLocked <;> rfl
@[simp] theorem outWriteExitStandby_th :
    (s.outWriteExitStandby t inP inLocked).th = Function.update s.th t (.outWrite .write) := by
  cases inP <;> cases inLocked <;> rfl

end

/-- One step of `out_write` up to its pacing loop. On the failure of
`start_output_stream` the code jumps to `exit`, which unlocks the output only. -/
def outWriteStep (s : Sys) (t : ℕ) (ready : Bool) : OutWritePc → Option Sys
  | .lockOut => (s.acquire .output t).map fun s =>
      s.goto t (.outWrite (if s.output.standby then .lockDev else .write))
  | .lockDev => (s.acquire .device t).map fun s => s.outWriteLoop t s.dev.activeIn
  | .setInSleepReq => some ((s.setSleepReq .input true).goto t (.outWrite .lockIn))
  | .lockIn => (s.acquire .input t).map fun s => s.goto t (.outWrite .relockDev)
  | .relockDev => (s.acquire .device t).map fun s =>
      if s.dev.activeIn then s.doInStandby.goto t (.outWrite (.startOut true true !s.input.standby))
      else (s.release .input).outWriteLoop t false
  | .startOut inP inLocked restartInput =>
      let r := s.startOutputStream ready
      if r.2 ≠ 0 then some ((r.1.release .output).goto t .idle)
      else if inP && restartInput && r.1.input.standby then
        some (r.1.goto t (.outWrite (.restartIn inLocked)))
      else some (r.1.outWriteExitStandby t inP inLocked)
  | .restartIn inLocked =>
      let r := s.startInputStream ready
      let s := if r.2 = 0 then { r.1 with input := { r.1.input with standby := false } } else r.1
      some (s.outWriteExitStandby t true inLocked)
  | .write => none

/-- The rest of `out_write`: the regime update, pacing loop and threshold step
of `outWritePace` (no step while the loop has not finished), `pcm_write`, and
`out_unlock` on both of its exits. -/
def outWriteFinish (s : Sys) (t : ℕ) (bytes : ℕ) (kf0 : ℤ) (qs : ℕ → Query) (fuel : ℕ)
    (status : ℤ) : Option Sys :=
  (outWritePace s.output.pace s.dev.screenOff s.dev.activeIn bytes kf0 qs fuel status).map
    fun r => ({ s with output := { s.output with pace := r.1 } }.release .output).goto t .idle

/-! ### `in_read` -/

/-- The test of `in_read`'s loop, `out && !out->standby`, with the input and
device locks held: round the loop, undoing both, or on past it. -/
def inReadLoop (s : Sys) (t : ℕ) (outP : Bool) : Sys :=
  if outP && !s.output.standby then
    ((s.release .device).release .input).goto t (.inRead .setOutSleepReq)
  else s.goto t (.inRead (.restartOut outP false))

/-- One step of `in_read`. The restart of the output marks it out of standby
whatever `start_output_stream` returned. -/
def inReadStep (s : Sys) (t : ℕ) (ready : Bool) : InReadPc → Option Sys
  | .lockIn => (s.acquire .input t).map fun s =>
      s.goto t (.inRead (if s.input.standby then .lockDev else .read))
  | .lockDev => (s.acquire .device t).map fun s => s.inReadLoop t s.dev.activeOut
  | .setOutSleepReq => some ((s.setSleepReq .output true).goto t (.inRead .lockOut))
  | .lockOut => (s.acquire .output t).map fun s => s.goto t (.inRead .relockIn)
  | .relockIn => (s.acquire .input t).map fun s => s.goto t (.inRead .relockDev)
  | .relockDev => (s.acquire .device t).map fun s =>
      if s.dev.activeOut then s.goto t (.inRead (.restartOut true true))
      else (s.release .output).inReadLoop t false
  | .restartOut outP outLocked =>
      if outP && !s.output.standby then
        let r := s.doOutStandby.startOutputStream ready
        let s := { r.1 with output := { r.1.output with standby := false } }
        some ((if outLocked then (s.release .output).setSleepReq .output false else s).goto t
          (.inRead .startIn))
      else some (s.goto t (.inRead .startIn))
  | .startIn =>
      let r := s.startInputStream ready
      let s := if r.2 = 0 then { r.1 with input := { r.1.input with standby := false } } else r.1
      some ((s.selectDevices.release .device).goto t (.inRead .read))
  | .read => some ((s.release .input).goto t .idle)

/-! ### The calls of the common shape -/

/-- One step of a call of the shape `x->sleep_req = true; x_lock(x);
x->sleep_req = false; adev_lock(adev); body; adev_unlock(adev); x_unlock(x)`
on the stream `x`, at `k l` while at `l`, going on to `next`. -/
def yieldStep (x : Stream) (body : Sys → Sys) (next : Pc) (k : YieldPc → Pc) (s : Sys) (t : ℕ) :
    YieldPc → Option Sys
  | .setSleepReq => some ((s.setSleepReq x true).goto t (k .lockStream))
  | .lockStream => (s.acquire x.lock t).map fun s => (s.setSleepReq x false).goto t (k .lockDev)
  | .lockDev => (s.acquire .device t).map fun s =>
      (((body s).release .device).release x.lock).goto t next

/-- The body of `out_set_parameters`: a routing to a device other than
`adev->out_device` puts the output in standby, outside a call, and is
stored. -/
def outSetParametersBody (routing : Option UInt32) (s : Sys) : Sys :=
  match routing with
  | some val =>
    if s.dev.outDevice ≠ val ∧ val ≠ 0 then
      let s := if s.dev.mode ≠ audioModeInCall ∧ !s.output.standby then s.doOutStandby else s
      { s with dev := { s.dev with outDevice := val } }
    else s
  | none => s

/-- The first part of `in_set_parameters`' body: a new input source is stored
(and sent to the mixer). -/
def inSetParametersSource (source : Option UInt32) (s : Sys) : Sys :=
  match source with
  | some val => if s.dev.inSource ≠ val then { s with dev := { s.dev with inSource := val } } else s
  | none => s

/-- The second part: a routing, `AUDIO_DEVICE_BIT_IN` cleared, to a device
other than `adev->in_device` puts the input in standby, outside a call, and is
stored. -/
def inSetParametersRouting (routing : Option UInt32) (s : Sys) : Sys :=
  match routing with
  | some v =>
    let val := v &&& ~~~audioDeviceBitIn
    if s.dev.inDevice ≠ val ∧ val ≠ 0 then
      let s := if s.dev.mode ≠ audioModeInCall ∧ !s.input.standby then s.doInStandby else s
      { s with dev := { s.dev with inDevice := val } }
    else s
  | none => s

/-- The body of `in_set_parameters` under the device lock. -/
def inSetParametersBody (source routing : Option UInt32) (s : Sys) : Sys :=
  inSetParametersRouting routing (inSetParametersSource source s)

/-- The body of `adev_set_mic_mute` once it has found an input: the input to
standby, outside a call; the stored `mic_mute` (written after the unlocks). -/
def adevSetMicMuteBody (state : Bool) (s : Sys) : Sys :=
  let s := if s.dev.mode ≠ audioModeInCall then s.doInStandby else s
  { s with dev := { s.dev with micMute := state } }

/-! ### One step of any thread -/

/-- One step of a thread in a call at `pc`; `ready` is the outcome of the
step's `pcm_open`, if it makes one. -/
def runStep (s : Sys) (t : ℕ) (ready : Bool) : Pc → Option Sys
  | .idle => none
  | .outWrite l => s.outWriteStep t ready l
  | .inRead l => s.inReadStep t ready l
  | .outStandby l => s.yieldStep .output doOutStandby .idle .outStandby t l
  | .inStandby l => s.yieldStep .input doInStandby .idle .inStandby t l
  | .outSetParameters r l =>
    s.yieldStep .output (outSetParametersBody r) .idle (.outSetParameters r) t l
  | .inSetParameters src r l =>
    s.yieldStep .input (inSetParametersBody src r) .idle (.inSetParameters src r) t l
  | .adevSetMicMute b none =>
    some (if s.dev.activeIn then s.goto t (.adevSetMicMute b (some .setSleepReq))
      else { s with dev := { s.dev with micMute := b } }.goto t .idle)
  | .adevSetMicMute b (some l) =>
    s.yieldStep .input (adevSetMicMuteBody b) .idle (fun l => .adevSetMicMute b (some l)) t l
  | .adevSetMode m => (s.acquire .device t).map fun s =>
      ({ s with dev := { s.dev with mode := m } }.release .device).goto t .idle
  | .adevCloseInputStream (some l) =>
    s.yieldStep .input doInStandby (.adevCloseInputStream none)
      (fun l => .adevCloseInputStream (some l)) t l
  | .adevCloseInputStream none => (s.acquire .device t).map fun s =>
      ({ s with dev := { s.dev with activeIn := false } }.release .device).goto t .idle
  | .outGetPresentationPosition false =>
    some ((s.setSleepReq .output true).goto t (.outGetPresentationPosition true))
  | .outGetPresentationPosition true => (s.acquire .output t).map fun s =>
      ((s.setSleepReq .output false).release .output).goto t .idle
  | .adevSetParameters v =>
    some ({ s with dev := { s.dev with screenOff := v.getD s.dev.screenOff } }.goto t .idle)

/-- One step of thread `t`: an idle thread makes a call; a thread in a call
runs its next step; `none` when `t` cannot take the step `a`. -/
def step (s : Sys) (t : ℕ) : Act → Option Sys
  | .call op => if s.th t = .idle then some (s.goto t op.entry) else none
  | .run ready => s.runStep t ready (s.th t)
  | .write bytes kf0 qs fuel status =>
    if s.th t = .outWrite .write then s.outWriteFinish t bytes kf0 qs fuel status else none

/-- The steps `l` from `s`, in order; `none` if one cannot be taken. -/
def runSteps : Sys → List (ℕ × Act) → Option Sys
  | s, [] => some s
  | s, (t, a) :: l => (s.step t a).bind fun s' => runSteps s' l

end Sys

/-- The states reached from `initSys` by steps of any threads, through states
that all satisfy `P`. -/
inductive ReachVia (P : Sys → Prop) : Sys → Prop
  | init : P initSys → ReachVia P initSys
  | step {s s' : Sys} (t : ℕ) (a : Act) : ReachVia P s → s.step t a = some s' → P s' →
      ReachVia P s'

/-- Every state of such a run satisfies `P`. -/
theorem ReachVia.prop {P : Sys → Prop} {s : Sys} : ReachVia P s → P s
  | .init h => h
  | .step _ _ _ _ h => h

/-- The states reached from `initSys` by any interleaving of the calls. -/
def Reach (s : Sys) : Prop := ReachVia (fun _ => True) s

/-- A run through states of `P` is a run. -/
theorem ReachVia.reach {P : Sys → Prop} {s : Sys} (h : ReachVia P s) : Reach s := by
  induction h with
  | init => exact .init trivial
  | step t a _ hst _ ih => exact .step t a ih hst trivial

/-- A run of steps from a reached state reaches its end. -/
theorem Reach.runSteps : ∀ {s s' : Sys} (l : List (ℕ × Act)), Reach s → s.runSteps l = some s' →
    Reach s'
  | _, _, [], hs, h => by cases h; exact hs
  | s, _, (t, a) :: l, hs, h => by
    obtain ⟨s₁, h₁, h⟩ := Option.bind_eq_some.mp h
    exact Reach.runSteps l (ReachVia.step t a hs h₁ trivial) h

/-- A state with a property `p`, at the end of a run from `initSys`. -/
theorem Reach.exists_of_run (l : List (ℕ × Act)) (p : Sys → Prop) [DecidablePred p]
    (h : (initSys.runSteps l).any (fun s => decide (p s)) = true) : ∃ s, Reach s ∧ p s := by
  cases hs : initSys.runSteps l with
  | none => rw [hs] at h; cases h
  | some s =>
    rw [hs] at h
    exact ⟨s, Reach.runSteps l (ReachVia.init trivial) hs, of_decide_eq_true h⟩

/-- The run `l` from `s`, stopped at the first state that fails `P`. -/
theorem ReachVia.foldlM {P : Sys → Prop} [DecidablePred P] :
    ∀ {s s' : Sys} (l : List (ℕ × Act)), ReachVia P s →
      l.foldlM (fun (x : Sys) q => (x.step q.1 q.2).filter fun y => decide (P y)) s = some s' →
      ReachVia P s'
  | _, _, [], hs, h => by cases h; exact hs
  | s, _, (t, a) :: l, hs, h => by
    obtain ⟨s₁, h₁, h⟩ := Option.bind_eq_some.mp h
    obtain ⟨h₁, hp⟩ := Option.filter_eq_some.mp h₁
    exact ReachVia.foldlM l (.step t a hs h₁ (of_decide_eq_true hp)) h

/-- A state with a property `p`, at the end of a run from `initSys` through
states of `P`. -/
theorem ReachVia.exists_of_run {P : Sys → Prop} [DecidablePred P] (l : List (ℕ × Act))
    (p : Sys → Prop) [DecidablePred p] (h₀ : P initSys)
    (h : (l.foldlM (fun (x : Sys) q => (x.step q.1 q.2).filter fun y => decide (P y)) initSys).any
      (fun s => decide (p s)) = true) : ∃ s, ReachVia P s ∧ p s := by
  cases hs : l.foldlM (fun (x : Sys) q => (x.step q.1 q.2).filter fun y => decide (P y)) initSys with
  | none => rw [hs] at h; cases h
  | some s =>
    rw [hs] at h
    exact ⟨s, ReachVia.foldlM l (.init h₀) hs, of_decide_eq_true h⟩

/-- States `s₀` and `s` with a property `p`: `s₀` at the end of a run `l₁` from
`initSys`, and `s` at the end of the run `l₂` from `s₀`. -/
theorem Reach.exists_of_runs (l₁ l₂ : List (ℕ × Act)) (p : Sys → Sys → Prop)
    [∀ s₀ s, Decidable (p s₀ s)]
    (h : ((initSys.runSteps l₁).bind fun s₀ => (s₀.runSteps l₂).map fun s => decide (p s₀ s)) =
      some true) :
    ∃ s₀ s, Reach s₀ ∧ s₀.runSteps l₂ = some s ∧ p s₀ s := by
  cases h₁ : initSys.runSteps l₁ with
  | none => rw [h₁] at h; cases h
  | some s₀ =>
    cases h₂ : s₀.runSteps l₂ with
    | none => simp [h₁, h₂] at h
    | some s =>
      simp only [h₁, h₂, Option.some_bind, Option.map_some', Option.some.injEq,
        decide_eq_true_eq] at h
      exact ⟨s₀, s, Reach.runSteps l₁ (ReachVia.init trivial) h₁, h₂, h⟩

end AudioHw
