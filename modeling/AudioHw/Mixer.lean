/-
# The mixer paths `select_devices` writes

`select_devices` turns the two devices into two mixer settings: a "Playback
Path" from `adev->out_device` (none if it names no speaker, headset or
headphone) and a "Capture MIC Path" from `adev->in_device`. Its tests use the
input device constants as the framework spells them, with
`AUDIO_DEVICE_BIT_IN` set, so a device value that carried that bit would pass
the built-in mic's test whatever microphone it named
(`selectDevicesMixer_capture_of_bitIn`). `in_set_parameters` clears the bit
before it stores a routing, and `adev_open` starts from `AUDIO_DEVICE_NONE`, so
no reachable `adev->in_device` carries it (`ReachVia.inDevice_noBitIn`), and
the tests read the device's own bits. With `routing_reachesMixer`: in every
run that never enters `AUDIO_MODE_IN_CALL`, a capturing input records from the
microphone of its device.

Key definitions: `selectDevicesMixer`, `Sys.captureMicPath`, `micOfDevice`.
Key theorems: `ReachVia.inDevice_noBitIn`, `captureMicPath_followsInDevice`.
-/
import AudioHw.Routing

namespace AudioHw

/-! ### The device constants and the mixer writes -/

/-- `AUDIO_DEVICE_OUT_SPEAKER`. -/
def audioDeviceOutSpeaker : UInt32 := 0x2

/-- `AUDIO_DEVICE_OUT_WIRED_HEADSET`. -/
def audioDeviceOutWiredHeadset : UInt32 := 0x4

/-- `AUDIO_DEVICE_OUT_WIRED_HEADPHONE`. -/
def audioDeviceOutWiredHeadphone : UInt32 := 0x8

/-- `AUDIO_DEVICE_IN_BUILTIN_MIC`. -/
def audioDeviceInBuiltinMic : UInt32 := audioDeviceBitIn ||| 0x4

/-- `AUDIO_DEVICE_IN_BLUETOOTH_SCO_HEADSET`. -/
def audioDeviceInBluetoothScoHeadset : UInt32 := audioDeviceBitIn ||| 0x8

/-- `AUDIO_DEVICE_IN_WIRED_HEADSET`. -/
def audioDeviceInWiredHeadset : UInt32 := audioDeviceBitIn ||| 0x10

/-- What `select_devices` writes to the mixer: the value of "Playback Path"
(`none`: no write) and of "Capture MIC Path". -/
def selectDevicesMixer (outDevice inDevice : UInt32) : Option String × String :=
  let headphoneOn := outDevice &&& (audioDeviceOutWiredHeadset ||| audioDeviceOutWiredHeadphone) != 0
  let headsetOn := outDevice &&& audioDeviceOutWiredHeadset != 0
  let speakerOn := outDevice &&& audioDeviceOutSpeaker != 0
  let mainMicOn := inDevice &&& audioDeviceInBuiltinMic != 0
  let headsetMicOn := inDevice &&& audioDeviceInWiredHeadset != 0
  let btScoOn := inDevice &&& audioDeviceInBluetoothScoHeadset != 0
  (if speakerOn && headphoneOn then some "SPK_HP"
    else if speakerOn then some "SPK"
    else if headsetOn then some "HP_NO_MIC"
    else if headphoneOn then some "HP"
    else none,
  if mainMicOn then "Main Mic"
    else if headsetMicOn then "Hands Free Mic"
    else if btScoOn then "BT Sco Mic"
    else "MIC OFF")

/-- The "Capture MIC Path" the mixer was last given: by the last
`select_devices`, none before the first. -/
def Sys.captureMicPath (s : Sys) : Option String :=
  s.routed.map fun d => (selectDevicesMixer d.1 d.2).2

/-- The microphone an input device value names by its own bits, the ones
without `AUDIO_DEVICE_BIT_IN`: the built-in mic first, then the wired
headset's, then the SCO headset's. -/
def micOfDevice (d : UInt32) : String :=
  if d &&& 0x4 != 0 then "Main Mic"
  else if d &&& 0x10 != 0 then "Hands Free Mic"
  else if d &&& 0x8 != 0 then "BT Sco Mic"
  else "MIC OFF"

/-! ### Masks -/

section

variable (d b m : UInt32)

theorem and_not_and_self : d &&& ~~~b &&& b = 0 := by
  apply UInt32.eq_of_toBitVec_eq
  change (d.toBitVec &&& ~~~b.toBitVec) &&& b.toBitVec = 0#32
  ext i
  simp

/-- A mask `b ||| m` tests only `m` on a value with no bit of `b`. -/
theorem and_or_of_and_eq_zero (h : d &&& b = 0) : d &&& (b ||| m) = d &&& m := by
  apply UInt32.eq_of_toBitVec_eq
  have h' : d.toBitVec &&& b.toBitVec = 0#32 := congrArg UInt32.toBitVec h
  change d.toBitVec &&& (b.toBitVec ||| m.toBitVec) = d.toBitVec &&& m.toBitVec
  have hd : d.toBitVec &&& (b.toBitVec ||| m.toBitVec) =
      (d.toBitVec &&& b.toBitVec) ||| (d.toBitVec &&& m.toBitVec) := by
    ext i
    simp [Bool.and_or_distrib_left]
  rw [hd, h', BitVec.zero_or]

/-- A mask `b ||| m` passes every value with a bit of `b`. -/
theorem and_or_ne_zero (h : d &&& b ≠ 0) : d &&& (b ||| m) ≠ 0 := by
  intro h₀
  apply h
  apply UInt32.eq_of_toBitVec_eq
  have h' : d.toBitVec &&& (b.toBitVec ||| m.toBitVec) = 0#32 := congrArg UInt32.toBitVec h₀
  change d.toBitVec &&& b.toBitVec = 0#32
  ext i
  have hi := congrArg (fun x => x.getLsbD i) h'
  simp only [BitVec.getLsbD_and, BitVec.getLsbD_zero, BitVec.getLsbD_or,
    Bool.and_or_distrib_left, Bool.or_eq_false_iff] at hi ⊢
  exact hi.1

end

/-- On a device value without `AUDIO_DEVICE_BIT_IN`, `select_devices` picks
the microphone the value names. -/
theorem selectDevicesMixer_capture_of_noBitIn (outDevice : UInt32) {inDevice : UInt32}
    (h : inDevice &&& audioDeviceBitIn = 0) :
    (selectDevicesMixer outDevice inDevice).2 = micOfDevice inDevice := by
  simp only [selectDevicesMixer, micOfDevice, audioDeviceInBuiltinMic, audioDeviceInWiredHeadset,
    audioDeviceInBluetoothScoHeadset, and_or_of_and_eq_zero _ _ _ h]

/-- On a device value with `AUDIO_DEVICE_BIT_IN`, `select_devices` picks the
built-in mic, whatever microphone the value names. -/
theorem selectDevicesMixer_capture_of_bitIn (outDevice : UInt32) {inDevice : UInt32}
    (h : inDevice &&& audioDeviceBitIn ≠ 0) :
    (selectDevicesMixer outDevice inDevice).2 = "Main Mic" := by
  simp [selectDevicesMixer, audioDeviceInBuiltinMic, and_or_ne_zero _ _ _ h]

example : (selectDevicesMixer 0 audioDeviceInWiredHeadset).2 = "Main Mic" ∧
    micOfDevice audioDeviceInWiredHeadset = "Hands Free Mic" := by
  decide

/-! ### No reachable input device carries `AUDIO_DEVICE_BIT_IN` -/

section

variable {s s' : Sys} {t : ℕ}

namespace Sys

theorem outWriteStep_inDevice {r : Bool} {l : OutWritePc} (h : s.outWriteStep t r l = some s') :
    s'.dev.inDevice = s.dev.inDevice := by
  cases l with
  | lockOut | lockIn => obtain ⟨-, rfl⟩ := map_acquire_eq_some h; simp
  | lockDev | relockDev =>
    obtain ⟨-, rfl⟩ := map_acquire_eq_some h
    unfold outWriteLoop
    split <;> simp [outWriteLoop]
  | setInSleepReq => cases h; simp
  | startOut =>
    simp only [outWriteStep] at h
    split_ifs at h <;> cases h <;> simp
  | restartIn => cases h; split <;> simp
  | write => cases h

theorem inReadStep_inDevice {r : Bool} {l : InReadPc} (h : s.inReadStep t r l = some s') :
    s'.dev.inDevice = s.dev.inDevice := by
  cases l with
  | lockIn | lockOut | relockIn => obtain ⟨-, rfl⟩ := map_acquire_eq_some h; simp
  | lockDev | relockDev =>
    obtain ⟨-, rfl⟩ := map_acquire_eq_some h
    unfold inReadLoop
    split <;> simp [inReadLoop]
  | setOutSleepReq | read => cases h; simp
  | restartOut =>
    simp only [inReadStep] at h
    split_ifs at h <;> cases h <;> simp
  | startIn => cases h; split <;> simp

theorem yieldStep_inDevice {x : Stream} {body : Sys → Sys} {next : Pc} {k : YieldPc → Pc}
    {l : YieldPc} (hb : ∀ X : Sys, X.dev.inDevice &&& audioDeviceBitIn = 0 →
      (body X).dev.inDevice &&& audioDeviceBitIn = 0)
    (hi : s.dev.inDevice &&& audioDeviceBitIn = 0) (h : s.yieldStep x body next k t l = some s') :
    s'.dev.inDevice &&& audioDeviceBitIn = 0 := by
  cases l with
  | setSleepReq => cases h; simpa using hi
  | lockStream => obtain ⟨-, rfl⟩ := map_acquire_eq_some h; simpa using hi
  | lockDev => obtain ⟨-, rfl⟩ := map_acquire_eq_some h; exact hb _ hi

theorem outSetParametersBody_inDevice (routing : Option UInt32) (X : Sys) :
    (outSetParametersBody routing X).dev.inDevice = X.dev.inDevice := by
  unfold outSetParametersBody
  split
  · split_ifs <;> simp
  · rfl

/-- `in_set_parameters` stores a routing with `AUDIO_DEVICE_BIT_IN` cleared. -/
theorem inSetParametersBody_inDevice (source routing : Option UInt32) (X : Sys) :
    (inSetParametersBody source routing X).dev.inDevice = X.dev.inDevice ∨
      ∃ v, (inSetParametersBody source routing X).dev.inDevice = v &&& ~~~audioDeviceBitIn := by
  have hsrc : (inSetParametersSource source X).dev.inDevice = X.dev.inDevice := by
    unfold inSetParametersSource
    split
    · split_ifs <;> rfl
    · rfl
  unfold inSetParametersBody inSetParametersRouting
  split
  · dsimp only
    split_ifs
    · exact .inr ⟨_, rfl⟩
    · exact .inr ⟨_, rfl⟩
    · exact .inl hsrc
  · exact .inl hsrc

theorem adevSetMicMuteBody_inDevice (state : Bool) (X : Sys) :
    (adevSetMicMuteBody state X).dev.inDevice = X.dev.inDevice := by
  unfold adevSetMicMuteBody
  split_ifs <;> simp

/-- **Every step keeps `AUDIO_DEVICE_BIT_IN` out of `adev->in_device`.** -/
theorem step_inDevice_noBitIn {a : Act} (hi : s.dev.inDevice &&& audioDeviceBitIn = 0)
    (h : s.step t a = some s') : s'.dev.inDevice &&& audioDeviceBitIn = 0 := by
  have keep : ∀ {X Y : Sys}, Y.dev.inDevice = X.dev.inDevice →
      X.dev.inDevice &&& audioDeviceBitIn = 0 → Y.dev.inDevice &&& audioDeviceBitIn = 0 :=
    fun he hX => he ▸ hX
  cases a with
  | call op =>
    simp only [step] at h
    split at h <;> cases h
    exact hi
  | write bytes kf0 qs fuel status =>
    simp only [step] at h
    split at h
    · obtain ⟨p, -, rfl⟩ := Option.map_eq_some'.mp h
      exact hi
    · cases h
  | run r =>
    simp only [step] at h
    generalize s.th t = pc at h
    cases pc with
    | idle => cases h
    | outWrite l => exact keep (outWriteStep_inDevice h) hi
    | inRead l => exact keep (inReadStep_inDevice h) hi
    | outStandby l => exact yieldStep_inDevice (fun X => keep (by simp)) hi h
    | inStandby l => exact yieldStep_inDevice (fun X => keep (by simp)) hi h
    | outSetParameters routing l =>
      exact yieldStep_inDevice (fun X => keep (outSetParametersBody_inDevice routing X)) hi h
    | inSetParameters source routing l =>
      refine yieldStep_inDevice (fun X hX => ?_) hi h
      rcases inSetParametersBody_inDevice source routing X with he | ⟨v, he⟩
      · exact keep he hX
      · rw [he]; exact and_not_and_self v audioDeviceBitIn
    | adevSetMicMute state l =>
      rcases l with _ | l
      · cases h; split <;> exact hi
      · simp only [runStep] at h
        exact yieldStep_inDevice (fun X => keep (adevSetMicMuteBody_inDevice state X)) hi h
    | adevCloseInputStream l =>
      rcases l with _ | l
      · obtain ⟨-, rfl⟩ := map_acquire_eq_some h; simpa using hi
      · simp only [runStep] at h
        exact yieldStep_inDevice (fun X => keep (by simp)) hi h
    | adevSetMode | adevSetParameters =>
      first | (obtain ⟨-, rfl⟩ := map_acquire_eq_some h) | cases h
      simpa using hi
    | outGetPresentationPosition requested =>
      cases requested
      · cases h; simpa using hi
      · obtain ⟨-, rfl⟩ := map_acquire_eq_some h; simpa using hi

end Sys

end

/-- No state of any run has `AUDIO_DEVICE_BIT_IN` in `adev->in_device`. -/
theorem ReachVia.inDevice_noBitIn {P : Sys → Prop} {s : Sys} (hs : ReachVia P s) :
    s.dev.inDevice &&& audioDeviceBitIn = 0 := by
  induction hs with
  | init => rfl
  | step t a _ hst _ ih => exact Sys.step_inDevice_noBitIn ih hst

end AudioHw
