/-
# A stream out of standby plays on the routed devices

`select_devices` is the only place the mixer learns the devices; the
`set_parameters` calls store a new device and, outside a call, put the stream
in standby, and each of the four exits from standby (`out_write`, its restart
of the input, `in_read`, its restart of the output) sends the devices to the
mixer before the stream plays. So in every run that never enters
`AUDIO_MODE_IN_CALL`, a stream out of standby plays on the devices the mixer
was last given for its direction (`RoutingOk`).

Key definitions: `RoutingOk`.
Key theorems: `routing_reachesMixer`.
-/
import AudioHw.Calls

namespace AudioHw

/-- Each stream out of standby is routed: the last `select_devices` was made
with the current device of its direction. -/
def RoutingOk (s : Sys) : Prop :=
  (s.output.standby = false → ∃ inDevice, s.routed = some (s.dev.outDevice, inDevice)) ∧
    (s.input.standby = false → ∃ outDevice, s.routed = some (outDevice, s.dev.inDevice))

section

variable {s s' : Sys} {t : ℕ} {a : Act}

/-! ### The routines -/

@[simp] theorem routingOk_release (m : Mutex) : RoutingOk (s.release m) ↔ RoutingOk s := Iff.rfl
@[simp] theorem routingOk_goto (pc : Pc) : RoutingOk (s.goto t pc) ↔ RoutingOk s := Iff.rfl
@[simp] theorem routingOk_owner (o : Mutex → Option ℕ) :
    RoutingOk { s with owner := o } ↔ RoutingOk s := Iff.rfl
@[simp] theorem routingOk_setSleepReq (x : Stream) (b : Bool) :
    RoutingOk (s.setSleepReq x b) ↔ RoutingOk s := by
  cases x <;> rfl
@[simp] theorem routingOk_startOutputStream (r : Bool) :
    RoutingOk (s.startOutputStream r).1 ↔ RoutingOk s := by
  cases r <;> rfl

/-- Right after `select_devices` both streams are routed. -/
theorem RoutingOk.of_routed (h : s.routed = some (s.dev.outDevice, s.dev.inDevice)) :
    RoutingOk s :=
  ⟨fun _ => ⟨_, h⟩, fun _ => ⟨_, h⟩⟩

@[simp] theorem routingOk_selectDevices : RoutingOk s.selectDevices := .of_routed rfl

@[simp] theorem routingOk_outWriteExitStandby (inP inLocked : Bool) :
    RoutingOk (s.outWriteExitStandby t inP inLocked) :=
  .of_routed (by simp)

theorem RoutingOk.doOutStandby (hr : RoutingOk s) : RoutingOk s.doOutStandby :=
  ⟨fun h => by simp at h, fun h => by simpa using hr.2 (by simpa using h)⟩

theorem RoutingOk.doInStandby (hr : RoutingOk s) : RoutingOk s.doInStandby :=
  ⟨fun h => by simpa using hr.1 (by simpa using h), fun h => by simp at h⟩

/-! ### The bodies of the calls of the common shape -/

theorem RoutingOk.outSetParametersBody (routing : Option UInt32) (hr : RoutingOk s)
    (hm : s.dev.mode ≠ audioModeInCall) : RoutingOk (Sys.outSetParametersBody routing s) := by
  unfold Sys.outSetParametersBody
  split
  · split_ifs with h₁ h₂
    · exact ⟨fun h => by simp at h, fun h => by simpa using hr.2 (by simpa using h)⟩
    · simp only [hm, ne_eq, not_false_eq_true, Bool.not_eq_true', true_and] at h₂
      exact ⟨fun h => by simp_all, hr.2⟩
    · exact hr
  · exact hr

theorem RoutingOk.inSetParametersBody (source routing : Option UInt32) (hr : RoutingOk s)
    (hm : s.dev.mode ≠ audioModeInCall) :
    RoutingOk (Sys.inSetParametersBody source routing s) := by
  have h₁ : RoutingOk (Sys.inSetParametersSource source s) ∧
      (Sys.inSetParametersSource source s).dev.mode = s.dev.mode := by
    unfold Sys.inSetParametersSource; split <;> (try split_ifs) <;> exact ⟨hr, rfl⟩
  unfold Sys.inSetParametersBody
  generalize Sys.inSetParametersSource source s = Y at h₁
  obtain ⟨hr, hmY⟩ := h₁
  rw [← hmY] at hm
  unfold Sys.inSetParametersRouting
  split
  · dsimp only
    split_ifs with h₁ h₂
    · exact ⟨fun h => by simpa using hr.1 (by simpa using h), fun h => by simp at h⟩
    · simp only [hm, ne_eq, not_false_eq_true, Bool.not_eq_true', true_and] at h₂
      exact ⟨hr.1, fun h => by simp_all⟩
    · exact hr
  · exact hr

theorem RoutingOk.adevSetMicMuteBody (state : Bool) (hr : RoutingOk s)
    (hm : s.dev.mode ≠ audioModeInCall) : RoutingOk (Sys.adevSetMicMuteBody state s) := by
  unfold Sys.adevSetMicMuteBody
  rw [if_pos hm]
  exact hr.doInStandby

/-! ### Every step -/

namespace Sys

theorem outWriteStep_routingOk {r : Bool} {l : OutWritePc} (hr : RoutingOk s)
    (h : s.outWriteStep t r l = some s') : RoutingOk s' := by
  cases l with
  | lockOut | lockIn =>
    obtain ⟨-, rfl⟩ := map_acquire_eq_some h
    exact hr
  | lockDev | relockDev =>
    obtain ⟨-, rfl⟩ := map_acquire_eq_some h
    unfold outWriteLoop
    dsimp only
    split_ifs <;> simp [hr, RoutingOk.doInStandby]
  | setInSleepReq => cases h; simpa using hr
  | startOut inP inLocked restartInput =>
    simp only [outWriteStep] at h
    split_ifs at h <;> cases h <;> simp [hr]
  | restartIn inLocked => cases h; simp
  | write => cases h

theorem inReadStep_routingOk {r : Bool} {l : InReadPc} (hr : RoutingOk s)
    (h : s.inReadStep t r l = some s') : RoutingOk s' := by
  cases l with
  | lockIn | lockOut | relockIn =>
    obtain ⟨-, rfl⟩ := map_acquire_eq_some h
    exact hr
  | lockDev | relockDev =>
    obtain ⟨-, rfl⟩ := map_acquire_eq_some h
    unfold inReadLoop
    dsimp only
    split_ifs <;> simpa using hr
  | setOutSleepReq => cases h; simpa using hr
  | restartOut outP outLocked =>
    simp only [inReadStep] at h
    by_cases hc : (outP && !s.output.standby) = true
    · rw [if_pos hc] at h
      cases h
      simp only [Bool.and_eq_true, Bool.not_eq_true'] at hc
      have hr' : RoutingOk { (s.doOutStandby.startOutputStream r).1 with
          output := { (s.doOutStandby.startOutputStream r).1.output with standby := false } } :=
        ⟨fun _ => by simpa using hr.1 hc.2, fun h => by simpa using hr.2 (by simpa using h)⟩
      split_ifs <;> simpa using hr'
    · rw [if_neg hc] at h
      cases h
      exact hr
  | startIn => cases h; simp
  | read => cases h; exact hr

theorem yieldStep_routingOk {x : Stream} {body : Sys → Sys} {next : Pc} {k : YieldPc → Pc}
    {l : YieldPc} (hr : RoutingOk s) (hm : s.dev.mode ≠ audioModeInCall)
    (h : s.yieldStep x body next k t l = some s')
    (hb : ∀ X : Sys, RoutingOk X → X.dev.mode ≠ audioModeInCall → RoutingOk (body X)) :
    RoutingOk s' := by
  cases l with
  | setSleepReq => cases h; simpa using hr
  | lockStream =>
    obtain ⟨-, rfl⟩ := map_acquire_eq_some h
    simpa using hr
  | lockDev =>
    obtain ⟨-, rfl⟩ := map_acquire_eq_some h
    simp only [routingOk_goto, routingOk_release]
    exact hb _ hr hm

/-- **Every step outside a call keeps the streams routed.** -/
theorem step_routingOk (hr : RoutingOk s) (hm : s.dev.mode ≠ audioModeInCall)
    (h : s.step t a = some s') : RoutingOk s' := by
  cases a with
  | call op =>
    simp only [step] at h
    split at h <;> cases h
    exact hr
  | run r =>
    simp only [step] at h
    generalize s.th t = pc at h
    cases pc with
    | idle => cases h
    | outWrite l => exact outWriteStep_routingOk hr h
    | inRead l => exact inReadStep_routingOk hr h
    | outStandby l => exact yieldStep_routingOk hr hm h fun _ h _ => h.doOutStandby
    | inStandby l => exact yieldStep_routingOk hr hm h fun _ h _ => h.doInStandby
    | outSetParameters routing l =>
      exact yieldStep_routingOk hr hm h fun _ h hm => h.outSetParametersBody routing hm
    | inSetParameters source routing l =>
      exact yieldStep_routingOk hr hm h fun _ h hm => h.inSetParametersBody source routing hm
    | adevSetMicMute state l =>
      rcases l with _ | l
      · cases h
        split <;> exact hr
      · simp only [runStep] at h
        exact yieldStep_routingOk hr hm h fun _ h hm => h.adevSetMicMuteBody state hm
    | adevSetMode mode =>
      obtain ⟨-, rfl⟩ := map_acquire_eq_some h
      exact hr
    | adevCloseInputStream l =>
      rcases l with _ | l
      · obtain ⟨-, rfl⟩ := map_acquire_eq_some h
        exact hr
      · simp only [runStep] at h
        exact yieldStep_routingOk hr hm h fun _ h _ => h.doInStandby
    | outGetPresentationPosition requested =>
      cases requested
      · cases h; simpa using hr
      · obtain ⟨-, rfl⟩ := map_acquire_eq_some h
        simpa using hr
    | adevSetParameters v => cases h; exact hr
  | write bytes kf0 qs fuel status =>
    simp only [step] at h
    split at h
    · obtain ⟨p, -, rfl⟩ := Option.map_eq_some'.mp h
      exact hr
    · cases h

end Sys

end

theorem ReachVia.routingOk {s : Sys} (hs : ReachVia (fun s => s.dev.mode ≠ audioModeInCall) s) :
    RoutingOk s := by
  induction hs with
  | init => exact ⟨fun h => (by cases h), fun h => (by cases h)⟩
  | step t a hr hst _ ih => exact Sys.step_routingOk ih hr.prop hst

/-- **Routing reaches the mixer.** In every state of a run that never enters
`AUDIO_MODE_IN_CALL`, the last `select_devices` was made with the current
`adev->out_device` if the output is out of standby, and with the current
`adev->in_device` if the input is. -/
theorem routing_reachesMixer {s : Sys} (hs : ReachVia (fun s => s.dev.mode ≠ audioModeInCall) s) :
    (s.output.standby = false → ∃ inDevice, s.routed = some (s.dev.outDevice, inDevice)) ∧
      (s.input.standby = false → ∃ outDevice, s.routed = some (outDevice, s.dev.inDevice)) :=
  ReachVia.routingOk hs

/-- Thread 0 routes the output to the speaker and starts it; thread 1's
`in_read` restarts the output and starts the input. Both streams play, on the
devices the mixer was last given. -/
theorem routing_reachesMixer_bothPlaying :
    ∃ s, ReachVia (fun s => s.dev.mode ≠ audioModeInCall) s ∧ s.dev.outDevice = 2 ∧
      s.output.standby = false ∧ s.input.standby = false ∧
      (∃ inDevice, s.routed = some (s.dev.outDevice, inDevice)) ∧
      ∃ outDevice, s.routed = some (outDevice, s.dev.inDevice) := by
  obtain ⟨s, hs, hd, ho, hi⟩ := ReachVia.exists_of_run (P := fun s => s.dev.mode ≠ audioModeInCall)
    ((0, .call (.outSetParameters (some 2))) :: List.replicate 3 (0, .run true) ++
      (0, .call .outWrite) :: List.replicate 3 (0, .run true) ++
      (0, .write 0 0 (fun _ => .fail) 1 0) :: (1, .call .inRead) :: List.replicate 9 (1, .run true))
    (fun s => s.dev.outDevice = 2 ∧ s.output.standby = false ∧ s.input.standby = false)
    (by decide) (by decide)
  exact ⟨s, hs, hd, ho, hi, (routing_reachesMixer hs).1 ho, (routing_reachesMixer hs).2 hi⟩

end AudioHw
