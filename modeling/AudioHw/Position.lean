/-
# The output's frame count, and the presentation position it gives

`out_write` counts the frames of every successful `pcm_write` in the
`uint64_t` `out->written`, which nothing else writes, and keeps the pacing
fields of the stream valid. So in every reachable state the output's pacing
fields are what `Pacing.lean` assumes of them, and `written` moves only at a
successful `pcm_write` (`outputPace_ok`).

`out_get_presentation_position` reports the frames presented: those written
less those still in the kernel's buffer, which it counts as the buffer's size
`period_size * period_count` less the frames `avail` that `pcm_get_htimestamp`
reports free. It computes in `uint64_t`, stores the result in an `int64_t`,
and fails on a negative one. In every reachable state with the output out of
standby and its PCM open, and `avail` at most the buffer's size, it reports
exactly `written + avail - 4096` when that is neither negative nor beyond an
`int64_t`, and fails otherwise; what it reports never exceeds the frames
written (`presentationPosition_reach`).

Not covered: the timestamp, which is the kernel's.

Key definitions: `PaceOk`, `outGetPresentationPosition`.
Key theorems: `outputPace_ok`, `presentationPosition_reach`.
-/
import AudioHw.Calls

namespace AudioHw

/-- `ENOSYS`. -/
def enosys : ℤ := 38

/-- `out_get_presentation_position` once it holds the output's mutex, given
what `pcm_get_htimestamp` answers (`none` if it fails, or the frames `avail`
free in the kernel's buffer): the return value, and what it stores in
`*frames`. `none` when it asks `pcm_get_htimestamp` about a PCM that
`start_output_stream` has closed. -/
def outGetPresentationPosition (o : OutState) (htimestamp : Option ℕ) : Option (ℤ × Option ℕ) :=
  if o.standby then some (-enosys, none)
  else
    match o.pcm with
    | .null => some (-enosys, none)
    | .closed => none
    | .opened _ =>
      match htimestamp with
      | none => some (-1, none)
      | some avail =>
        let kernelBufferSize := pcmConfigOut.periodSize * pcmConfigOut.periodCount
        let signedFrames :=
          toI64 ((((o.pace.written : ℤ) - kernelBufferSize) % 2 ^ 64 + avail) % 2 ^ 64)
        if 0 ≤ signedFrames then some (0, some signedFrames.toNat) else some (-1, none)

/-! ### The pacing fields in every run -/

/-- What every run keeps of the output's pacing fields: the stream valid, and
`written` a `uint64_t`. -/
structure PaceOk (p : Pace) : Prop where
  valid : p.Valid
  written_lt : p.written < 2 ^ 64

theorem PaceOk.unknown {p : Pace} (h : PaceOk p) : PaceOk { p with bufferType := .unknown } :=
  ⟨⟨fun h' => absurd rfl h', h.valid.cur_ge, h.valid.cur_lt⟩, h.written_lt⟩

/-- A write keeps the pacing fields right. -/
theorem PaceOk.outWritePace {p p' : Pace} {st : Pacer} {screenOff activeIn : Bool}
    {bytes fuel : ℕ} {kf0 status : ℤ} {qs : ℕ → Query} (hp : PaceOk p)
    (h : outWritePace p screenOff activeIn bytes kf0 qs fuel status = some (p', st)) :
    PaceOk p' := by
  refine ⟨outWritePace_valid hp.valid h, ?_⟩
  rw [outWritePace_written h]
  split
  · exact Nat.mod_lt _ (by decide)
  · exact hp.written_lt

section

variable {s s' : Sys} {t : ℕ}

theorem outSetParametersBody_pace (routing : Option UInt32) (X : Sys) :
    (Sys.outSetParametersBody routing X).output.pace = X.output.pace := by
  unfold Sys.outSetParametersBody
  split
  · split_ifs <;> simp
  · rfl

theorem inSetParametersBody_pace (source routing : Option UInt32) (X : Sys) :
    (Sys.inSetParametersBody source routing X).output.pace = X.output.pace := by
  have h₁ : (Sys.inSetParametersSource source X).output = X.output := by
    unfold Sys.inSetParametersSource
    split <;> (try split_ifs) <;> rfl
  unfold Sys.inSetParametersBody Sys.inSetParametersRouting
  split
  · dsimp only
    split_ifs <;> simp [h₁]
  · rw [h₁]

theorem adevSetMicMuteBody_pace (state : Bool) (X : Sys) :
    (Sys.adevSetMicMuteBody state X).output.pace = X.output.pace := by
  unfold Sys.adevSetMicMuteBody
  split_ifs <;> simp

/-- A step that leaves the pacing fields alone, or resets the regime as
`start_output_stream` does, keeps them right. -/
theorem PaceOk.of_eq (hp : PaceOk s.output.pace)
    (h : s'.output.pace = s.output.pace ∨
      s'.output.pace = { s.output.pace with bufferType := .unknown }) :
    PaceOk s'.output.pace := by
  rcases h with h | h <;> rw [h]
  exacts [hp, hp.unknown]

theorem Sys.outWriteStep_pace {r : Bool} {l : OutWritePc} (h : s.outWriteStep t r l = some s') :
    s'.output.pace = s.output.pace ∨
      s'.output.pace = { s.output.pace with bufferType := .unknown } := by
  cases l with
  | lockOut | lockIn => obtain ⟨-, rfl⟩ := Sys.map_acquire_eq_some h; left; simp
  | lockDev | relockDev =>
    obtain ⟨-, rfl⟩ := Sys.map_acquire_eq_some h
    left
    unfold Sys.outWriteLoop
    split <;> simp [Sys.outWriteLoop]
  | setInSleepReq => cases h; simp
  | startOut =>
    simp only [Sys.outWriteStep] at h
    right
    split_ifs at h <;> cases h <;> simp
  | restartIn => cases h; left; split <;> simp
  | write => cases h

theorem Sys.inReadStep_pace {r : Bool} {l : InReadPc} (h : s.inReadStep t r l = some s') :
    s'.output.pace = s.output.pace ∨
      s'.output.pace = { s.output.pace with bufferType := .unknown } := by
  cases l with
  | lockIn | lockOut | relockIn => obtain ⟨-, rfl⟩ := Sys.map_acquire_eq_some h; left; simp
  | lockDev | relockDev =>
    obtain ⟨-, rfl⟩ := Sys.map_acquire_eq_some h
    left
    unfold Sys.inReadLoop
    split <;> simp [Sys.inReadLoop]
  | setOutSleepReq | read => cases h; simp
  | restartOut =>
    simp only [Sys.inReadStep] at h
    split_ifs at h <;> cases h
    · right; simp
    · right; simp
    · left; simp
  | startIn => cases h; left; split <;> simp

theorem Sys.yieldStep_pace {x : Stream} {body : Sys → Sys} {next : Pc} {k : YieldPc → Pc}
    {l : YieldPc} (hb : ∀ X, (body X).output.pace = X.output.pace)
    (h : s.yieldStep x body next k t l = some s') : s'.output.pace = s.output.pace := by
  cases l with
  | setSleepReq => cases h; simp
  | lockStream => obtain ⟨-, rfl⟩ := Sys.map_acquire_eq_some h; simp
  | lockDev => obtain ⟨-, rfl⟩ := Sys.map_acquire_eq_some h; simp [hb]

/-- A step of a call other than `out_write`'s `pcm_write` leaves the pacing
fields alone, or resets the regime as `start_output_stream` does. -/
theorem Sys.runStep_pace {r : Bool} (h : s.step t (.run r) = some s') :
    s'.output.pace = s.output.pace ∨
      s'.output.pace = { s.output.pace with bufferType := .unknown } := by
  simp only [Sys.step] at h
  generalize s.th t = pc at h
  cases pc with
  | idle => cases h
  | outWrite l => exact Sys.outWriteStep_pace h
  | inRead l => exact Sys.inReadStep_pace h
  | outStandby l => exact .inl (Sys.yieldStep_pace (fun X => X.doOutStandby_pace) h)
  | inStandby l => exact .inl (Sys.yieldStep_pace (fun X => by simp) h)
  | outSetParameters routing l =>
    exact .inl (Sys.yieldStep_pace (outSetParametersBody_pace routing) h)
  | inSetParameters source routing l =>
    exact .inl (Sys.yieldStep_pace (inSetParametersBody_pace source routing) h)
  | adevSetMicMute state l =>
    rcases l with _ | l
    · cases h; left; split <;> simp
    · simp only [Sys.runStep] at h
      exact .inl (Sys.yieldStep_pace (adevSetMicMuteBody_pace state) h)
  | adevCloseInputStream l =>
    rcases l with _ | l
    · obtain ⟨-, rfl⟩ := Sys.map_acquire_eq_some h; simp
    · simp only [Sys.runStep] at h
      exact .inl (Sys.yieldStep_pace (fun X => by simp) h)
  | adevSetMode | adevSetParameters =>
    first | (obtain ⟨-, rfl⟩ := Sys.map_acquire_eq_some h) | cases h
    simp
  | outGetPresentationPosition requested =>
    cases requested
    · cases h; simp
    · obtain ⟨-, rfl⟩ := Sys.map_acquire_eq_some h; simp

/-- **Every step keeps the pacing fields right.** -/
theorem Sys.step_paceOk {a : Act} (hp : PaceOk s.output.pace) (h : s.step t a = some s') :
    PaceOk s'.output.pace := by
  cases a with
  | call op =>
    simp only [Sys.step] at h
    split at h <;> cases h
    exact hp
  | write bytes kf0 qs fuel status =>
    simp only [Sys.step] at h
    split at h
    · obtain ⟨⟨p', st⟩, hr, rfl⟩ := Option.map_eq_some'.mp h
      exact hp.outWritePace hr
    · cases h
  | run r => exact hp.of_eq (Sys.runStep_pace h)

/-- **Only a successful `pcm_write` counts frames.** A step changes `written`
only as `out_write`'s `pcm_write` returning `0`, by the frames of its bytes. -/
theorem Sys.step_written {a : Act} (h : s.step t a = some s') :
    s'.output.pace.written = s.output.pace.written ∨
      ∃ bytes kf0 qs fuel, s.th t = .outWrite .write ∧ a = .write bytes kf0 qs fuel 0 ∧
        s'.output.pace.written = (s.output.pace.written + bytes / 4) % 2 ^ 64 := by
  cases a with
  | call op =>
    simp only [Sys.step] at h
    split at h <;> cases h
    exact .inl rfl
  | write bytes kf0 qs fuel status =>
    simp only [Sys.step] at h
    split at h
    · obtain ⟨⟨p', st⟩, hr, rfl⟩ := Option.map_eq_some'.mp h
      simp only [Sys.goto_output, Sys.release_output, outWritePace_written hr]
      by_cases hs : status = 0
      · subst hs
        exact .inr ⟨bytes, kf0, qs, fuel, ‹_›, rfl, if_pos rfl⟩
      · exact .inl (if_neg hs)
    · cases h
  | run r => rcases Sys.runStep_pace h with h | h <;> rw [h] <;> exact .inl rfl

theorem ReachVia.paceOk {P : Sys → Prop} (h : ReachVia P s) : PaceOk s.output.pace := by
  induction h with
  | init => exact ⟨⟨fun h => absurd rfl h, by decide, by decide⟩, by decide⟩
  | step t a _ hst _ ih => exact Sys.step_paceOk ih hst

end

/-- The position, once the `uint64_t` sum is stored in an `int64_t`: exactly
`written + avail - 4096` when that is neither negative nor beyond an `int64_t`,
for a count of `written` frames and at most 4096 frames free. -/
theorem outGetPresentationPosition_opened (o : OutState) (n avail : ℕ)
    (hs : o.standby = false) (hp : o.pcm = .opened n) (hw : o.pace.written < 2 ^ 64)
    (ha : avail ≤ 4096) :
    outGetPresentationPosition o (some avail) = some
      (if 4096 ≤ o.pace.written + avail ∧ o.pace.written + avail < 2 ^ 63 + 4096 then
        (0, some (o.pace.written + avail - 4096))
      else (-1, none)) := by
  have hk : ((pcmConfigOut.periodSize * pcmConfigOut.periodCount : ℕ) : ℤ) = 4096 := rfl
  simp only [outGetPresentationPosition, hs, hp, hk, toI64, Bool.false_eq_true, if_false]
  rw [Int.emod_add_emod, Int.add_assoc, Int.emod_add_emod, ← Int.add_assoc]
  generalize o.pace.written = w at hw ⊢
  by_cases h1 : 4096 ≤ w + avail ∧ w + avail < 2 ^ 63 + 4096
  · rw [Int.emod_eq_of_lt (by omega) (by omega), if_pos (by omega), if_pos h1]
    simp only [Option.some.injEq, Prod.mk.injEq, true_and]
    omega
  · rw [if_neg h1]
    by_cases h2 : 4096 ≤ w + avail
    · rw [show (w : ℤ) - 4096 + avail + 2 ^ 63 = (w - 4096 + avail + 2 ^ 63 - 2 ^ 64) + 1 * 2 ^ 64
          by omega, Int.add_mul_emod_self, Int.emod_eq_of_lt (by omega) (by omega), if_neg (by omega)]
    · rw [Int.emod_eq_of_lt (by omega) (by omega), if_neg (by omega)]

/-- **The presentation position in every run.** In every reachable state with
the output out of standby and its PCM open, when `pcm_get_htimestamp` reports
at most the kernel buffer's 4096 frames free, `out_get_presentation_position`
returns `0` with `written + avail - 4096` frames exactly when at least
`4096 - avail` frames were written and fewer than `2 ^ 63 + 4096 - avail`,
and `-1` otherwise; it never reports more frames than were written. -/
theorem presentationPosition_reach {s : Sys} (hs : Reach s) (n avail : ℕ)
    (hsb : s.output.standby = false) (hp : s.output.pcm = .opened n) (ha : avail ≤ 4096) :
    outGetPresentationPosition s.output (some avail) = some
      (if 4096 ≤ s.output.pace.written + avail ∧ s.output.pace.written + avail < 2 ^ 63 + 4096 then
        (0, some (s.output.pace.written + avail - 4096))
      else (-1, none)) ∧
    ∀ r frames, outGetPresentationPosition s.output (some avail) = some (r, some frames) →
      frames ≤ s.output.pace.written := by
  have h := outGetPresentationPosition_opened s.output n avail hsb hp (ReachVia.paceOk hs).written_lt ha
  refine ⟨h, fun r frames hr => ?_⟩
  rw [h] at hr
  by_cases hc : 4096 ≤ s.output.pace.written + avail ∧
      s.output.pace.written + avail < 2 ^ 63 + 4096
  · rw [if_pos hc] at hr
    simp only [Option.some.injEq, Prod.mk.injEq] at hr
    omega
  · rw [if_neg hc] at hr
    simp at hr

/-- Once `out_write` has left standby, with nothing written yet and the
kernel buffer empty, the position is `0`. -/
theorem presentationPosition_reach_started :
    ∃ s, Reach s ∧ s.output.standby = false ∧ s.output.pcm = .opened 0 ∧ 4096 ≤ 4096 ∧
      outGetPresentationPosition s.output (some 4096) = some (0, some 0) := by
  obtain ⟨s, hs, hsb, hp, hw⟩ := Reach.exists_of_run
    [(0, .call .outWrite), (0, .run true), (0, .run true), (0, .run true)]
    (fun s => s.output.standby = false ∧ s.output.pcm = .opened 0 ∧ s.output.pace.written = 0)
    (by decide)
  refine ⟨s, hs, hsb, hp, le_rfl, ?_⟩
  rw [(presentationPosition_reach hs 0 4096 hsb hp le_rfl).1, hw]
  rfl

end AudioHw
