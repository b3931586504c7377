/-
# The output stream's registration

What holds of the output stream in every reachable state (`OutInv`): its PCM
is open exactly while it is registered as `adev->active_out`; a registered
output is out of standby, except while `out_write`, holding the device mutex,
restarts the input between its `start_output_stream` and the end of its exit
from standby; an `out_write` call on its way out of standby sees the stream in
standby; and an `in_read` call that locked the output for its restart finds it
out of standby. The last fact shows that `in_read`'s skipped restart with
`out_locked` set (`SkipStep`) never happens.

What does not hold is that a stream out of standby is registered and open:
`in_read` marks the output out of standby even when its restart fails
(`inRead_restartFailed_outputNotStandby`), and the next `out_write` then skips
the standby exit and reaches `pcm_write` on the closed PCM. Nor does the
invariant say that an `in_read` clears the `sleep_req` it set on the output:
one that finds the output gone after its relock leaves it set
(`inRead_leavesOutputSleepReq`).

Key definitions: `OutWritePc.exiting`, `Pc.OutOk`, `OutInv`, `outputStarted`,
`restartFails`.
Key theorems: `ReachVia.outInv`, `OutInv.not_skipStep`, `outputStream_registered`,
`Reach.exists_idle_of_run`.
-/
import AudioHw.LockOrder

namespace AudioHw

/-- The program counters of `out_write` on its way out of standby, holding the
output's mutex: from `adev_lock` to the end of the input's restart. -/
def OutWritePc.exiting : OutWritePc → Bool
  | .lockOut | .write => false
  | _ => true

/-- What a thread at `pc` knows of the output's `standby`. -/
def Pc.OutOk : Pc → Bool → Prop
  | .outWrite l, standby => l.exiting = true → standby = true
  | .inRead (.restartOut outP true), standby => outP = true ∧ standby = false
  | .inRead (.restartOut outP false), standby => ¬(outP = true ∧ standby = false)
  | _, _ => True

/-- The part of the state the invariant reads: the output's PCM, its `standby`,
and its registration as `adev->active_out`. -/
def Sys.outView (s : Sys) : Handle × Bool × Bool := (s.output.pcm, s.output.standby, s.dev.activeOut)

@[simp] theorem Sys.outView_release (s : Sys) (m : Mutex) : (s.release m).outView = s.outView := rfl
@[simp] theorem Sys.outView_goto (s : Sys) (t : ℕ) (pc : Pc) : (s.goto t pc).outView = s.outView :=
  rfl
@[simp] theorem Sys.outView_setSleepReq (s : Sys) (x : Stream) (b : Bool) :
    (s.setSleepReq x b).outView = s.outView := by cases x <;> rfl
@[simp] theorem Sys.outView_doInStandby (s : Sys) : s.doInStandby.outView = s.outView := by
  simp [Sys.outView]
theorem Sys.outView_doOutStandby (s : Sys) :
    s.doOutStandby.outView = if s.output.standby then s.outView else (.null, true, false) := by
  unfold Sys.doOutStandby; split <;> simp_all [Sys.outView]

/-- The output stream's registration invariant. -/
structure OutInv (s : Sys) : Prop where
  open_iff : s.output.pcm.isOpen = s.dev.activeOut
  active : s.dev.activeOut = true →
    s.output.standby = false ∨ ∃ u l, s.th u = .outWrite (.restartIn l)
  threads : ∀ u, (s.th u).OutOk s.output.standby

section

variable {s s' : Sys} {t : ℕ} {a : Act}

theorem Sys.step_frame (h : s.step t a = some s') : ∀ u, u ≠ t → s'.th u = s.th u := by
  rcases Sys.step_lock h with hl | hl | hl
  exacts [hl.frame, hl.frame, hl.frame]

/-- Threads that take no step of a run stay where they were. -/
theorem Sys.runSteps_th {u : ℕ} :
    ∀ {s s' : Sys} {l : List (ℕ × Act)}, s.runSteps l = some s' → (∀ p ∈ l, p.1 ≠ u) →
      s'.th u = s.th u
  | _, _, [], h, _ => by cases h; rfl
  | _, _, (t, a) :: l, h, hu => by
    obtain ⟨s₁, h₁, h⟩ := Option.bind_eq_some.mp h
    rw [runSteps_th h fun p hp => hu p (.tail _ hp),
      Sys.step_frame h₁ u (hu _ (.head _)).symm]

/-- A run whose steps are all by threads of `ts`, through states that pass a
test `Q`, leaves the other threads idle; it runs through states of `P` when
`Q` gives `P` on the states whose other threads are idle. -/
theorem ReachVia.foldlM_on {P Q : Sys → Prop} [DecidablePred Q] (ts : List ℕ)
    (hQ : ∀ s, (∀ u ∉ ts, s.th u = .idle) → Q s → P s) :
    ∀ {s s' : Sys} (l : List (ℕ × Act)), ReachVia P s → (∀ u ∉ ts, s.th u = .idle) →
      (∀ q ∈ l, q.1 ∈ ts) →
      l.foldlM (fun (x : Sys) q => (x.step q.1 q.2).filter fun y => decide (Q y)) s = some s' →
      ReachVia P s' ∧ ∀ u ∉ ts, s'.th u = .idle
  | _, _, [], hs, hi, _, h => by cases h; exact ⟨hs, hi⟩
  | _, _, (t, a) :: l, hs, hi, hl, h => by
    obtain ⟨s₁, h₁, h⟩ := Option.bind_eq_some.mp h
    obtain ⟨h₁, hq⟩ := Option.filter_eq_some.mp h₁
    have hi₁ : ∀ u ∉ ts, s₁.th u = .idle := fun u hu => by
      rw [Sys.step_frame h₁ u fun e => hu (e ▸ hl _ (.head _)), hi u hu]
    exact ReachVia.foldlM_on ts hQ l (.step t a hs h₁ (hQ s₁ hi₁ (of_decide_eq_true hq))) hi₁
      (fun q hq => hl q (.tail _ hq)) h

/-- A state with a property `p`, at the end of a run from `initSys` by the
threads of `ts` through states that pass `Q`, and so through states of `P`. -/
theorem ReachVia.exists_of_run_on {P Q : Sys → Prop} [DecidablePred Q] (ts : List ℕ)
    (hQ : ∀ s, (∀ u ∉ ts, s.th u = .idle) → Q s → P s) (l : List (ℕ × Act))
    (p : Sys → Prop) [DecidablePred p] (h₀ : P initSys) (hl : ∀ q ∈ l, q.1 ∈ ts)
    (h : (l.foldlM (fun (x : Sys) q => (x.step q.1 q.2).filter fun y => decide (Q y)) initSys).any
      (fun s => decide (p s)) = true) : ∃ s, ReachVia P s ∧ p s := by
  cases hs : l.foldlM (fun (x : Sys) q => (x.step q.1 q.2).filter fun y => decide (Q y)) initSys with
  | none => rw [hs] at h; cases h
  | some s =>
    rw [hs] at h
    exact ⟨s, (ReachVia.foldlM_on ts hQ l (.init h₀) (fun _ _ => rfl) hl hs).1, of_decide_eq_true h⟩

/-- A state with a property `p` in which no call is in progress, at the end of
a run from `initSys`. -/
theorem Reach.exists_idle_of_run (l : List (ℕ × Act)) (p : Sys → Prop) [DecidablePred p]
    (h : (initSys.runSteps l).any
      (fun s => decide (p s) && l.all fun q => decide (s.th q.1 = .idle)) = true) :
    ∃ s, Reach s ∧ (∀ u, s.th u = .idle) ∧ p s := by
  cases hs : initSys.runSteps l with
  | none => rw [hs] at h; cases h
  | some s =>
    rw [hs] at h
    simp only [Option.any_some, Bool.and_eq_true, decide_eq_true_eq, List.all_eq_true] at h
    refine ⟨s, Reach.runSteps l (.init trivial) hs, fun u => ?_, h.1⟩
    by_cases hu : ∃ q ∈ l, q.1 = u
    · obtain ⟨q, hq, rfl⟩ := hu
      exact h.2 q hq
    · push_neg at hu
      exact Sys.runSteps_th hs hu

theorem OutInv.init : OutInv initSys :=
  ⟨rfl, fun h => (by cases h), fun _ => trivial⟩

/-- A step that leaves the output's view alone, and does not move a thread out
of `restartIn`, keeps the invariant if the stepping thread's new program counter
is right about `standby`. -/
theorem OutInv.of_frame (ho : OutInv s) (hfr : ∀ u, u ≠ t → s'.th u = s.th u)
    (hv : s'.outView = s.outView) (hnot : ∀ l, s.th t ≠ .outWrite (.restartIn l))
    (hok : (s'.th t).OutOk s.output.standby) : OutInv s' := by
  simp only [Sys.outView, Prod.mk.injEq] at hv
  obtain ⟨hpcm, hsb, hact⟩ := hv
  refine ⟨by rw [hpcm, hact, ho.open_iff], fun ha => ?_, fun u => ?_⟩
  · rw [hact] at ha
    rcases ho.active ha with h | ⟨u, l, hu⟩
    · exact .inl (hsb ▸ h)
    · have hne : u ≠ t := by rintro rfl; exact hnot l hu
      exact .inr ⟨u, l, by rw [hfr u hne, hu]⟩
  · rw [hsb]
    by_cases hu : u = t
    · exact hu ▸ hok
    · rw [hfr u hu]; exact ho.threads u

/-- No other thread holds a mutex that thread `t` holds. -/
theorem LocksHeld.not_mem (hs : LocksHeld s) {m : Mutex} (ht : m ∈ (s.th t).held) {u : ℕ}
    (hu : u ≠ t) : m ∉ (s.th u).held := fun h => hu (hs.unique h ht)

/-- No thread holds a free mutex. -/
theorem LocksHeld.not_mem_of_free (hs : LocksHeld s) {m : Mutex} (hf : s.owner m = none) (u : ℕ) :
    m ∉ (s.th u).held := fun h => by rw [hs u m h] at hf; cases hf

/-- A thread whose knowledge of `standby` needs the output's or the device's
mutex. -/
theorem Pc.outOk_of_not_held {pc : Pc} (ho : .output ∉ pc.held) (hd : .device ∉ pc.held)
    (b : Bool) : pc.OutOk b := by
  rcases pc with _ | l | l <;> try trivial
  · cases l <;> simp_all [OutOk, Pc.held, OutWritePc.held, OutWritePc.exiting]
  · cases l <;> simp_all [OutOk, Pc.held, InReadPc.held]

/-- While thread `t` holds the output's and the device's mutexes (or they are
free), every other thread is right about any `standby`. -/
theorem LocksHeld.outOk_of_held (hs : LocksHeld s)
    (hout : .output ∈ (s.th t).held ∨ s.owner .output = none)
    (hdev : .device ∈ (s.th t).held ∨ s.owner .device = none) (b : Bool) :
    ∀ u, u ≠ t → (s.th u).OutOk b := fun u hu => by
  refine Pc.outOk_of_not_held ?_ ?_ b
  · rcases hout with h | h
    exacts [hs.not_mem h hu, hs.not_mem_of_free h u]
  · rcases hdev with h | h
    exacts [hs.not_mem h hu, hs.not_mem_of_free h u]

/-- A step that puts the output in standby, by a thread that holds the output's
and the device's mutexes or finds them free, sets up the invariant afresh. -/
theorem OutInv.of_standby (hs : LocksHeld s) (hfr : ∀ u, u ≠ t → s'.th u = s.th u)
    (hout : .output ∈ (s.th t).held ∨ s.owner .output = none)
    (hdev : .device ∈ (s.th t).held ∨ s.owner .device = none)
    (hv : s'.outView = (.null, true, false)) (hok : (s'.th t).OutOk true) : OutInv s' := by
  simp only [Sys.outView, Prod.mk.injEq] at hv
  obtain ⟨hpcm, hsb, hact⟩ := hv
  refine ⟨by rw [hpcm, hact]; rfl, fun ha => (by rw [hact] at ha; cases ha), fun u => ?_⟩
  rw [hsb]
  by_cases hu : u = t
  · exact hu ▸ hok
  · rw [hfr u hu]; exact hs.outOk_of_held hout hdev true u hu

namespace Sys

theorem outWriteStep_outInv {r : Bool} {l : OutWritePc} (hs : LocksHeld s) (ho : OutInv s)
    (ht : s.th t = .outWrite l) (hfr : ∀ u, u ≠ t → s'.th u = s.th u)
    (h : s.outWriteStep t r l = some s') : OutInv s' := by
  have hsb : l.exiting = true → s.output.standby = true := by
    have := ho.threads t; rwa [ht] at this
  cases l with
  | lockOut =>
    obtain ⟨-, rfl⟩ := map_acquire_eq_some h
    refine ho.of_frame hfr rfl (fun _ h' => by rw [ht] at h'; cases h') ?_
    dsimp only
    split <;> simp_all [Pc.OutOk, OutWritePc.exiting]
  | lockDev | relockDev =>
    obtain ⟨-, rfl⟩ := map_acquire_eq_some h
    unfold outWriteLoop
    dsimp only
    split_ifs <;>
      exact ho.of_frame (fun u (hu : u ≠ t) => by simp [hu]) (by simp [outView])
        (fun _ h' => by rw [ht] at h'; cases h')
        (by simp [Pc.OutOk, OutWritePc.exiting, hsb])
  | setInSleepReq =>
    cases h
    exact ho.of_frame hfr rfl (fun _ h' => by rw [ht] at h'; cases h')
      (by simp [Pc.OutOk, OutWritePc.exiting, hsb])
  | lockIn =>
    obtain ⟨-, rfl⟩ := map_acquire_eq_some h
    exact ho.of_frame hfr rfl (fun _ h' => by rw [ht] at h'; cases h')
      (by simp [Pc.OutOk, OutWritePc.exiting, hsb])
  | startOut inP inLocked restartInput =>
    have hstb := hsb rfl
    have hdev : Mutex.device ∈ (s.th t).held := by simp [ht, Pc.held, OutWritePc.held]
    have hout : Mutex.output ∈ (s.th t).held := by simp [ht, Pc.held, OutWritePc.held]
    have hact : s.dev.activeOut = false := by
      cases hA : s.dev.activeOut
      · rfl
      · rcases ho.active hA with h' | ⟨u, l', hu⟩
        · rw [hstb] at h'; cases h'
        · have := hs.unique hdev (by simp [hu, Pc.held, OutWritePc.held] :
            Mutex.device ∈ (s.th u).held)
          subst this; rw [ht] at hu; cases hu
    have hoth : ∀ b, ∀ u, u ≠ t → (s'.th u).OutOk b := fun b u hu => by
      rw [hfr u hu]; exact hs.outOk_of_held (.inl hout) (.inl hdev) b u hu
    cases r
    · cases h
      refine ⟨by simp [hact], fun ha => by simp [hact] at ha, fun u => ?_⟩
      by_cases hu : u = t
      · subst hu; simp [Pc.OutOk]
      · exact hoth _ u hu
    · simp only [outWriteStep, startOutputStream_ret, if_true, ne_eq, not_true_eq_false,
        if_false] at h
      split at h <;> cases h
      · refine ⟨by simp, fun _ => .inr ⟨t, inLocked, by simp⟩, fun u => ?_⟩
        by_cases hu : u = t
        · subst hu; simp [Pc.OutOk, OutWritePc.exiting, hstb]
        · exact hoth _ u hu
      · refine ⟨by simp, fun _ => .inl (by simp), fun u => ?_⟩
        by_cases hu : u = t
        · subst hu; simp [Pc.OutOk, OutWritePc.exiting]
        · exact hoth _ u hu
  | restartIn inLocked =>
    have hdev : Mutex.device ∈ (s.th t).held := by simp [ht, Pc.held, OutWritePc.held]
    have hout : Mutex.output ∈ (s.th t).held := by simp [ht, Pc.held, OutWritePc.held]
    have hoth : ∀ b, ∀ u, u ≠ t → (s'.th u).OutOk b := fun b u hu => by
      rw [hfr u hu]; exact hs.outOk_of_held (.inl hout) (.inl hdev) b u hu
    simp only [outWriteStep] at h
    cases h
    refine ⟨?_, fun _ => .inl (by simp), fun u => ?_⟩
    · simp only [outWriteExitStandby_output, outWriteExitStandby_dev]
      split <;> simp [ho.open_iff]
    · by_cases hu : u = t
      · subst hu; simp [Pc.OutOk, OutWritePc.exiting]
      · exact hoth _ u hu
  | write => cases h

theorem inReadStep_outInv {r : Bool} {l : InReadPc} (hs : LocksHeld s) (ho : OutInv s)
    (ht : s.th t = .inRead l) (hfr : ∀ u, u ≠ t → s'.th u = s.th u)
    (h : s.inReadStep t r l = some s') : OutInv s' := by
  have hnot : ∀ l', s.th t ≠ .outWrite (.restartIn l') := fun _ h' => by rw [ht] at h'; cases h'
  cases l with
  | lockIn | lockOut | relockIn =>
    obtain ⟨-, rfl⟩ := map_acquire_eq_some h
    refine ho.of_frame hfr rfl hnot ?_
    dsimp only
    try split
    all_goals simp [Pc.OutOk]
  | setOutSleepReq =>
    cases h
    exact ho.of_frame hfr rfl hnot (by simp [Pc.OutOk])
  | lockDev =>
    obtain ⟨-, rfl⟩ := map_acquire_eq_some h
    unfold inReadLoop
    dsimp only
    split_ifs with hc <;>
      refine ho.of_frame (fun u (hu : u ≠ t) => by simp [hu]) (by simp [outView]) hnot ?_
    · simp [Pc.OutOk]
    · simpa [Pc.OutOk] using hc
  | relockDev =>
    obtain ⟨hf, rfl⟩ := map_acquire_eq_some h
    dsimp only
    split_ifs with hc
    · refine ho.of_frame (fun u (hu : u ≠ t) => by simp [hu]) rfl hnot ?_
      rcases ho.active hc with h' | ⟨u, l', hu⟩
      · simpa [Pc.OutOk] using h'
      · exact absurd hf (by rw [hs u .device (by simp [hu, Pc.held, OutWritePc.held])]; simp)
    · unfold inReadLoop
      exact ho.of_frame (fun u (hu : u ≠ t) => by simp [hu]) (by simp [outView]) hnot
        (by simp [Pc.OutOk])
  | restartOut outP outLocked =>
    have hdev : Mutex.device ∈ (s.th t).held := by simp [ht, Pc.held, InReadPc.held]
    have hok := ho.threads t
    rw [ht] at hok
    simp only [inReadStep] at h
    by_cases hc : (outP && !s.output.standby) = true
    · rw [if_pos hc] at h
      cases h
      simp only [Bool.and_eq_true, Bool.not_eq_true'] at hc
      cases outLocked
      · simp [Pc.OutOk, hc] at hok
      · have hout : Mutex.output ∈ (s.th t).held := by simp [ht, Pc.held, InReadPc.held]
        refine ⟨?_, fun _ => .inl (by simp), fun u => ?_⟩
        · cases r <;> simp [hc.2]
        · by_cases hu : u = t
          · subst hu; simp [Pc.OutOk]
          · rw [hfr u hu]; exact hs.outOk_of_held (.inl hout) (.inl hdev) _ u hu
    · rw [if_neg hc] at h
      cases h
      exact ho.of_frame hfr rfl hnot (by simp [Pc.OutOk])
  | startIn =>
    simp only [inReadStep] at h
    cases h
    exact ho.of_frame hfr (by split <;> simp [outView]) hnot (by simp [Pc.OutOk])
  | read =>
    cases h
    exact ho.of_frame hfr rfl hnot (by simp [Pc.OutOk])

/-! ### The calls of the common shape -/

theorem outSetParametersBody_outView (routing : Option UInt32) (X : Sys) :
    (outSetParametersBody routing X).outView = X.outView ∨
      (outSetParametersBody routing X).outView = X.doOutStandby.outView := by
  unfold outSetParametersBody
  split
  · split_ifs
    exacts [.inr rfl, .inl rfl, .inl rfl]
  · exact .inl rfl

theorem inSetParametersBody_outView (source routing : Option UInt32) (X : Sys) :
    (inSetParametersBody source routing X).outView = X.outView := by
  have h₁ : (inSetParametersSource source X).outView = X.outView := by
    unfold inSetParametersSource; split <;> (try split_ifs) <;> rfl
  unfold inSetParametersBody
  generalize inSetParametersSource source X = Y at h₁
  rw [← h₁]
  unfold inSetParametersRouting
  split
  · dsimp only
    split_ifs <;> first | rfl | exact Y.outView_doInStandby
  · rfl

theorem adevSetMicMuteBody_outView (state : Bool) (X : Sys) :
    (adevSetMicMuteBody state X).outView = X.outView := by
  unfold adevSetMicMuteBody
  split_ifs
  exacts [X.outView_doInStandby, rfl]

/-- A call of the common shape on stream `x` keeps the invariant when its body
leaves the output's view alone or, on the output's own call, does to it what
`do_out_standby` does. -/
theorem yieldStep_outInv {x : Stream} {body : Sys → Sys} {next : Pc} {k : YieldPc → Pc}
    {l : YieldPc} (hs : LocksHeld s) (ho : OutInv s) (ht : s.th t = k l)
    (hfr : ∀ u, u ≠ t → s'.th u = s.th u) (h : s.yieldStep x body next k t l = some s')
    (hk : ∀ l, (k l).held = l.held x) (hok : ∀ l b, (k l).OutOk b) (hn : ∀ b, next.OutOk b)
    (hb : ∀ X, (body X).outView = X.outView ∨
      x = .output ∧ (body X).outView = X.doOutStandby.outView) : OutInv s' := by
  have hnot : ∀ l', s.th t ≠ .outWrite (.restartIn l') := fun l' h' => by
    have := hok l false; rw [← ht, h'] at this; simp [Pc.OutOk, OutWritePc.exiting] at this
  cases l with
  | setSleepReq =>
    cases h
    exact ho.of_frame hfr (by simp) hnot (by simp [hok])
  | lockStream =>
    obtain ⟨-, rfl⟩ := map_acquire_eq_some h
    exact ho.of_frame hfr (by rw [outView_goto, outView_setSleepReq]; rfl) hnot (by simp [hok])
  | lockDev =>
    obtain ⟨hf, rfl⟩ := map_acquire_eq_some h
    have hv' : ∀ X : Sys, X.outView = s.outView → (((X.release .device).release x.lock).goto t
        next).outView = s.outView := fun X hX => by simp [hX]
    rcases hb { s with owner := Function.update s.owner .device (some t) } with hv | ⟨rfl, hv⟩
    · exact ho.of_frame hfr (hv' _ hv) hnot (by simp [hn])
    · rw [outView_doOutStandby] at hv
      split at hv
      · exact ho.of_frame hfr (hv' _ hv) hnot (by simp [hn])
      · exact .of_standby hs hfr (.inl (by simp [ht, hk, YieldPc.held, Stream.lock])) (.inr hf)
          (by simpa using hv) (by simp [hn])

/-! ### Every step -/

/-- **Every step keeps the output's registration invariant.** -/
theorem step_outInv (hs : LocksHeld s) (ho : OutInv s) (h : s.step t a = some s') : OutInv s' := by
  have hfr := step_frame h
  cases a with
  | call op =>
    simp only [step] at h
    split at h <;> rename_i hi <;> cases h
    exact ho.of_frame hfr rfl (fun _ h' => nomatch hi.symm.trans h')
      (by cases op <;> simp [Op.entry, Pc.OutOk, OutWritePc.exiting])
  | run r =>
    simp only [step] at h
    generalize hpc : s.th t = pc at h
    cases pc with
    | idle => cases h
    | outWrite l => exact outWriteStep_outInv hs ho hpc hfr h
    | inRead l => exact inReadStep_outInv hs ho hpc hfr h
    | outStandby l =>
      exact yieldStep_outInv hs ho hpc hfr h (fun _ => rfl) (fun _ _ => trivial) (fun _ => trivial)
        (fun _ => .inr ⟨rfl, rfl⟩)
    | inStandby l =>
      exact yieldStep_outInv hs ho hpc hfr h (fun _ => rfl) (fun _ _ => trivial) (fun _ => trivial)
        (fun X => .inl X.outView_doInStandby)
    | outSetParameters routing l =>
      exact yieldStep_outInv hs ho hpc hfr h (fun _ => rfl) (fun _ _ => trivial) (fun _ => trivial)
        (fun X => (outSetParametersBody_outView routing X).imp_right (⟨rfl, ·⟩))
    | inSetParameters source routing l =>
      exact yieldStep_outInv hs ho hpc hfr h (fun _ => rfl) (fun _ _ => trivial) (fun _ => trivial)
        (fun X => .inl (inSetParametersBody_outView source routing X))
    | adevSetMicMute state l =>
      rcases l with _ | l
      · cases h
        exact ho.of_frame hfr (by split <;> rfl) (fun _ h' => nomatch hpc.symm.trans h')
          (by split <;> simp [Pc.OutOk])
      · simp only [runStep] at h
        exact yieldStep_outInv hs ho hpc hfr h (fun _ => rfl) (fun _ _ => trivial)
          (fun _ => trivial) (fun X => .inl (adevSetMicMuteBody_outView state X))
    | adevSetMode mode =>
      obtain ⟨-, rfl⟩ := map_acquire_eq_some h
      exact ho.of_frame hfr rfl (fun _ h' => nomatch hpc.symm.trans h') (by simp [Pc.OutOk])
    | adevCloseInputStream l =>
      rcases l with _ | l
      · obtain ⟨-, rfl⟩ := map_acquire_eq_some h
        exact ho.of_frame hfr rfl (fun _ h' => nomatch hpc.symm.trans h') (by simp [Pc.OutOk])
      · simp only [runStep] at h
        exact yieldStep_outInv hs ho hpc hfr h (fun _ => rfl) (fun _ _ => trivial)
          (fun _ => trivial) (fun X => .inl X.outView_doInStandby)
    | outGetPresentationPosition requested =>
      cases requested
      · cases h
        exact ho.of_frame hfr (by simp) (fun _ h' => nomatch hpc.symm.trans h')
          (by simp [Pc.OutOk])
      · obtain ⟨-, rfl⟩ := map_acquire_eq_some h
        exact ho.of_frame hfr (by rw [outView_goto, outView_release, outView_setSleepReq]; rfl)
          (fun _ h' => nomatch hpc.symm.trans h') (by simp [Pc.OutOk])
    | adevSetParameters v =>
      cases h
      exact ho.of_frame hfr rfl (fun _ h' => nomatch hpc.symm.trans h') (by simp [Pc.OutOk])
  | write bytes kf0 qs fuel status =>
    simp only [step] at h
    split at h <;> rename_i hi
    · obtain ⟨p, -, rfl⟩ := Option.map_eq_some'.mp h
      exact ho.of_frame hfr rfl (fun _ h' => nomatch hi.symm.trans h') (by simp [Pc.OutOk])
    · cases h

end Sys

/-- The lock tables and the output's invariant hold in every state reached
through states that satisfy any `P`. -/
theorem ReachVia.outInv {P : Sys → Prop} (h : ReachVia P s) : LocksHeld s ∧ OutInv s := by
  induction h with
  | init => exact ⟨.init, .init⟩
  | step t a _ hst _ ih => exact ⟨ih.1.step hst, Sys.step_outInv ih.1 ih.2 hst⟩

/-- `in_read` never skips the output's restart with `out_locked` set. -/
theorem OutInv.not_skipStep (ho : OutInv s) : ¬ SkipStep s s' t := fun ⟨⟨_, hpc, hn⟩, _, _, _⟩ => by
  have := ho.threads t
  rw [hpc] at this
  exact hn this

/-- **The output stream's registration.** In every reachable state the output's
PCM is open exactly while the output is `adev->active_out`, and a registered
output is out of standby, except while an `out_write` that holds the device
mutex restarts the input. -/
theorem outputStream_registered (hs : Reach s) :
    s.output.pcm.isOpen = s.dev.activeOut ∧
      (s.dev.activeOut = true →
        s.output.standby = false ∨ ∃ u l, s.th u = .outWrite (.restartIn l)) :=
  ⟨(ReachVia.outInv hs).2.open_iff, (ReachVia.outInv hs).2.active⟩

/-- Thread 1's `in_read` starts the input; thread 0's `out_write` then leaves
standby, forces the input to standby and starts the output, and is about to
restart the input: the output is registered and in standby, its PCM open. -/
theorem outputStream_registered_restartIn :
    ∃ s, Reach s ∧ s.dev.activeOut = true ∧ s.output.standby = true ∧
      s.output.pcm.isOpen = true ∧ ∃ u l, s.th u = .outWrite (.restartIn l) := by
  obtain ⟨s, hs, ha, hsb⟩ := Reach.exists_of_run
    ((1, .call .inRead) :: List.replicate 5 (1, .run true) ++
      (0, .call .outWrite) :: List.replicate 6 (0, .run true))
    (fun s => s.dev.activeOut = true ∧ s.output.standby = true) (by decide)
  have ⟨ho, hr⟩ := outputStream_registered hs
  refine ⟨s, hs, ha, hsb, ho.trans ha, (hr ha).resolve_left ?_⟩
  rw [hsb]
  decide

end

/-! ### What the invariant leaves out -/

/-- Thread 0's `out_write` from standby: the output's PCM opens (the first
`pcm_open`), the output is registered and leaves standby, and the write ends
after a failed first reading of the pacing loop. -/
def outputStarted : List (ℕ × Act) :=
  (0, .call .outWrite) :: List.replicate 3 (0, .run true) ++ [(0, .write 0 0 (fun _ => .fail) 1 0)]

/-- After `outputStarted`, thread 1's `in_read`: its loop locks the output, its
restart of the output gets a PCM that is not ready (the second `pcm_open`), and
the input opens (the third); the call returns. -/
def restartFails : List (ℕ × Act) :=
  outputStarted ++ (1, .call .inRead) :: List.replicate 6 (1, .run true) ++
    (1, .run false) :: List.replicate 2 (1, .run true)

/-- **A failed restart leaves the output out of standby.** While the output
plays, thread 1's `in_read` restarts it; its PCM does not open; once the input
is started and every call has returned, no one holds the device mutex, and the
output is out of standby, its PCM closed, and not the active output. -/
theorem inRead_restartFailed_outputNotStandby :
    ∃ s, Reach s ∧ (∀ u, s.th u = .idle) ∧ s.owner .device = none ∧
      s.output.pcm.isOpen = false ∧ s.output.standby = false ∧ s.dev.activeOut = false :=
  Reach.exists_idle_of_run restartFails _ (by decide)

/- After `restartFails`, thread 0's next `out_write` finds the output out of
standby, skips `start_output_stream`, and reaches `pcm_write` with the output's
PCM closed. -/
example : ∃ s, Reach s ∧ s.th 0 = .outWrite .write ∧ s.output.pcm = .closed :=
  Reach.exists_of_run (restartFails ++ [(0, .call .outWrite), (0, .run true)]) _ (by decide)

/-- **An `in_read` leaves the output's `sleep_req` set.** While the output
plays, thread 1's `in_read` enters its loop and undoes its locks; thread 2's
`out_standby` puts the output in standby; thread 1 then sets the output's
`sleep_req`, finds no active output after its relock, starts the input and
returns. No call is in progress, and the output's `sleep_req` is set. -/
theorem inRead_leavesOutputSleepReq :
    ∃ s, Reach s ∧ (∀ u, s.th u = .idle) ∧ s.output.sleepReq = true :=
  Reach.exists_idle_of_run
    (outputStarted ++ (1, .call .inRead) :: List.replicate 2 (1, .run true) ++
      (2, .call .outStandby) :: List.replicate 3 (2, .run true) ++ List.replicate 7 (1, .run true))
    _ (by decide)

end AudioHw
