/-
# Every call returns, and while no call leaks, all calls in progress can

Each call runs through its function without going back. The loops of
`out_write` and `in_read` run at most one round, since there is one stream of
each direction: after the relock, the other stream is the active one or there
is none. So every step of a call brings it closer to its return
(`Pc.stepsLeft`), and a call returns after at most nine of its own steps,
whatever the other threads do (`call_returnsWithin`).

A call that returns holding a mutex does so only at `out_write`'s failed
`start_output_stream`: every other step keeps each held mutex with a thread in
a call (`leak_onlyAtFailedStart`). While no call has leaked, a thread in a
call that cannot step wants a mutex that a thread in a call holds, and that
thread wants a mutex of higher rank, or can step (`OwnedHeld.exists_readyStep`).
So from every state reached without a leak, the calls in progress all return,
with no new call and every PCM opening ready, and leave every mutex free
(`calls_complete`).

Key definitions: `Pc.stepsLeft`, `Pc.readyAct`, `Sys.work`.
Key theorems: `call_returnsWithin`, `leak_onlyAtFailedStart`, `calls_complete`.
-/
import AudioHw.Deadlock
import Mathlib.Algebra.Order.BigOperators.Group.List
import Mathlib.Algebra.Order.Ring.Nat

namespace AudioHw

/-! ### The steps left to a call -/

/-- The most steps `out_write` takes from `l` to its return. -/
@[simp] def OutWritePc.stepsLeft : OutWritePc → ℕ
  | .lockOut => 8
  | .lockDev => 7
  | .setInSleepReq => 6
  | .lockIn => 5
  | .relockDev => 4
  | .startOut .. => 3
  | .restartIn _ => 2
  | .write => 1

/-- The most steps `in_read` takes from `l` to its return. -/
@[simp] def InReadPc.stepsLeft : InReadPc → ℕ
  | .lockIn => 9
  | .lockDev => 8
  | .setOutSleepReq => 7
  | .lockOut => 6
  | .relockIn => 5
  | .relockDev => 4
  | .restartOut .. => 3
  | .startIn => 2
  | .read => 1

/-- The most steps a call of the common shape takes from `l` to its `next`. -/
@[simp] def YieldPc.stepsLeft : YieldPc → ℕ
  | .setSleepReq => 3
  | .lockStream => 2
  | .lockDev => 1

/-- The most steps a thread at `pc` takes before it is idle. -/
def Pc.stepsLeft : Pc → ℕ
  | .idle => 0
  | .outWrite l => l.stepsLeft
  | .inRead l => l.stepsLeft
  | .outStandby l | .inStandby l | .outSetParameters _ l | .inSetParameters _ _ l
  | .adevSetMicMute _ (some l) => l.stepsLeft
  | .adevSetMicMute _ none => 4
  | .adevCloseInputStream (some l) => l.stepsLeft + 1
  | .adevCloseInputStream none | .adevSetMode _ | .adevSetParameters _ => 1
  | .outGetPresentationPosition requested => if requested then 1 else 2

theorem Op.entry_stepsLeft_le (op : Op) : op.entry.stepsLeft ≤ 9 := by
  cases op <;> simp [Op.entry, Pc.stepsLeft]

namespace Sys

variable {s s' : Sys} {t : ℕ}

@[simp] theorem goto_th_self (s : Sys) (t : ℕ) (pc : Pc) : (s.goto t pc).th t = pc := by simp

theorem outWriteStep_stepsLeft {r : Bool} {l : OutWritePc} (h : s.outWriteStep t r l = some s') :
    (s'.th t).stepsLeft < l.stepsLeft := by
  cases l with
  | lockOut =>
    obtain ⟨-, rfl⟩ := map_acquire_eq_some h
    split <;> simp [Pc.stepsLeft]
  | lockIn => obtain ⟨-, rfl⟩ := map_acquire_eq_some h; simp [Pc.stepsLeft]
  | lockDev | relockDev =>
    obtain ⟨-, rfl⟩ := map_acquire_eq_some h
    unfold outWriteLoop
    split <;> simp [outWriteLoop, Pc.stepsLeft]
  | setInSleepReq | restartIn => cases h; simp [Pc.stepsLeft]
  | startOut =>
    simp only [outWriteStep] at h
    split_ifs at h <;> cases h <;> simp [Pc.stepsLeft]
  | write => cases h

theorem inReadStep_stepsLeft {r : Bool} {l : InReadPc} (h : s.inReadStep t r l = some s') :
    (s'.th t).stepsLeft < l.stepsLeft := by
  cases l with
  | lockIn =>
    obtain ⟨-, rfl⟩ := map_acquire_eq_some h
    split <;> simp [Pc.stepsLeft]
  | lockOut | relockIn => obtain ⟨-, rfl⟩ := map_acquire_eq_some h; simp [Pc.stepsLeft]
  | lockDev | relockDev =>
    obtain ⟨-, rfl⟩ := map_acquire_eq_some h
    unfold inReadLoop
    split <;> simp [inReadLoop, Pc.stepsLeft]
  | setOutSleepReq | startIn | read => cases h; simp [Pc.stepsLeft]
  | restartOut =>
    simp only [inReadStep] at h
    split_ifs at h <;> cases h <;> simp [Pc.stepsLeft]

theorem yieldStep_stepsLeft {x : Stream} {body : Sys → Sys} {next : Pc} {k : YieldPc → Pc}
    {l : YieldPc} {c : ℕ} (h : s.yieldStep x body next k t l = some s')
    (hk : ∀ l, (k l).stepsLeft = l.stepsLeft + c) (hn : next.stepsLeft = c) :
    (s'.th t).stepsLeft < (k l).stepsLeft := by
  cases l with
  | setSleepReq => cases h; simp only [goto_th_self, hk, YieldPc.stepsLeft]; omega
  | lockStream | lockDev =>
    obtain ⟨-, rfl⟩ := map_acquire_eq_some h
    simp only [goto_th_self, hk, hn, YieldPc.stepsLeft]
    omega

/-- **A step of a call brings it closer to its return.** -/
theorem stepsLeft_step {a : Act} (h : s.step t a = some s') (hi : s.th t ≠ .idle) :
    (s'.th t).stepsLeft < (s.th t).stepsLeft := by
  cases a with
  | call op => simp [step, hi] at h
  | write =>
    simp only [step] at h
    split_ifs at h with hw
    obtain ⟨_, -, rfl⟩ := Option.map_eq_some'.mp h
    simp [hw, Pc.stepsLeft]
  | run r =>
    simp only [step] at h
    generalize s.th t = pc at h ⊢
    cases pc with
    | idle => cases h
    | outWrite l => exact outWriteStep_stepsLeft h
    | inRead l => exact inReadStep_stepsLeft h
    | outStandby l | inStandby l | outSetParameters _ l | inSetParameters _ _ l =>
      exact yieldStep_stepsLeft (c := 0) h (fun _ => rfl) rfl
    | adevSetMicMute _ l =>
      rcases l with _ | l
      · cases h; split <;> simp [Pc.stepsLeft]
      · simp only [runStep] at h
        exact yieldStep_stepsLeft (c := 0) h (fun _ => rfl) rfl
    | adevCloseInputStream l =>
      rcases l with _ | l
      · obtain ⟨-, rfl⟩ := map_acquire_eq_some h; simp [Pc.stepsLeft]
      · simp only [runStep] at h
        exact yieldStep_stepsLeft (c := 1) h (fun _ => rfl) rfl
    | adevSetMode | adevSetParameters =>
      first | (obtain ⟨-, rfl⟩ := map_acquire_eq_some h) | cases h
      simp [Pc.stepsLeft]
    | outGetPresentationPosition requested =>
      cases requested
      · cases h; simp [Pc.stepsLeft]
      · obtain ⟨-, rfl⟩ := map_acquire_eq_some h; simp [Pc.stepsLeft]

/-- A thread makes a call only when idle, and steps only in a call. -/
theorem step_idle {a : Act} (h : s.step t a = some s') (hi : s.th t = .idle) :
    ∃ op, a = .call op ∧ s' = s.goto t op.entry := by
  cases a with
  | call op => simp only [step, hi, if_true] at h; exact ⟨op, rfl, (Option.some.inj h).symm⟩
  | run r => simp [step, hi, runStep] at h
  | write => simp [step, hi] at h

/-- Along a run in which thread `t` makes no call, its steps and the steps its
call has left add up to at most the steps it had left. -/
theorem runSteps_stepsLeft :
    ∀ {s s' : Sys} {l : List (ℕ × Act)}, s.runSteps l = some s' →
      (∀ p ∈ l, p.1 = t → ∀ op, p.2 ≠ .call op) →
      (l.filter fun p => p.1 = t).length + (s'.th t).stepsLeft ≤ (s.th t).stepsLeft
  | _, _, [], h, _ => by cases h; simp
  | s, _, (u, a) :: l, h, hl => by
    obtain ⟨s₁, h₁, h⟩ := Option.bind_eq_some.mp h
    have ih := runSteps_stepsLeft h fun p hp => hl p (.tail _ hp)
    by_cases hu : u = t
    · subst hu
      have hi : s.th u ≠ .idle := fun hi => by
        obtain ⟨op, rfl, -⟩ := step_idle h₁ hi
        exact hl _ (.head _) rfl op rfl
      have := stepsLeft_step h₁ hi
      simp only [List.filter_cons, decide_True, if_true, List.length_cons]
      omega
    · rw [step_frame h₁ t (Ne.symm hu)] at ih
      simpa [List.filter_cons, hu] using ih

end Sys

/-- **Every call returns within nine of its own steps.** From any state, in
any run in which thread `t`, at the start of a call, makes no new call, `t`
takes at most nine steps, whatever the other threads do. -/
theorem call_returnsWithin (op : Op) {s s' : Sys} {t : ℕ} {l : List (ℕ × Act)}
    (ht : s.th t = op.entry) (h : s.runSteps l = some s')
    (hl : ∀ p ∈ l, p.1 = t → ∀ op', p.2 ≠ .call op') :
    (l.filter fun p => p.1 = t).length ≤ 9 := by
  have := Sys.runSteps_stepsLeft h hl
  have := op.entry_stepsLeft_le
  rw [ht] at *
  omega

/-- While thread 0's output plays, thread 1's `in_read` goes round its loop;
meanwhile thread 0's next `out_write` takes the output's mutex and writes;
then thread 1 restarts the output, starts the input and returns. -/
def inReadRound : List (ℕ × Act) :=
  List.replicate 2 (1, .run true) ++
    [(0, .call .outWrite), (0, .run true), (0, .write 0 0 (fun _ => .fail) 1 0)] ++
      List.replicate 7 (1, .run true)

/-- The `in_read` of `inReadRound` takes nine steps, the loop's round included,
and returns. -/
theorem call_returnsWithin_inReadRound :
    ∃ s s', Reach s ∧ s.th 1 = Op.inRead.entry ∧ s.runSteps inReadRound = some s' ∧
      s'.th 1 = .idle ∧ (inReadRound.filter fun p => p.1 = 1).length = 9 ∧
      (inReadRound.filter fun p => p.1 = 1).length ≤ 9 := by
  obtain ⟨s, s', hs, h, ht, hi⟩ := Reach.exists_of_runs (outputStarted ++ [(1, .call .inRead)])
    inReadRound (fun s s' => s.th 1 = Op.inRead.entry ∧ s'.th 1 = .idle) (by decide)
  refine ⟨s, s', hs, ht, h, hi, by decide,
    call_returnsWithin .inRead ht h fun ⟨u, b⟩ hp h1 op he => ?_⟩
  cases h1
  cases he
  simp [inReadRound] at hp

/-! ### Leaks -/

/-- A thread that holds a mutex is in a call. -/
theorem Pc.ne_idle_of_mem_held {pc : Pc} {m : Mutex} (h : m ∈ pc.held) : pc ≠ .idle := by
  rintro rfl
  simp [Pc.held] at h

section

variable {s s' : Sys} {t : ℕ} {a : Act}

/-- A step that moves the mutexes as the tables say leaves every held mutex
with a thread in a call. -/
theorem NoLeak.of_lockStep (ho : OwnedHeld s) (hn : NoLeak s) (hl : LockStep s s' t) :
    NoLeak s' := by
  intro m u hu
  rw [hl.owner m] at hu
  split_ifs at hu with h1 h2 h3
  · cases hu
    exact Pc.ne_idle_of_mem_held h1
  · by_cases hut : u = t
    · exact hut ▸ Pc.ne_idle_of_mem_held h1
    · rw [hl.frame u hut]; exact hn m u hu
  · by_cases hut : u = t
    · exact absurd (.inl (hut ▸ ho m u hu)) h3
    · rw [hl.frame u hut]; exact hn m u hu

/-- `out_write` returns holding mutexes only when its `pcm_open` fails. -/
theorem LeakStep.run_false (hl : LeakStep s s' t) (h : s.step t a = some s') : a = .run false := by
  obtain ⟨⟨inP, inLocked, restartInput, hpc⟩, -, hidle, -⟩ := hl
  cases a with
  | call op => simp [Sys.step, hpc] at h
  | write => simp [Sys.step, hpc] at h
  | run r =>
    cases r
    · rfl
    · simp only [Sys.step, hpc, Sys.runStep, Sys.outWriteStep, Sys.startOutputStream_ret, if_true,
        ne_eq, not_true_eq_false, if_false] at h
      split_ifs at h <;> cases h <;> simp at hidle

/-- From a state reached without a leak, a step leaks only at `out_write`'s
failed `start_output_stream`. -/
theorem NoLeak.step (hs : ReachVia NoLeak s) (h : s.step t a = some s') :
    NoLeak s' ∨ a = .run false ∧
      ∃ inP inLocked restartInput, s.th t = .outWrite (.startOut inP inLocked restartInput) := by
  rcases Sys.step_lock h with hl | hl | hl
  · exact .inl (.of_lockStep (ReachVia.ownedHeld hs) hs.prop hl)
  · exact .inr ⟨hl.run_false h, hl.pc⟩
  · exact absurd hl (ReachVia.outInv hs).2.not_skipStep

end

/-- **Only a failed `pcm_open` leaks a mutex.** In every state reached without a
leak, every step of every thread leaves each held mutex with a thread in a call,
except `out_write`'s step through a `start_output_stream` whose `pcm_open` fails. -/
theorem leak_onlyAtFailedStart {s : Sys} (hs : ReachVia NoLeak s) :
    ∀ t a s', s.step t a = some s' → NoLeak s' ∨ a = .run false ∧
      ∃ inP inLocked restartInput, s.th t = .outWrite (.startOut inP inLocked restartInput) :=
  fun _ _ _ h => NoLeak.step hs h

/-- Thread 0's `out_write` reaches `start_output_stream` without a leak; its
step through a `pcm_open` that fails is the one that leaks. -/
theorem leak_onlyAtFailedStart_failedStart :
    ∃ s s', ReachVia NoLeak s ∧ s.step 0 (.run false) = some s' ∧ ¬ NoLeak s' ∧
      ∃ inP inLocked restartInput, s.th 0 = .outWrite (.startOut inP inLocked restartInput) := by
  obtain ⟨s, hs, hst⟩ := ReachVia.exists_of_run (P := NoLeak)
    [(0, .call .outWrite), (0, .run true), (0, .run true)]
    (fun s => ((s.step 0 (.run false)).map fun s' => decide (NoLeak s')) = some false)
    (by decide) (by decide)
  obtain ⟨s', h', hn⟩ := Option.map_eq_some'.mp hst
  have hn : ¬ NoLeak s' := of_decide_eq_false hn
  exact ⟨s, s', hs, h', hn, ((leak_onlyAtFailedStart hs 0 _ s' h').resolve_left hn).2⟩

/-! ### Progress -/

/-- The environment's part in a step of a thread at `pc` when everything
succeeds: the step's `pcm_open` opens a ready PCM; a write's pacing loop ends at
its first reading, which fails, and `pcm_write` succeeds. -/
def Pc.readyAct : Pc → Act
  | .outWrite .write => .write 0 0 (fun _ => .fail) 1 0
  | _ => .run true

theorem Pc.readyAct_ne (pc : Pc) : pc.readyAct ≠ .run false := by
  unfold Pc.readyAct
  split <;> simp

theorem Pc.level_le (pc : Pc) : pc.level ≤ 3 := by
  unfold Pc.level
  split
  · rename_i m _; cases m <;> decide
  · exact le_rfl

namespace Sys

variable {s : Sys} {t : ℕ}

theorem outWriteStep_isSome {l : OutWritePc} (hl : l ≠ .write)
    (hf : ∀ m, l.wants = some m → s.owner m = none) : (s.outWriteStep t true l).isSome := by
  cases l with
  | lockOut | lockDev | lockIn | relockDev => simp [outWriteStep, acquire, hf _ rfl]
  | setInSleepReq | restartIn => rfl
  | startOut => simp only [outWriteStep]; split_ifs <;> rfl
  | write => exact absurd rfl hl

theorem inReadStep_isSome {l : InReadPc} (hf : ∀ m, l.wants = some m → s.owner m = none) :
    (s.inReadStep t true l).isSome := by
  cases l with
  | lockIn | lockDev | lockOut | relockIn | relockDev => simp [inReadStep, acquire, hf _ rfl]
  | setOutSleepReq | startIn | read => rfl
  | restartOut => simp only [inReadStep]; split_ifs <;> rfl

theorem yieldStep_isSome {x : Stream} {body : Sys → Sys} {next : Pc} {k : YieldPc → Pc}
    {l : YieldPc} (hf : ∀ m, l.wants x = some m → s.owner m = none) :
    (s.yieldStep x body next k t l).isSome := by
  cases l with
  | setSleepReq => rfl
  | lockStream | lockDev => simp [yieldStep, acquire, hf _ rfl]

/-- A thread in a call whose wanted mutex is free can step with everything
succeeding. -/
theorem exists_readyStep (hi : s.th t ≠ .idle)
    (hf : ∀ m, (s.th t).wants = some m → s.owner m = none) :
    ∃ s', s.step t (s.th t).readyAct = some s' := by
  rw [← Option.isSome_iff_exists]
  generalize hpc : s.th t = pc at hi hf
  cases pc with
  | idle => exact absurd rfl hi
  | outWrite l =>
    by_cases hw : l = .write
    · subst hw
      simp [step, hpc, Pc.readyAct, outWriteFinish, outWritePace, paceLoop, paceStep]
    · have : (Pc.outWrite l).readyAct = .run true := by cases l <;> simp_all [Pc.readyAct]
      simp only [this, step, hpc, runStep]
      exact outWriteStep_isSome hw hf
  | inRead l => simp only [Pc.readyAct, step, hpc, runStep]; exact inReadStep_isSome hf
  | outStandby l | inStandby l | outSetParameters _ l | inSetParameters _ _ l =>
    simp only [Pc.readyAct, step, hpc, runStep]; exact yieldStep_isSome hf
  | adevSetMicMute _ l =>
    rcases l with _ | l
    · simp [Pc.readyAct, step, hpc, runStep]
    · simp only [Pc.readyAct, step, hpc, runStep]; exact yieldStep_isSome hf
  | adevCloseInputStream l =>
    rcases l with _ | l
    · simp [Pc.readyAct, step, hpc, runStep, acquire, hf _ rfl]
    · simp only [Pc.readyAct, step, hpc, runStep]; exact yieldStep_isSome hf
  | adevSetMode => simp [Pc.readyAct, step, hpc, runStep, acquire, hf _ rfl]
  | outGetPresentationPosition requested =>
    cases requested
    · simp [Pc.readyAct, step, hpc, runStep]
    · simp [Pc.readyAct, step, hpc, runStep, acquire, hf _ rfl]
  | adevSetParameters => simp [Pc.readyAct, step, hpc, runStep]

end Sys

/-- While the tables are exact, a thread in a call whose wanted mutex of rank
`3 - n` or more is held waits for a thread in a call wanting a mutex of higher
rank; at the end of the chain, a thread can step. -/
theorem OwnedHeld.exists_readyStep_of_level {s : Sys} (ho : OwnedHeld s) :
    ∀ n t, 3 - (s.th t).level ≤ n → s.th t ≠ .idle →
      ∃ u s', s.th u ≠ .idle ∧ s.step u (s.th u).readyAct = some s'
  | n, t, hn, ht => by
    by_cases hf : ∀ m, (s.th t).wants = some m → s.owner m = none
    · exact ⟨t, Sys.exists_readyStep ht hf |>.imp fun _ h => ⟨ht, h⟩⟩
    · push_neg at hf
      obtain ⟨m, hw, hm⟩ := hf
      obtain ⟨u, hu⟩ := Option.ne_none_iff_exists'.mp hm
      have hlt := WaitsFor.level_lt ho ⟨m, hw, hu⟩
      have hle := (s.th u).level_le
      match n with
      | 0 => omega
      | n + 1 => exact ho.exists_readyStep_of_level n u (by omega) (Pc.ne_idle_of_mem_held (ho m u hu))

/-- **Progress.** While the tables are exact, if a call is in progress then
some call in progress can step, with everything succeeding. -/
theorem OwnedHeld.exists_readyStep {s : Sys} (ho : OwnedHeld s) {t : ℕ} (ht : s.th t ≠ .idle) :
    ∃ u s', s.th u ≠ .idle ∧ s.step u (s.th u).readyAct = some s' :=
  ho.exists_readyStep_of_level _ t le_rfl ht

/-! ### Completion -/

/-- The steps left to the calls of the threads below `N`. -/
def Sys.work (s : Sys) (N : ℕ) : ℕ := ((List.range N).map fun t => (s.th t).stepsLeft).sum

/-- Every thread from `N` on is idle. -/
def Sys.IdleFrom (s : Sys) (N : ℕ) : Prop := ∀ t, N ≤ t → s.th t = .idle

section

variable {s s' : Sys} {t N : ℕ} {a : Act}

theorem Sys.work_lt (h : s.step t a = some s') (hi : s.th t ≠ .idle) (hN : s.IdleFrom N) :
    s'.work N < s.work N := by
  have htN : t < N := by
    by_contra hc
    exact hi (hN t (by omega))
  refine List.sum_lt_sum _ _ (fun u _ => ?_) ⟨t, List.mem_range.mpr htN, Sys.stepsLeft_step h hi⟩
  by_cases hu : u = t
  · exact hu ▸ (Sys.stepsLeft_step h hi).le
  · rw [Sys.step_frame h u hu]

theorem Sys.IdleFrom.step (hN : s.IdleFrom N) (h : s.step t a = some s') (hi : s.th t ≠ .idle) :
    s'.IdleFrom N := fun u hu => by
  have hne : u ≠ t := by rintro rfl; exact hi (hN u hu)
  rw [Sys.step_frame h u hne, hN u hu]

theorem ReachVia.idleFrom {P : Sys → Prop} (h : ReachVia P s) : ∃ N, s.IdleFrom N := by
  induction h with
  | init => exact ⟨0, fun _ _ => rfl⟩
  | @step s s' t a _ hst _ ih =>
    obtain ⟨N, hN⟩ := ih
    by_cases hi : s.th t = .idle
    · obtain ⟨op, -, rfl⟩ := Sys.step_idle hst hi
      refine ⟨max N (t + 1), fun u hu => ?_⟩
      rw [Sys.goto_th, Function.update_noteq (by omega), hN u (by omega)]
    · exact ⟨N, hN.step hst hi⟩

/-- From a state reached without a leak whose calls have at most `n` steps
left, the calls all return by steps in which everything succeeds. -/
theorem ReachVia.complete_of_work (N : ℕ) :
    ∀ n {s : Sys}, ReachVia NoLeak s → s.IdleFrom N → s.work N ≤ n →
      ∃ l s', s.runSteps l = some s' ∧
        (∀ p ∈ l, p.2 = .run true ∨ p.2 = .write 0 0 (fun _ => .fail) 1 0) ∧
        ReachVia NoLeak s' ∧ ∀ t, s'.th t = .idle
  | n, s, hs, hN, hw => by
    by_cases hb : ∀ t, s.th t = .idle
    · exact ⟨[], s, rfl, by simp, hs, hb⟩
    push_neg at hb
    obtain ⟨t, ht⟩ := hb
    obtain ⟨u, s₁, hu, h₁⟩ := (ReachVia.ownedHeld hs).exists_readyStep ht
    have hlt := Sys.work_lt h₁ hu hN
    have hs₁ : ReachVia NoLeak s₁ :=
      .step u _ hs h₁ ((NoLeak.step hs h₁).resolve_right fun h => (s.th u).readyAct_ne h.1)
    match n with
    | 0 => omega
    | n + 1 =>
      obtain ⟨l, s', h, hl, hs', hidle⟩ :=
        ReachVia.complete_of_work N n hs₁ (hN.step h₁ hu) (by omega)
      refine ⟨(u, (s.th u).readyAct) :: l, s', by simp [Sys.runSteps, h₁, h], ?_, hs', hidle⟩
      rintro p (_ | ⟨_, hp⟩)
      · unfold Pc.readyAct; split <;> simp
      · exact hl p hp

end

/-- **While no call leaks, the calls in progress all return.** From every state
reached by runs in which no call has returned holding a mutex, there is a run
that makes no new call, in which every `pcm_open` opens a ready PCM and every
write's pacing loop ends, at the end of which every call has returned and every
mutex is free. -/
theorem calls_complete {s : Sys} (hs : ReachVia NoLeak s) :
    ∃ l s', s.runSteps l = some s' ∧
      (∀ p ∈ l, p.2 = .run true ∨ p.2 = .write 0 0 (fun _ => .fail) 1 0) ∧
      (∀ t, s'.th t = .idle) ∧ ∀ m, s'.owner m = none := by
  obtain ⟨N, hN⟩ := ReachVia.idleFrom hs
  obtain ⟨l, s', h, hl, hs', hidle⟩ := ReachVia.complete_of_work N _ hs hN le_rfl
  refine ⟨l, s', h, hl, hidle, fun m => ?_⟩
  cases hm : s'.owner m with
  | none => rfl
  | some u => exact absurd (hidle u) (Pc.ne_idle_of_mem_held (ReachVia.ownedHeld hs' m u hm))

/-- Once thread 0 has called `out_write` and thread 1 `in_read`, both calls can
return. -/
theorem calls_complete_twoCalls :
    ∃ s, ReachVia NoLeak s ∧ s.th 0 = .outWrite .lockOut ∧ s.th 1 = .inRead .lockIn ∧
      ∃ l s', s.runSteps l = some s' ∧
        (∀ p ∈ l, p.2 = .run true ∨ p.2 = .write 0 0 (fun _ => .fail) 1 0) ∧
        (∀ t, s'.th t = .idle) ∧ ∀ m, s'.owner m = none := by
  have hn : ∀ s : Sys, s.owner = initSys.owner → NoLeak s := fun s h m t hm => by
    rw [h] at hm; cases hm
  have h₁ : ReachVia NoLeak (initSys.goto 0 Op.outWrite.entry) :=
    .step 0 (.call .outWrite) (.init (hn _ rfl)) rfl (hn _ rfl)
  have h₂ : ReachVia NoLeak ((initSys.goto 0 Op.outWrite.entry).goto 1 Op.inRead.entry) :=
    .step 1 (.call .inRead) h₁ rfl (hn _ rfl)
  exact ⟨_, h₂, rfl, rfl, calls_complete h₂⟩

end AudioHw
