/-
# Which mutexes each call holds, and the order it takes them in

At each program counter a call holds a fixed set of mutexes from its own
acquisitions (`Pc.held`), and its next step may acquire one more
(`Pc.wants`). Every step of every call moves the mutexes it holds or acquires
exactly as these two tables say (`step_lock`), with one exception: when
`start_output_stream` fails, `out_write` jumps to `exit`, which unlocks the
output only, and returns still holding the device mutex, and the input mutex
too if it took it (`LeakStep`).

Every mutex a thread's table gives it is held by that thread, in every
reachable state (`LocksHeld`), and while a thread owns the device mutex, also
after its call returned without unlocking it, no other thread writes the fields
it guards (`deviceFields_exclusive`).

Key definitions: `Pc.held`, `Pc.wants`, `LockStep`, `LeakStep`, `SkipStep`,
`LocksHeld`.
Key theorems: `Pc.rank_lt_of_wants`, `Sys.step_lock`,
`Sys.outWrite_returnsHoldingLocks`, `deviceFields_exclusive`.
-/
import AudioHw.Calls

namespace AudioHw

/-! ### The tables -/

/-- The mutexes an `out_write` call holds at `l`: after its loop, the input's
only if `in` is not `NULL` and `in_locked`, as the code releases it. -/
def OutWritePc.held : OutWritePc → List Mutex
  | .lockOut => []
  | .lockDev | .setInSleepReq | .lockIn | .write => [.output]
  | .relockDev => [.output, .input]
  | .startOut inP inLocked _ => [.output, .device] ++ if inP && inLocked then [.input] else []
  | .restartIn inLocked => [.output, .device] ++ if inLocked then [.input] else []

/-- The mutex the next step of an `out_write` call at `l` acquires. -/
def OutWritePc.wants : OutWritePc → Option Mutex
  | .lockOut => some .output
  | .lockDev | .relockDev => some .device
  | .lockIn => some .input
  | _ => none

/-- The mutexes an `in_read` call holds at `l`. -/
def InReadPc.held : InReadPc → List Mutex
  | .lockIn | .setOutSleepReq | .lockOut => []
  | .lockDev | .read => [.input]
  | .relockIn => [.output]
  | .relockDev => [.output, .input]
  | .restartOut _ outLocked => [.input, .device] ++ if outLocked then [.output] else []
  | .startIn => [.input, .device]

/-- The mutex the next step of an `in_read` call at `l` acquires. -/
def InReadPc.wants : InReadPc → Option Mutex
  | .lockIn | .relockIn => some .input
  | .lockDev | .relockDev => some .device
  | .lockOut => some .output
  | _ => none

/-- The mutexes a call of the common shape on stream `x` holds at `l`. -/
def YieldPc.held (x : Stream) : YieldPc → List Mutex
  | .lockDev => [x.lock]
  | _ => []

/-- The mutex the next step of a call of the common shape on `x` acquires. -/
def YieldPc.wants (x : Stream) : YieldPc → Option Mutex
  | .setSleepReq => none
  | .lockStream => some x.lock
  | .lockDev => some .device

/-- The mutexes a thread at `pc` holds from its call's own acquisitions. -/
def Pc.held : Pc → List Mutex
  | .outWrite l => l.held
  | .inRead l => l.held
  | .outStandby l | .outSetParameters _ l => l.held .output
  | .inStandby l | .inSetParameters _ _ l | .adevSetMicMute _ (some l)
  | .adevCloseInputStream (some l) => l.held .input
  | _ => []

/-- The mutex the next step of a thread at `pc` acquires. -/
def Pc.wants : Pc → Option Mutex
  | .outWrite l => l.wants
  | .inRead l => l.wants
  | .outStandby l | .outSetParameters _ l => l.wants .output
  | .inStandby l | .inSetParameters _ _ l | .adevSetMicMute _ (some l)
  | .adevCloseInputStream (some l) => l.wants .input
  | .adevSetMode _ | .adevCloseInputStream none => some .device
  | .outGetPresentationPosition true => some .output
  | _ => none

/-! ### The order -/

theorem OutWritePc.rank_lt_of_wants {l : OutWritePc} {m m' : Mutex} (hw : l.wants = some m)
    (hh : m' ∈ l.held) : m'.rank < m.rank := by
  cases l <;> cases hw <;> revert hh <;> cases m' <;> decide

theorem InReadPc.rank_lt_of_wants {l : InReadPc} {m m' : Mutex} (hw : l.wants = some m)
    (hh : m' ∈ l.held) : m'.rank < m.rank := by
  cases l <;> cases hw <;> revert hh <;> cases m' <;> decide

theorem YieldPc.rank_lt_of_wants {x : Stream} {l : YieldPc} {m m' : Mutex}
    (hw : l.wants x = some m) (hh : m' ∈ l.held x) : m'.rank < m.rank := by
  cases x <;> cases l <;> cases hw <;> revert hh <;> cases m' <;> decide

/-- **The lock order, on every path.** At every program counter of every call,
including each round of the loops of `out_write` and `in_read`, the mutex the
next step acquires comes after every mutex the call holds. -/
theorem Pc.rank_lt_of_wants {pc : Pc} {m m' : Mutex} (hw : pc.wants = some m)
    (hh : m' ∈ pc.held) : m'.rank < m.rank := by
  cases pc with
  | outWrite l => exact OutWritePc.rank_lt_of_wants hw hh
  | inRead l => exact InReadPc.rank_lt_of_wants hw hh
  | outStandby l | outSetParameters _ l | inStandby l | inSetParameters _ _ l =>
    exact YieldPc.rank_lt_of_wants hw hh
  | adevSetMicMute _ l | adevCloseInputStream l =>
    rcases l with _ | l
    · simp [held] at hh
    · exact YieldPc.rank_lt_of_wants hw hh
  | _ => simp [held] at hh

/-! ### What one step does to the mutexes -/

/-- The three mutexes. -/
def Mutex.all : List Mutex := [.output, .input, .device]

theorem Mutex.mem_all (m : Mutex) : m ∈ Mutex.all := by cases m <;> simp [Mutex.all]

/-- The fields that only calls holding the device mutex write. -/
def Sys.guarded (s : Sys) :=
  (s.output.pcm, s.output.standby, s.input.pcm, s.input.standby, s.dev.mode, s.dev.outDevice,
    s.dev.inDevice, s.dev.inSource, s.dev.activeOut, s.dev.activeIn, s.routed, s.opens)

/-- A step of thread `t` from `s` to `s'` that moves the mutexes as the tables
say: it acquires only a free mutex, and keeps it if the new program counter
holds it; it releases the mutexes its call held that the new program counter
does not hold; it leaves the other mutexes and the other threads as they were,
and it writes the fields the device mutex guards only if it holds or takes that
mutex. -/
structure LockStep (s s' : Sys) (t : ℕ) : Prop where
  free : ∀ m, (s.th t).wants = some m → s.owner m = none
  frame : ∀ u, u ≠ t → s'.th u = s.th u
  owner : ∀ m, s'.owner m =
    if m ∈ (s'.th t).held then (if (s.th t).wants = some m then some t else s.owner m)
    else if m ∈ (s.th t).held ∨ (s.th t).wants = some m then none else s.owner m
  held : ∀ m ∈ (s'.th t).held, m ∈ (s.th t).held ∨ (s.th t).wants = some m
  guard : .device ∉ (s.th t).held → (s.th t).wants ≠ some .device → s'.guarded = s.guarded

/-- The step of `out_write` at the failure of `start_output_stream`: the call
returns having unlocked the output's mutex only. -/
structure LeakStep (s s' : Sys) (t : ℕ) : Prop where
  pc : ∃ inP inLocked restartInput, s.th t = .outWrite (.startOut inP inLocked restartInput)
  frame : ∀ u, u ≠ t → s'.th u = s.th u
  idle : s'.th t = .idle
  owner : s'.owner = Function.update s.owner .output none

/-- The step of `in_read` at `if (out && !out->standby)` when the test fails
though `out_locked` is set: the call goes on holding the output's mutex, which
it would never release. -/
structure SkipStep (s s' : Sys) (t : ℕ) : Prop where
  pc : ∃ outP, s.th t = .inRead (.restartOut outP true) ∧ ¬(outP = true ∧ s.output.standby = false)
  frame : ∀ u, u ≠ t → s'.th u = s.th u
  next : s'.th t = .inRead .startIn
  owner : s'.owner = s.owner

/-- The owners after thread `t` acquires `acq` and then releases `rel`. -/
def lockUpdate (o : Mutex → Option ℕ) (t : ℕ) (acq : Option Mutex) (rel : List Mutex) :
    Mutex → Option ℕ :=
  fun m => if m ∈ rel then none else if acq = some m then some t else o m

/-- A row of the tables: from `pc`, a step that releases `rel` and moves to
`pc'` holds at `pc'` what `pc` held or acquired, less `rel`, and releases only
what it held or acquired. -/
def TableOk (pc pc' : Pc) (rel : List Mutex) : Prop :=
  ∀ m ∈ Mutex.all, (m ∈ pc'.held ↔ (m ∈ pc.held ∨ pc.wants = some m) ∧ m ∉ rel) ∧
    (m ∈ rel → m ∈ pc.held ∨ pc.wants = some m)

instance (pc pc' : Pc) (rel : List Mutex) : Decidable (TableOk pc pc' rel) := by
  unfold TableOk; infer_instance

section

variable {s s' : Sys} {t : ℕ}

theorem LockStep.of_table {pc : Pc} (pc' : Pc) (rel : List Mutex) (ht : s.th t = pc)
    (hth : s'.th = Function.update s.th t pc') (hown : s'.owner = lockUpdate s.owner t pc.wants rel)
    (hf : ∀ m, pc.wants = some m → s.owner m = none)
    (hg : s'.guarded = s.guarded ∨ .device ∈ pc.held ∨ pc.wants = some .device)
    (htab : TableOk pc pc' rel) : LockStep s s' t := by
  subst ht
  refine ⟨hf, fun u hu => by rw [hth, Function.update_noteq hu], fun m => ?_, fun m hm => ?_,
    fun h1 h2 => hg.resolve_right (by tauto)⟩
  · have := htab m (Mutex.mem_all m)
    rw [hown, hth, Function.update_same]
    unfold lockUpdate
    by_cases h1 : m ∈ rel <;> by_cases h2 : (s.th t).wants = some m <;> simp_all
  · rw [hth, Function.update_same] at hm
    exact ((htab m (Mutex.mem_all m)).1.mp hm).1

end

namespace Sys

variable {s s' : Sys} {t : ℕ}

theorem free_of_wants_none {pc : Pc} (h : pc.wants = none) :
    ∀ m, pc.wants = some m → s.owner m = none := fun _ hm => by rw [h] at hm; cases hm

theorem outWriteExitStandby_owner (inP inLocked : Bool) :
    (s.outWriteExitStandby t inP inLocked).owner =
      lockUpdate s.owner t none ((if inP && inLocked then [.input] else []) ++ [.device]) := by
  funext m
  cases inP <;> cases inLocked <;> cases m <;> simp [outWriteExitStandby, lockUpdate]

theorem outWriteStep_lock {r : Bool} {l : OutWritePc} (ht : s.th t = .outWrite l)
    (h : s.outWriteStep t r l = some s') : LockStep s s' t ∨ LeakStep s s' t := by
  cases l with
  | lockOut =>
    obtain ⟨hf, rfl⟩ := map_acquire_eq_some h
    dsimp only
    split
    · exact .inl (.of_table (.outWrite .lockDev) [] ht rfl (by funext m; cases m <;> rfl)
        (fun _ hm => Option.some.inj hm ▸ hf) (.inl rfl) (by decide))
    · exact .inl (.of_table (.outWrite .write) [] ht rfl (by funext m; cases m <;> rfl)
        (fun _ hm => Option.some.inj hm ▸ hf) (.inl rfl) (by decide))
  | lockDev =>
    obtain ⟨hf, rfl⟩ := map_acquire_eq_some h
    unfold outWriteLoop
    dsimp only
    split
    · exact .inl (.of_table (.outWrite .setInSleepReq) [.device] ht rfl
        (by funext m; cases m <;> rfl) (fun _ hm => Option.some.inj hm ▸ hf) (.inr (by decide))
        (by decide))
    · exact .inl (.of_table (.outWrite (.startOut s.dev.activeIn false false)) [] ht rfl
        (by funext m; cases m <;> rfl) (fun _ hm => Option.some.inj hm ▸ hf) (.inr (by decide))
        (by cases s.dev.activeIn <;> decide))
  | setInSleepReq =>
    cases h
    exact .inl (.of_table (.outWrite .lockIn) [] ht rfl (by funext m; cases m <;> rfl)
      (free_of_wants_none rfl) (.inl rfl) (by decide))
  | lockIn =>
    obtain ⟨hf, rfl⟩ := map_acquire_eq_some h
    exact .inl (.of_table (.outWrite .relockDev) [] ht rfl (by funext m; cases m <;> rfl)
      (fun _ hm => Option.some.inj hm ▸ hf) (.inl rfl) (by decide))
  | relockDev =>
    obtain ⟨hf, rfl⟩ := map_acquire_eq_some h
    dsimp only
    split
    · exact .inl (.of_table (.outWrite (.startOut true true !s.input.standby)) [] ht (by simp)
        (by rw [goto_owner, doInStandby_owner]; funext m; cases m <;> rfl)
        (fun _ hm => Option.some.inj hm ▸ hf) (.inr (by decide))
        (by cases s.input.standby <;> decide))
    · exact .inl (.of_table (.outWrite (.startOut false false false)) [.input] ht rfl
        (by funext m; cases m <;> rfl) (fun _ hm => Option.some.inj hm ▸ hf) (.inr (by decide))
        (by decide))
  | startOut inP inLocked restartInput =>
    have hdev : Mutex.device ∈ (Pc.outWrite (.startOut inP inLocked restartInput)).held := by
      simp [Pc.held, OutWritePc.held]
    cases r
    · cases h
      exact .inr ⟨⟨_, _, _, ht⟩, fun u hu => Function.update_noteq hu _ _, by simp, by simp⟩
    · simp only [outWriteStep, startOutputStream_ret, if_true, ne_eq, not_true_eq_false,
        if_false] at h
      split at h <;> (rename_i hc; cases h)
      · exact .inl (.of_table (.outWrite (.restartIn inLocked)) [] ht (by simp)
          (by rw [goto_owner, startOutputStream_owner]; funext m; cases m <;> rfl)
          (free_of_wants_none rfl) (.inr (.inl hdev))
          (by cases inP <;> simp at hc; obtain ⟨rfl, -⟩ := hc; cases inLocked <;> decide))
      · exact .inl (.of_table (.outWrite .write)
          ((if inP && inLocked then [.input] else []) ++ [.device]) ht (by simp)
          (by rw [outWriteExitStandby_owner, startOutputStream_owner]; rfl)
          (free_of_wants_none rfl) (.inr (.inl hdev))
          (by cases inP <;> cases inLocked <;> cases restartInput <;> decide))
  | restartIn inLocked =>
    have hX : ∀ X : Sys, X.th = s.th → X.owner = s.owner →
        LockStep s (X.outWriteExitStandby t true inLocked) t := fun X h₁ h₂ =>
      .of_table (.outWrite .write) ((if inLocked then [.input] else []) ++ [.device]) ht
        (by simp [h₁]) (by rw [outWriteExitStandby_owner, h₂]; rfl) (free_of_wants_none rfl)
        (.inr (.inl (by simp [Pc.held, OutWritePc.held]))) (by cases inLocked <;> decide)
    simp only [outWriteStep] at h
    cases h
    exact .inl (hX _ (by split <;> simp) (by split <;> simp))
  | write => cases h

theorem inReadStep_lock {r : Bool} {l : InReadPc} (ht : s.th t = .inRead l)
    (h : s.inReadStep t r l = some s') : LockStep s s' t ∨ SkipStep s s' t := by
  cases l with
  | lockIn =>
    obtain ⟨hf, rfl⟩ := map_acquire_eq_some h
    dsimp only
    split
    · exact .inl (.of_table (.inRead .lockDev) [] ht rfl (by funext m; cases m <;> rfl)
        (fun _ hm => Option.some.inj hm ▸ hf) (.inl rfl) (by decide))
    · exact .inl (.of_table (.inRead .read) [] ht rfl (by funext m; cases m <;> rfl)
        (fun _ hm => Option.some.inj hm ▸ hf) (.inl rfl) (by decide))
  | lockDev =>
    obtain ⟨hf, rfl⟩ := map_acquire_eq_some h
    unfold inReadLoop
    dsimp only
    split
    · exact .inl (.of_table (.inRead .setOutSleepReq) [.device, .input] ht rfl
        (by funext m; cases m <;> rfl) (fun _ hm => Option.some.inj hm ▸ hf) (.inr (by decide))
        (by decide))
    · exact .inl (.of_table (.inRead (.restartOut s.dev.activeOut false)) [] ht rfl
        (by funext m; cases m <;> rfl) (fun _ hm => Option.some.inj hm ▸ hf) (.inr (by decide))
        (by cases s.dev.activeOut <;> decide))
  | setOutSleepReq =>
    cases h
    exact .inl (.of_table (.inRead .lockOut) [] ht rfl (by funext m; cases m <;> rfl)
      (free_of_wants_none rfl) (.inl rfl) (by decide))
  | lockOut =>
    obtain ⟨hf, rfl⟩ := map_acquire_eq_some h
    exact .inl (.of_table (.inRead .relockIn) [] ht rfl (by funext m; cases m <;> rfl)
      (fun _ hm => Option.some.inj hm ▸ hf) (.inl rfl) (by decide))
  | relockIn =>
    obtain ⟨hf, rfl⟩ := map_acquire_eq_some h
    exact .inl (.of_table (.inRead .relockDev) [] ht rfl (by funext m; cases m <;> rfl)
      (fun _ hm => Option.some.inj hm ▸ hf) (.inl rfl) (by decide))
  | relockDev =>
    obtain ⟨hf, rfl⟩ := map_acquire_eq_some h
    dsimp only
    split
    · exact .inl (.of_table (.inRead (.restartOut true true)) [] ht rfl
        (by funext m; cases m <;> rfl) (fun _ hm => Option.some.inj hm ▸ hf) (.inr (by decide))
        (by decide))
    · exact .inl (.of_table (.inRead (.restartOut false false)) [.output] ht rfl
        (by funext m; cases m <;> rfl) (fun _ hm => Option.some.inj hm ▸ hf) (.inr (by decide))
        (by decide))
  | restartOut outP outLocked =>
    have hdev : Mutex.device ∈ (Pc.inRead (.restartOut outP outLocked)).held := by
      simp [Pc.held, InReadPc.held]
    simp only [inReadStep] at h
    split at h <;> (rename_i hc; cases h)
    · have hX : ∀ X : Sys, X.th = s.th → X.owner = s.owner → LockStep s
          ((if outLocked then (X.release .output).setSleepReq .output false else X).goto t
            (.inRead .startIn)) t := fun X h₁ h₂ =>
        .of_table (.inRead .startIn) (if outLocked then [.output] else []) ht
          (by cases outLocked <;> simp [h₁])
          (by cases outLocked <;>
            simp only [Bool.false_eq_true, ↓reduceIte, goto_owner, release_owner, setSleepReq_owner,
              h₂] <;>
            funext m <;> cases m <;> rfl)
          (free_of_wants_none rfl) (.inr (.inl hdev)) (by cases outP <;> cases outLocked <;> decide)
      exact .inl (hX _ (by simp) (by simp))
    · cases outLocked
      · exact .inl (.of_table (.inRead .startIn) [] ht rfl (by funext m; cases m <;> rfl)
          (free_of_wants_none rfl) (.inr (.inl hdev)) (by cases outP <;> decide))
      · exact .inr ⟨⟨outP, ht, by simpa using hc⟩, fun u hu => Function.update_noteq hu _ _,
          by simp, rfl⟩
  | startIn =>
    have hX : ∀ X : Sys, X.th = s.th → X.owner = s.owner →
        LockStep s ((X.selectDevices.release .device).goto t (.inRead .read)) t := fun X h₁ h₂ =>
      .of_table (.inRead .read) [.device] ht (by simp [h₁])
        (by
          simp only [goto_owner, release_owner, selectDevices_owner, h₂]
          funext m; cases m <;> rfl)
        (free_of_wants_none rfl) (.inr (.inl (by simp [Pc.held, InReadPc.held]))) (by decide)
    simp only [inReadStep] at h
    cases h
    exact .inl (hX _ (by split <;> simp) (by split <;> simp))
  | read =>
    cases h
    exact .inl (.of_table .idle [.input] ht rfl (by funext m; cases m <;> rfl)
      (free_of_wants_none rfl) (.inl rfl) (by decide))

theorem yieldStep_lock {x : Stream} {body : Sys → Sys} {next : Pc} {k : YieldPc → Pc}
    {l : YieldPc} (h : s.yieldStep x body next k t l = some s') (ht : s.th t = k l)
    (hk : ∀ l, (k l).held = l.held x ∧ (k l).wants = l.wants x)
    (hb : ∀ X : Sys, (body X).th = X.th ∧ (body X).owner = X.owner) (hn : next.held = []) :
    LockStep s s' t := by
  cases l with
  | setSleepReq =>
    cases h
    refine .of_table (k .lockStream) [] ht (by simp) ?_ (free_of_wants_none (hk _).2)
      (.inl (by cases x <;> rfl)) ?_
    · funext m; simp [lockUpdate, (hk _).2, YieldPc.wants]
    · unfold TableOk; simp only [(hk _).1, (hk _).2]; cases x <;> decide
  | lockStream =>
    obtain ⟨hf, rfl⟩ := map_acquire_eq_some h
    refine .of_table (k .lockDev) [] ht (by simp) ?_
      (fun _ hm => by rw [(hk _).2] at hm; exact Option.some.inj hm ▸ hf)
      (.inl (by cases x <;> rfl)) ?_
    · funext m; cases x <;> cases m <;> simp [lockUpdate, (hk _).2, YieldPc.wants, Stream.lock]
    · unfold TableOk; simp only [(hk _).1, (hk _).2]; cases x <;> decide
  | lockDev =>
    obtain ⟨hf, rfl⟩ := map_acquire_eq_some h
    refine .of_table next [.device, x.lock] ht (by simp [(hb _).1]) ?_
      (fun _ hm => by rw [(hk _).2] at hm; exact Option.some.inj hm ▸ hf)
      (.inr (.inr (hk _).2)) ?_
    · funext m
      cases x <;> cases m <;>
        simp [lockUpdate, (hk _).2, (hb _).2, YieldPc.wants, Stream.lock, Function.update_apply]
    · unfold TableOk; simp only [(hk _).1, (hk _).2, hn]; cases x <;> decide

theorem outSetParametersBody_th_owner (routing : Option UInt32) (X : Sys) :
    (outSetParametersBody routing X).th = X.th ∧
      (outSetParametersBody routing X).owner = X.owner := by
  unfold outSetParametersBody
  split
  · split_ifs <;> simp
  · simp

theorem inSetParametersBody_th_owner (source routing : Option UInt32) (X : Sys) :
    (inSetParametersBody source routing X).th = X.th ∧
      (inSetParametersBody source routing X).owner = X.owner := by
  have h₁ : (inSetParametersSource source X).th = X.th ∧
      (inSetParametersSource source X).owner = X.owner := by
    unfold inSetParametersSource; split <;> (try split_ifs) <;> simp
  unfold inSetParametersBody inSetParametersRouting
  split <;> simp [apply_ite Sys.th, apply_ite Sys.owner, h₁]

theorem adevSetMicMuteBody_th_owner (state : Bool) (X : Sys) :
    (adevSetMicMuteBody state X).th = X.th ∧ (adevSetMicMuteBody state X).owner = X.owner := by
  unfold adevSetMicMuteBody
  split_ifs <;> simp

theorem runStep_lock {r : Bool} (h : s.runStep t r (s.th t) = some s') :
    LockStep s s' t ∨ LeakStep s s' t ∨ SkipStep s s' t := by
  generalize hpc : s.th t = pc at h
  cases pc with
  | idle => cases h
  | outWrite l => exact (outWriteStep_lock hpc h).imp_right .inl
  | inRead l => exact (inReadStep_lock hpc h).imp_right .inr
  | outStandby l =>
    exact .inl (yieldStep_lock h hpc (fun _ => ⟨rfl, rfl⟩) (fun X => ⟨by simp, by simp⟩) (by rfl))
  | inStandby l =>
    exact .inl (yieldStep_lock h hpc (fun _ => ⟨rfl, rfl⟩) (fun X => ⟨by simp, by simp⟩) (by rfl))
  | outSetParameters routing l =>
    exact .inl (yieldStep_lock h hpc (fun _ => ⟨rfl, rfl⟩) (outSetParametersBody_th_owner routing)
      (by rfl))
  | inSetParameters source routing l =>
    exact .inl (yieldStep_lock h hpc (fun _ => ⟨rfl, rfl⟩)
      (inSetParametersBody_th_owner source routing) (by rfl))
  | adevSetMicMute state l =>
    rcases l with _ | l
    · cases h
      split
      · exact .inl (.of_table (.adevSetMicMute state (some .setSleepReq)) [] hpc rfl
          (by funext m; cases m <;> rfl) (free_of_wants_none rfl) (.inl rfl)
          (by cases state <;> decide))
      · exact .inl (.of_table .idle [] hpc rfl (by funext m; cases m <;> rfl)
          (free_of_wants_none rfl) (.inl rfl) (by cases state <;> decide))
    · simp only [runStep] at h
      exact .inl (yieldStep_lock h hpc (fun _ => ⟨rfl, rfl⟩) (adevSetMicMuteBody_th_owner state)
        (by rfl))
  | adevSetMode mode =>
    obtain ⟨hf, rfl⟩ := map_acquire_eq_some h
    exact .inl (.of_table .idle [.device] hpc rfl (by funext m; cases m <;> rfl)
      (fun _ hm => Option.some.inj hm ▸ hf) (.inr (.inr rfl))
      (by simp [TableOk, Mutex.all, Pc.held, Pc.wants]))
  | adevCloseInputStream l =>
    rcases l with _ | l
    · obtain ⟨hf, rfl⟩ := map_acquire_eq_some h
      exact .inl (.of_table .idle [.device] hpc rfl (by funext m; cases m <;> rfl)
        (fun _ hm => Option.some.inj hm ▸ hf) (.inr (by decide)) (by decide))
    · simp only [runStep] at h
      exact .inl (yieldStep_lock h hpc (fun _ => ⟨rfl, rfl⟩) (fun X => ⟨by simp, by simp⟩)
        (by rfl))
  | outGetPresentationPosition requested =>
    cases requested
    · cases h
      exact .inl (.of_table (.outGetPresentationPosition true) [] hpc rfl
        (by funext m; cases m <;> rfl) (free_of_wants_none rfl) (.inl rfl) (by decide))
    · obtain ⟨hf, rfl⟩ := map_acquire_eq_some h
      exact .inl (.of_table .idle [.output] hpc rfl (by funext m; cases m <;> rfl)
        (fun _ hm => Option.some.inj hm ▸ hf) (.inl rfl) (by decide))
  | adevSetParameters v =>
    cases h
    exact .inl (.of_table .idle [] hpc rfl (by funext m; cases m <;> rfl) (free_of_wants_none rfl)
      (.inl rfl) (by simp [TableOk, Mutex.all, Pc.held, Pc.wants]))

theorem Op.entry_held (op : Op) : op.entry.held = [] := by cases op <;> rfl

/-- **What a step does to the mutexes.** Every step moves them as the tables
say, except two steps of the code: `out_write`'s return after a failed
`start_output_stream`, and `in_read`'s skipped restart with `out_locked`
set. -/
theorem step_lock {a : Act} (h : s.step t a = some s') :
    LockStep s s' t ∨ LeakStep s s' t ∨ SkipStep s s' t := by
  cases a with
  | call op =>
    simp only [step] at h
    split at h <;> rename_i hi <;> cases h
    refine .inl (.of_table op.entry [] hi rfl (by funext m; cases m <;> rfl)
      (free_of_wants_none rfl) (.inl rfl) ?_)
    unfold TableOk
    rw [Op.entry_held]
    decide
  | run r => exact runStep_lock h
  | write bytes kf0 qs fuel status =>
    simp only [step] at h
    split at h <;> rename_i hi
    · obtain ⟨p, -, rfl⟩ := Option.map_eq_some'.mp h
      exact .inl (.of_table .idle [.output] hi rfl (by funext m; cases m <;> rfl)
        (free_of_wants_none rfl) (.inl rfl) (by decide))
    · cases h

/-- **`out_write` returns holding mutexes.** Thread 1's `in_read` starts the
input. Thread 0, idle and holding no mutex, calls `out_write`, which forces the
input to standby; when the output's PCM does not open, the call returns holding
the device's and the input's mutexes. -/
theorem outWrite_returnsHoldingLocks :
    ∃ s₀ s, Reach s₀ ∧
      s₀.runSteps ((0, .call .outWrite) :: List.replicate 5 (0, .run true) ++ [(0, .run false)]) =
        some s ∧
      s₀.th 0 = .idle ∧ s₀.owner .input = none ∧ s₀.owner .device = none ∧
      s.th 0 = .idle ∧ s.owner .input = some 0 ∧ s.owner .device = some 0 :=
  Reach.exists_of_runs ((1, .call .inRead) :: List.replicate 5 (1, .run true)) _ _ (by decide)

end Sys

/-! ### Every mutex the tables give a call is held by its thread -/

/-- Every mutex a thread's program counter holds is held by that thread. -/
def LocksHeld (s : Sys) : Prop := ∀ t m, m ∈ (s.th t).held → s.owner m = some t

section

variable {s s' : Sys} {t : ℕ} {a : Act}

theorem LocksHeld.init : LocksHeld initSys := fun _ _ hm => by simp [initSys, Pc.held] at hm

theorem LocksHeld.step (hs : LocksHeld s) (h : s.step t a = some s') : LocksHeld s' := by
  intro u m hm
  rcases Sys.step_lock h with hl | hl | hl
  · rw [hl.owner m]
    by_cases hu : u = t
    · subst hu
      rw [if_pos hm]
      split
      · rfl
      · exact (hl.held m hm).elim (hs u m) (by tauto)
    · rw [hl.frame u hu] at hm
      have ho := hs u m hm
      have h₁ : m ∉ (s.th t).held := fun h' => hu (Option.some.inj (ho.symm.trans (hs t m h')))
      have h₂ : (s.th t).wants ≠ some m := fun h' => by rw [hl.free m h'] at ho; cases ho
      simp [h₁, h₂, ho]
  · obtain ⟨⟨_, _, _, hpc⟩, hfr, hidle, hown⟩ := hl
    by_cases hu : u = t
    · subst hu; rw [hidle] at hm; simp [Pc.held] at hm
    · rw [hfr u hu] at hm
      rw [hown, Function.update_apply]
      split
      · subst_vars
        have := hs t .output (by simp [hpc, Pc.held, OutWritePc.held])
        exact absurd (Option.some.inj (this.symm.trans (hs u _ hm))) (Ne.symm hu)
      · exact hs u m hm
  · obtain ⟨⟨p, hpc, -⟩, hfr, hnext, hown⟩ := hl
    rw [hown]
    by_cases hu : u = t
    · subst hu
      rw [hnext] at hm
      exact hs u m (by rw [hpc]; simp [Pc.held, InReadPc.held] at hm ⊢; tauto)
    · exact hs u m (by rwa [hfr u hu] at hm)

theorem LocksHeld.unique (hs : LocksHeld s) {m : Mutex} {u v : ℕ} (hu : m ∈ (s.th u).held)
    (hv : m ∈ (s.th v).held) : u = v :=
  Option.some.inj ((hs u m hu).symm.trans (hs v m hv))

/-- The tables hold in every state reached through states that satisfy any `P`. -/
theorem ReachVia.locksHeld {P : Sys → Prop} (h : ReachVia P s) : LocksHeld s := by
  induction h with
  | init => exact .init
  | step _ _ _ hst _ ih => exact ih.step hst

/-- **Only the owner of the device mutex writes what it guards.** In every
reachable state, while thread `u` owns the device mutex, whether its call is in
progress or returned without unlocking it, no step of another thread writes the
fields the device mutex guards: the PCM handles and `standby` flags, the mode,
the devices and input source, the registrations, and what the mixer and the
PCMs were last given. -/
theorem deviceFields_exclusive (hs : Reach s) (h : s.step t a = some s') {u : ℕ} (hne : u ≠ t)
    (hu : s.owner .device = some u) : s'.guarded = s.guarded := by
  have hl := ReachVia.locksHeld hs
  have hnt : .device ∉ (s.th t).held := fun h' =>
    hne (Option.some.inj (hu.symm.trans (hl t _ h')))
  rcases Sys.step_lock h with hl' | ⟨⟨_, _, _, hpc⟩, -⟩ | ⟨⟨_, hpc, -⟩, -⟩
  · refine hl'.guard hnt fun h' => ?_
    rw [hl'.free _ h'] at hu
    cases hu
  · exact (hnt (by simp [hpc, Pc.held, OutWritePc.held])).elim
  · exact (hnt (by simp [hpc, Pc.held, InReadPc.held])).elim

/-- Thread 0's `out_write` fails to start the output and returns owning the
device mutex; thread 1's `in_read` then locks the input, and writes nothing the
device mutex guards. -/
theorem deviceFields_exclusive_leaked :
    ∃ s s', Reach s ∧ s.step 1 (.run true) = some s' ∧ s.th 0 = .idle ∧
      s.owner .device = some 0 ∧ s'.owner .input = some 1 ∧ s'.guarded = s.guarded := by
  obtain ⟨s, hs, hi, hd, hst⟩ := Reach.exists_of_run
    [(0, .call .outWrite), (0, .run true), (0, .run true), (0, .run false), (1, .call .inRead)]
    (fun s => s.th 0 = .idle ∧ s.owner .device = some 0 ∧
      ((s.step 1 (.run true)).map fun s' => s'.owner .input) = some (some 1)) (by decide)
  obtain ⟨s', h', ho⟩ := Option.map_eq_some'.mp hst
  exact ⟨s, s', hs, h', hi, hd, ho, deviceFields_exclusive hs h' (by decide) hd⟩

end

end AudioHw
