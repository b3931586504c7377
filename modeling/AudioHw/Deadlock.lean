/-
# No deadlock among calls that release what they take

The calls take the mutexes in one order, output < input < device, on every
path (`Pc.rank_lt_of_wants`), and a step that makes a thread the owner of a
mutex acquires the one its program counter wants (`Sys.wants_of_acquired`).
In the runs in which no call has returned holding a mutex (`NoLeak`), the
tables are exactly who holds what (`OwnedHeld`): the one step that could break
this without a return, `in_read`'s skipped restart, never happens
(`OutInv.not_skipStep`). A thread waits for another when it wants a mutex the
other holds (`WaitsFor`), and then it cannot step (`Sys.free_of_step`); along
that relation the rank of the wanted mutex grows, so no cycle of waiting
threads is reached.

Without `NoLeak` a cycle is reached: after `out_write` returns holding the
device mutex, its thread's next `out_write` waits for itself.

Key definitions: `NoLeak`, `OwnedHeld`, `WaitsFor`, `Pc.level`.
Key theorems: `lockOrder_noDeadlock`.
-/
import AudioHw.OutputStream
import Mathlib.Logic.Relation

namespace AudioHw

/-- No idle thread holds a mutex: every call that returned released what it
took. -/
def NoLeak (s : Sys) : Prop := ∀ m t, s.owner m = some t → s.th t ≠ .idle

instance (s : Sys) : Decidable (NoLeak s) :=
  decidable_of_iff (∀ m ∈ Mutex.all, ∀ t ∈ s.owner m, s.th t ≠ .idle)
    ⟨fun h m t => h m (Mutex.mem_all m) t, fun h m _ t => h m t⟩

/-- Every held mutex is in its holder's table. -/
def OwnedHeld (s : Sys) : Prop := ∀ m t, s.owner m = some t → m ∈ (s.th t).held

/-- Thread `t` waits for thread `u`: it wants a mutex that `u` holds. -/
def WaitsFor (s : Sys) (t u : ℕ) : Prop := ∃ m, (s.th t).wants = some m ∧ s.owner m = some u

/-- The rank of the mutex a thread at `pc` wants; past every rank if it wants
none. -/
def Pc.level (pc : Pc) : ℕ :=
  match pc.wants with
  | some m => m.rank
  | none => 3

section

variable {s s' : Sys} {t : ℕ} {a : Act}

/-! ### What a step acquires -/

/-- A thread that wants a held mutex cannot step. -/
theorem Sys.free_of_step (h : s.step t a = some s') {m : Mutex} (hw : (s.th t).wants = some m) :
    s.owner m = none := by
  rcases Sys.step_lock h with hl | ⟨⟨_, _, _, hpc⟩, _⟩ | ⟨⟨_, hpc, _⟩, _⟩
  · exact hl.free m hw
  · rw [hpc] at hw; cases hw
  · rw [hpc] at hw; cases hw

/-- A step that makes `t` the owner of a mutex acquires the mutex its program
counter wants. -/
theorem Sys.wants_of_acquired (h : s.step t a = some s') {m : Mutex} (h0 : s.owner m ≠ some t)
    (h1 : s'.owner m = some t) : (s.th t).wants = some m := by
  rcases Sys.step_lock h with hl | hl | hl
  · rw [hl.owner m] at h1
    split_ifs at h1 <;> first | assumption | exact absurd h1 h0
  · rw [hl.owner, Function.update_apply] at h1
    split_ifs at h1
    exact absurd h1 h0
  · rw [hl.owner] at h1
    exact absurd h1 h0

/-! ### The tables are exact while no call leaks -/

/-- A step that moves the mutexes as the tables say keeps the tables exact. -/
theorem OwnedHeld.of_lockStep (hs : LocksHeld s) (ho : OwnedHeld s) (hl : LockStep s s' t) :
    OwnedHeld s' := by
  intro m u hu
  rw [hl.owner m] at hu
  split_ifs at hu with h1 h2 h3
  · cases hu; exact h1
  · by_cases hut : u = t
    · exact hut ▸ h1
    · have hm := (hl.held m h1).resolve_right h2
      exact absurd (Option.some.inj ((hs t m hm).symm.trans hu)) (Ne.symm hut)
  · by_cases hut : u = t
    · exact absurd (.inl (hut ▸ ho m u hu)) h3
    · rw [hl.frame u hut]; exact ho m u hu

theorem OwnedHeld.step (hs : LocksHeld s) (hout : OutInv s) (ho : OwnedHeld s)
    (h : s.step t a = some s') (hn : NoLeak s') : OwnedHeld s' := by
  rcases Sys.step_lock h with hl | ⟨⟨_, _, _, hpc⟩, -, hidle, hown⟩ | hl
  · exact ho.of_lockStep hs hl
  · have hdev := hs t .device (by simp [hpc, Pc.held, OutWritePc.held])
    exact absurd hidle (hn .device t (by rw [hown]; simpa using hdev))
  · exact absurd hl hout.not_skipStep

theorem ReachVia.ownedHeld (h : ReachVia NoLeak s) : OwnedHeld s := by
  induction h with
  | init => exact fun _ _ h => by cases h
  | step t a hr hst hn ih => exact ih.step hr.locksHeld (ReachVia.outInv hr).2 hst hn

/-! ### No cycle of waiting threads -/

/-- Along the waits-for relation the rank of the wanted mutex grows. -/
theorem WaitsFor.level_lt (ho : OwnedHeld s) {u v : ℕ} (h : WaitsFor s u v) :
    (s.th u).level < (s.th v).level := by
  obtain ⟨m, hw, hv⟩ := h
  have hm := ho m v hv
  simp only [Pc.level, hw]
  split
  · exact Pc.rank_lt_of_wants ‹_› hm
  · cases m <;> decide

theorem OwnedHeld.not_waitCycle (ho : OwnedHeld s) (t : ℕ) :
    ¬ Relation.TransGen (WaitsFor s) t t := fun h => by
  have hlt : ∀ {u v}, Relation.TransGen (WaitsFor s) u v → (s.th u).level < (s.th v).level :=
    fun h => by
      induction h with
      | single h => exact h.level_lt ho
      | tail _ h ih => exact ih.trans (h.level_lt ho)
  exact lt_irrefl _ (hlt h)

end

/-- **The lock order, and no deadlock.** At every program counter of every call
the mutex the next step acquires comes after every mutex the call holds; a
step that makes a thread the owner of a mutex acquires that one, while every
mutex the call's table gives it is held by its thread and comes before it; a
thread that wants a held mutex cannot step. In every state reached by runs
whose calls release what they take, the tables are exactly who holds what,
and no thread waits, through a chain of waiting threads, for itself. -/
theorem lockOrder_noDeadlock :
    (∀ (pc : Pc) (m m' : Mutex), pc.wants = some m → m' ∈ pc.held → m'.rank < m.rank) ∧
    (∀ (s s' : Sys) (t : ℕ) (a : Act), Reach s → s.step t a = some s' → ∀ m,
      s.owner m ≠ some t → s'.owner m = some t → (s.th t).wants = some m ∧
        ∀ m' ∈ (s.th t).held, s.owner m' = some t ∧ m'.rank < m.rank) ∧
    (∀ (s s' : Sys) (t : ℕ) (a : Act) (m : Mutex), s.step t a = some s' →
      (s.th t).wants = some m → s.owner m = none) ∧
    (∀ s, ReachVia NoLeak s → (∀ t m, s.owner m = some t ↔ m ∈ (s.th t).held) ∧
      ∀ t, ¬ Relation.TransGen (WaitsFor s) t t) :=
  ⟨fun _ _ _ => Pc.rank_lt_of_wants,
    fun _ _ _ _ hs h _ h0 h1 =>
      have hw := Sys.wants_of_acquired h h0 h1
      ⟨hw, fun m' hm' => ⟨hs.locksHeld _ m' hm', Pc.rank_lt_of_wants hw hm'⟩⟩,
    fun _ _ _ _ _ h hw => Sys.free_of_step h hw,
    fun _ hs => ⟨fun t m => ⟨ReachVia.ownedHeld hs m t, hs.locksHeld t m⟩,
      (ReachVia.ownedHeld hs).not_waitCycle⟩⟩

/-- Thread 0's `out_write` holds the output's mutex; thread 1's `out_standby`
sets the output's `sleep_req` and waits for it, and cannot step. No call has leaked a mutex: the tables are who
holds what, and no chain of waiting threads comes back to thread 1. -/
theorem lockOrder_noDeadlock_waiting :
    ∃ s, ReachVia NoLeak s ∧ WaitsFor s 1 0 ∧ (∀ a, s.step 1 a = none) ∧
      (∀ t m, s.owner m = some t ↔ m ∈ (s.th t).held) ∧ ¬ Relation.TransGen (WaitsFor s) 1 1 := by
  obtain ⟨s, hs, hw, ho⟩ := ReachVia.exists_of_run (P := NoLeak)
    [(0, .call .outWrite), (0, .run true), (1, .call .outStandby), (1, .run true)]
    (fun s => (s.th 1).wants = some .output ∧ s.owner .output = some 0) (by decide) (by decide)
  refine ⟨s, hs, ⟨.output, hw, ho⟩, fun a => Option.eq_none_iff_forall_not_mem.mpr fun s' h => ?_,
    (lockOrder_noDeadlock.2.2.2 s hs).1, (lockOrder_noDeadlock.2.2.2 s hs).2 1⟩
  have hf := lockOrder_noDeadlock.2.2.1 s s' 1 a .output h hw
  rw [ho] at hf
  cases hf

/- A leak deadlocks its thread. Thread 1's `in_read` starts the input; thread
0's `out_write` forces it to standby, fails to open the output, and returns
holding the device and input mutexes; thread 0's next `out_write` then waits for
the device mutex, which it holds itself. -/
example : ∃ s, Reach s ∧ Relation.TransGen (WaitsFor s) 0 0 := by
  obtain ⟨s, hs, hw, ho⟩ := Reach.exists_of_run
    ([(1, .call .inRead)] ++ List.replicate 5 (1, .run true) ++
      [(0, .call .outWrite)] ++ List.replicate 5 (0, .run true) ++ [(0, .run false)] ++
      [(0, .call .outWrite), (0, .run true)])
    (fun s => (s.th 0).wants = some .device ∧ s.owner .device = some 0) (by decide)
  exact ⟨s, hs, .single ⟨.device, hw, ho⟩⟩

end AudioHw
