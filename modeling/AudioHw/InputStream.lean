/-
# The input stream, with one reader

`in_read` counts on the input staying in standby from its `in_lock` to its
`start_input_stream`, though it undoes its locks in its loop; `out_write`
counts on being the only one to restart an input it forced to standby. Both
hold when one `in_read` call at a time runs and the input is not being closed
(`OneReader`). Then, in every reachable state, the input's PCM is open exactly
while the input is `adev->active_in`, exactly while it is out of standby;
`start_output_stream` opens the output's PCM only while the input's is not
open; and when both PCMs are open, the input's was opened after the output's
(`InInv`). With two `in_read` calls at once the last two fail
(`inRead_restartsOutput_inputOpen`).

So no `pcm_open` overwrites an open PCM: `out_write` reaches
`start_output_stream` with the output's PCM not open in every reachable state,
and, with one reader, `start_input_stream` is reached with the input's PCM not
open (`pcmOpen_onlyWhenClosed`); `in_read`'s restart of the output closes it
with `do_out_standby` first. With two readers, one that looped reopens the
input over the PCM the other opened (`inRead_twoReaders_reopensInput`).

A run by a few threads is checked against `OneReader` on those threads only
(`OneReaderOn`), the others being idle.

Key definitions: `OneReader`, `OneReaderOn`, `InReadPc.starting`,
`OutWritePc.restarting`, `Pc.InOk`, `Sys.pcmView`, `InInv`, `twoReaders`.
Key theorems: `Sys.step_inInv`, `inputStream_oneReader`, `pcmOpen_onlyWhenClosed`.
-/
import AudioHw.OutputStream

namespace AudioHw

/-- At most one `in_read` call is in progress, and no `adev_close_input_stream`. -/
structure OneReader (s : Sys) : Prop where
  reader : ∀ u v l l', s.th u = .inRead l → s.th v = .inRead l' → u = v
  noClose : ∀ u l, s.th u ≠ .adevCloseInputStream l

/-- A thread in `in_read`. -/
def Pc.reading : Pc → Bool
  | .inRead _ => true
  | _ => false

/-- A thread in `adev_close_input_stream`. -/
def Pc.closingIn : Pc → Bool
  | .adevCloseInputStream _ => true
  | _ => false

/-- `OneReader` on the threads of `ts`. -/
def OneReaderOn (ts : List ℕ) (s : Sys) : Prop :=
  (∀ u ∈ ts, ∀ v ∈ ts, (s.th u).reading = true → (s.th v).reading = true → u = v) ∧
    ∀ u ∈ ts, (s.th u).closingIn = false

instance (ts : List ℕ) (s : Sys) : Decidable (OneReaderOn ts s) := by
  unfold OneReaderOn; infer_instance

/-- With the threads outside `ts` idle, `OneReader` is checked on `ts`. -/
theorem OneReaderOn.oneReader {ts : List ℕ} {s : Sys} (h : OneReaderOn ts s)
    (hi : ∀ u ∉ ts, s.th u = .idle) : OneReader s := by
  have mem : ∀ {u}, s.th u ≠ .idle → u ∈ ts := fun hu => Classical.byContradiction fun h' => hu (hi _ h')
  refine ⟨fun u v l l' hu hv => h.1 u (mem (by simp [hu])) v (mem (by simp [hv]))
    (by rw [hu]; rfl) (by rw [hv]; rfl), fun u l hu => ?_⟩
  have := h.2 u (mem (by simp [hu]))
  rw [hu] at this
  cases this

/-- `in_read` between its `in_lock` on the input in standby and its
`start_input_stream`: it counts on the input staying in standby. -/
def InReadPc.starting : InReadPc → Bool
  | .lockIn | .read => false
  | _ => true

/-- `out_write` after it forced an active input to standby (`restart_input`),
on its way to restart it. -/
def OutWritePc.restarting : OutWritePc → Bool
  | .startOut _ _ restartInput => restartInput
  | .restartIn _ => true
  | _ => false

/-- A thread in `in_read` that counts on the input staying in standby. -/
def Pc.starting : Pc → Bool
  | .inRead l => l.starting
  | _ => false

/-- A thread in `out_write` on its way to restart the input. -/
def Pc.restarting : Pc → Bool
  | .outWrite l => l.restarting
  | _ => false

/-- What a thread at `pc` knows of the input's `standby` and of `active_in`. -/
def Pc.InOk : Pc → Bool → Bool → Prop
  | .outWrite (.startOut inP inLocked restartInput), _, activeIn =>
    activeIn = false ∧ (restartInput = true → inP = true ∧ inLocked = true)
  | .outWrite (.restartIn inLocked), _, activeIn => activeIn = false ∧ inLocked = true
  | .inRead l, standby, _ => l.starting = true → standby = true
  | _, _, _ => True

/-- The part of the state the invariant reads: the input's PCM, `standby` and
registration, the output's PCM, and the count of `pcm_open` calls. -/
def Sys.pcmView (s : Sys) : Handle × Bool × Bool × Handle × ℕ :=
  (s.input.pcm, s.input.standby, s.dev.activeIn, s.output.pcm, s.opens)

/-- The input stream's invariant with one reader, and the order of the PCMs. -/
structure InInv (s : Sys) : Prop where
  open_iff : s.input.pcm.isOpen = s.dev.activeIn
  standby_iff : s.input.standby = !s.dev.activeIn
  out_lt : ∀ n, s.output.pcm = .opened n → n < s.opens
  in_lt : ∀ n, s.input.pcm = .opened n → n < s.opens
  order : ∀ o i, s.output.pcm = .opened o → s.input.pcm = .opened i → o < i
  threads : ∀ u, (s.th u).InOk s.input.standby s.dev.activeIn
  exclusive : ∀ u v, (s.th u).starting = true → (s.th v).restarting = false

/-! ### The tables of the threads -/

namespace Pc

theorem restarting_of_starting {pc : Pc} (h : pc.starting = true) : pc.restarting = false := by
  cases pc <;> first | rfl | cases h

theorem eq_inRead_of_starting {pc : Pc} (h : pc.starting = true) : ∃ l, pc = .inRead l := by
  cases pc <;> first | exact ⟨_, rfl⟩ | cases h

theorem InOk.toStandby {pc : Pc} {b a : Bool} (h : pc.InOk b a) : pc.InOk true false := by
  rcases pc with _ | l | l <;> try trivial
  · cases l <;> simp_all [InOk]
  · exact fun _ => rfl

theorem InOk.standby {pc : Pc} {b a : Bool} (h : pc.InOk b a) (hs : pc.starting = true) :
    b = true := by
  obtain ⟨l, rfl⟩ := eq_inRead_of_starting hs
  exact h hs

/-- A thread that will restart the input holds its mutex. -/
theorem InOk.input_mem_held {pc : Pc} {b a : Bool} (h : pc.InOk b a)
    (hr : pc.restarting = true) : .input ∈ pc.held := by
  rcases pc with _ | l | l <;> try cases hr
  cases l <;> simp_all [InOk, restarting, OutWritePc.restarting, held, OutWritePc.held]

/-- A thread that holds no device mutex and does not count on the input's
standby knows nothing of the input. -/
theorem inOk_of_free {pc : Pc} (hd : .device ∉ pc.held) (hs : pc.starting = false)
    (b a : Bool) : pc.InOk b a := by
  rcases pc with _ | l | l <;> try trivial
  · cases l <;> simp_all [InOk, held, OutWritePc.held]
  · intro h; simp [starting] at hs; rw [hs] at h; cases h

end Pc

theorem Op.entry_starting (op : Op) : op.entry.starting = false := by cases op <;> rfl

theorem Op.entry_restarting (op : Op) : op.entry.restarting = false := by cases op <;> rfl

theorem Op.entry_inOk (op : Op) (b a : Bool) : op.entry.InOk b a := by
  cases op <;> first | trivial | exact fun h => by cases h

/-! ### The view -/

namespace Sys

variable (s : Sys)

@[simp] theorem pcmView_release (m : Mutex) : (s.release m).pcmView = s.pcmView := rfl
@[simp] theorem pcmView_goto (t : ℕ) (pc : Pc) : (s.goto t pc).pcmView = s.pcmView := rfl
@[simp] theorem pcmView_owner (o : Mutex → Option ℕ) :
    ({ s with owner := o } : Sys).pcmView = s.pcmView := rfl
@[simp] theorem pcmView_setSleepReq (x : Stream) (b : Bool) :
    (s.setSleepReq x b).pcmView = s.pcmView := by cases x <;> rfl
@[simp] theorem pcmView_selectDevices : s.selectDevices.pcmView = s.pcmView := rfl

theorem pcmView_doInStandby : s.doInStandby.pcmView =
    if s.input.standby then s.pcmView else (.null, true, false, s.output.pcm, s.opens) := by
  unfold doInStandby; split <;> rfl

theorem pcmView_doOutStandby : s.doOutStandby.pcmView =
    if s.output.standby then s.pcmView
    else (s.input.pcm, s.input.standby, s.dev.activeIn, .null, s.opens) := by
  unfold doOutStandby; split <;> rfl

theorem pcmView_doInStandby_congr {X Y : Sys} (h : Y.pcmView = X.pcmView) :
    Y.doInStandby.pcmView = X.doInStandby.pcmView := by
  rw [pcmView_doInStandby, pcmView_doInStandby, h]
  simp only [pcmView, Prod.mk.injEq] at h
  rw [h.2.1, h.2.2.2.1, h.2.2.2.2]

theorem pcmView_doOutStandby_congr {X Y : Sys} (h : Y.pcmView = X.pcmView)
    (hsb : Y.output.standby = X.output.standby) :
    Y.doOutStandby.pcmView = X.doOutStandby.pcmView := by
  rw [pcmView_doOutStandby, pcmView_doOutStandby, h, hsb]
  simp only [pcmView, Prod.mk.injEq] at h
  rw [h.1, h.2.1, h.2.2.1, h.2.2.2.2]

end Sys

/-! ### How a step can change the view -/

section

variable {s s' : Sys} {t : ℕ}

theorem InInv.init : InInv initSys :=
  ⟨rfl, rfl, fun _ h => (by cases h), fun _ h => (by cases h), fun _ _ h => (by cases h),
    fun _ => trivial, fun _ _ _ => rfl⟩

/-- A step that makes no thread newly count on the input's standby while
another restarts it, or the other way round, keeps the two apart. -/
theorem InInv.exclusive_of (hi : InInv s) (hfr : ∀ u, u ≠ t → s'.th u = s.th u)
    (hst : (s'.th t).starting = true →
      (s.th t).starting = true ∨ ∀ u, (s.th u).restarting = false)
    (hre : (s'.th t).restarting = true →
      (s.th t).restarting = true ∨ ∀ u, (s.th u).starting = false) :
    ∀ u v, (s'.th u).starting = true → (s'.th v).restarting = false := by
  have hS : ∀ u, (s'.th u).starting = true →
      (s.th u).starting = true ∨ ∀ w, (s.th w).restarting = false := fun u hu => by
    by_cases h : u = t
    · subst h; exact hst hu
    · rw [hfr u h] at hu; exact .inl hu
  have hR : ∀ v, (s'.th v).restarting = true →
      (s.th v).restarting = true ∨ ∀ w, (s.th w).starting = false := fun v hv => by
    by_cases h : v = t
    · subst h; exact hre hv
    · rw [hfr v h] at hv; exact .inl hv
  intro u v hu
  rw [← Bool.not_eq_true]
  intro hv
  by_cases huv : u = v
  · subst huv; rw [Pc.restarting_of_starting hu] at hv; cases hv
  rcases hS u hu with h1 | h1 <;> rcases hR v hv with h2 | h2
  · rw [hi.exclusive u v h1] at h2; cases h2
  · rw [h2 u] at h1; cases h1
  · rw [h1 v] at h2; cases h2
  · by_cases hut : u = t
    · rw [hfr v fun e => huv (hut.trans e.symm), h1 v] at hv; cases hv
    · rw [hfr u hut, h2 u] at hu; cases hu

/-- A step that leaves the view alone, or does to it what `do_in_standby` or
`do_out_standby` does, keeps the invariant, and opens no PCM. -/
theorem InInv.of_step (hi : InInv s) (hfr : ∀ u, u ≠ t → s'.th u = s.th u)
    (hv : s'.pcmView = s.pcmView ∨ s'.pcmView = s.doInStandby.pcmView ∨
      s'.pcmView = s.doOutStandby.pcmView)
    (hok : (s'.th t).InOk s'.input.standby s'.dev.activeIn)
    (hst : (s'.th t).starting = true →
      (s.th t).starting = true ∨ ∀ u, (s.th u).restarting = false)
    (hre : (s'.th t).restarting = true →
      (s.th t).restarting = true ∨ ∀ u, (s.th u).starting = false) :
    InInv s' ∧ (s'.output.pcm = .opened s.opens → s.input.pcm.isOpen = false) := by
  have key : ((s'.input.pcm = s.input.pcm ∧ s'.input.standby = s.input.standby ∧
      s'.dev.activeIn = s.dev.activeIn) ∨
      (s'.input.pcm = .null ∧ s'.input.standby = true ∧ s'.dev.activeIn = false)) ∧
      (s'.output.pcm = s.output.pcm ∨ s'.output.pcm = .null) ∧ s'.opens = s.opens := by
    rw [Sys.pcmView_doInStandby, Sys.pcmView_doOutStandby] at hv
    rcases hv with hv | hv | hv <;> (try split at hv) <;>
      simp only [Sys.pcmView, Prod.mk.injEq] at hv <;> simp [hv]
  obtain ⟨hin, hout, hop⟩ := key
  have hth : ∀ u, u ≠ t → (s'.th u).InOk s'.input.standby s'.dev.activeIn := fun u hu => by
    rw [hfr u hu]
    rcases hin with ⟨-, h2, h3⟩ | ⟨-, h2, h3⟩
    · rw [h2, h3]; exact hi.threads u
    · rw [h2, h3]; exact (hi.threads u).toStandby
  have hnot : s'.output.pcm = .opened s.opens → False := fun h => by
    rcases hout with h' | h' <;> rw [h'] at h
    · exact absurd (hi.out_lt _ h) (lt_irrefl _)
    · cases h
  refine ⟨⟨?_, ?_, fun n h => ?_, fun n h => ?_, fun o i ho hi' => ?_,
    fun u => ?_, hi.exclusive_of hfr hst hre⟩, fun h => absurd h hnot⟩
  · rcases hin with ⟨h1, -, h3⟩ | ⟨h1, -, h3⟩
    · rw [h1, h3, hi.open_iff]
    · rw [h1, h3]; rfl
  · rcases hin with ⟨-, h2, h3⟩ | ⟨-, h2, h3⟩
    · rw [h2, h3, hi.standby_iff]
    · rw [h2, h3]; rfl
  · rcases hout with h' | h' <;> rw [h'] at h
    · rw [hop]; exact hi.out_lt n h
    · cases h
  · rcases hin with ⟨h1, -⟩ | ⟨h1, -⟩ <;> rw [h1] at h
    · rw [hop]; exact hi.in_lt n h
    · cases h
  · rcases hout with h' | h' <;> rw [h'] at ho
    · rcases hin with ⟨h1, -⟩ | ⟨h1, -⟩ <;> rw [h1] at hi'
      · exact hi.order o i ho hi'
      · cases hi'
    · cases ho
  · by_cases hu : u = t
    · exact hu ▸ hok
    · exact hth u hu

/-- `start_output_stream`, called while the input's PCM is not open, keeps the
invariant: the output's PCM is the one just opened, or not open. -/
theorem InInv.of_openOutput (hi : InInv s) (hfr : ∀ u, u ≠ t → s'.th u = s.th u)
    (hipcm : s'.input.pcm = s.input.pcm) (hisb : s'.input.standby = s.input.standby)
    (hact : s'.dev.activeIn = s.dev.activeIn)
    (hout : s'.output.pcm = .opened s.opens ∨ s'.output.pcm.isOpen = false)
    (hop : s'.opens = s.opens + 1) (hclosed : s.input.pcm.isOpen = false)
    (hok : (s'.th t).InOk s.input.standby s.dev.activeIn)
    (hst : (s'.th t).starting = true → (s.th t).starting = true)
    (hre : (s'.th t).restarting = true → (s.th t).restarting = true) :
    InInv s' ∧ (s'.output.pcm = .opened s.opens → s.input.pcm.isOpen = false) := by
  have hlt : ∀ {h : Handle} {n : ℕ}, h = .opened n → (h = .opened s.opens ∨ h.isOpen = false) →
      n < s.opens + 1 := fun he ho => by
    subst he; rcases ho with ho | ho
    · cases ho; omega
    · cases ho
  refine ⟨⟨by rw [hipcm, hact, hi.open_iff], by rw [hisb, hact, hi.standby_iff],
    fun n h => hop ▸ hlt h hout, fun n h => ?_, fun o i _ h => ?_, fun u => ?_,
    hi.exclusive_of hfr (fun h => .inl (hst h)) (fun h => .inl (hre h))⟩, fun _ => hclosed⟩
  · rw [hipcm] at h; rw [hop]; exact Nat.lt_succ_of_lt (hi.in_lt n h)
  · rw [hipcm] at h; simp [h] at hclosed
  · rw [hisb, hact]
    by_cases hu : u = t
    · exact hu ▸ hok
    · rw [hfr u hu]; exact hi.threads u

/-- `start_input_stream`, called while the input is not registered and no other
thread knows anything of the input, keeps the invariant: the input is the one
just opened, out of standby and registered, or its PCM is closed and nothing
else changed. -/
theorem InInv.of_openInput (hi : InInv s) (hfr : ∀ u, u ≠ t → s'.th u = s.th u)
    (hact0 : s.dev.activeIn = false)
    (hin : (s'.input.pcm = .opened s.opens ∧ s'.input.standby = false ∧ s'.dev.activeIn = true) ∨
      (s'.input.pcm = .closed ∧ s'.input.standby = s.input.standby ∧
        s'.dev.activeIn = s.dev.activeIn))
    (hout : s'.output.pcm = s.output.pcm) (hop : s'.opens = s.opens + 1)
    (hothers : ∀ u, u ≠ t → (s.th u).InOk false true)
    (hok : ∀ b a, (s'.th t).InOk b a) (hst : (s'.th t).starting = false)
    (hre : (s'.th t).restarting = false) :
    InInv s' ∧ (s'.output.pcm = .opened s.opens → s.input.pcm.isOpen = false) := by
  have hth : ∀ u, (s'.th u).InOk s'.input.standby s'.dev.activeIn := fun u => by
    by_cases hu : u = t
    · exact hu ▸ hok _ _
    · rw [hfr u hu]
      rcases hin with ⟨-, h2, h3⟩ | ⟨-, h2, h3⟩
      · rw [h2, h3]; exact hothers u hu
      · rw [h2, h3]; exact hi.threads u
  refine ⟨⟨?_, ?_, fun n h => ?_, fun n h => ?_, fun o i ho hi' => ?_, hth,
    hi.exclusive_of hfr (fun h => by rw [hst] at h; cases h)
      (fun h => by rw [hre] at h; cases h)⟩, fun h => ?_⟩
  · rcases hin with ⟨h1, -, h3⟩ | ⟨h1, -, h3⟩ <;> rw [h1, h3]
    · rfl
    · rw [hact0]; rfl
  · rcases hin with ⟨-, h2, h3⟩ | ⟨-, h2, h3⟩ <;> rw [h2, h3]
    · rfl
    · exact hi.standby_iff
  · rw [hout] at h; rw [hop]; exact Nat.lt_succ_of_lt (hi.out_lt n h)
  · rcases hin with ⟨h1, -⟩ | ⟨h1, -⟩ <;> rw [h1] at h <;> cases h
    omega
  · rw [hout] at ho
    rcases hin with ⟨h1, -⟩ | ⟨h1, -⟩ <;> rw [h1] at hi' <;> cases hi'
    exact hi.out_lt o ho
  · rw [hout] at h; exact absurd (hi.out_lt _ h) (lt_irrefl _)

/-- A step to a program counter that neither counts on the input's standby
nor restarts the input. -/
theorem InInv.of_plain (hi : InInv s) (hfr : ∀ u, u ≠ t → s'.th u = s.th u)
    (hv : s'.pcmView = s.pcmView ∨ s'.pcmView = s.doInStandby.pcmView ∨
      s'.pcmView = s.doOutStandby.pcmView)
    (hok : (s'.th t).InOk s'.input.standby s'.dev.activeIn) (hst : (s'.th t).starting = false)
    (hre : (s'.th t).restarting = false) :
    InInv s' ∧ (s'.output.pcm = .opened s.opens → s.input.pcm.isOpen = false) :=
  hi.of_step hfr hv hok (fun h => by rw [hst] at h; cases h) (fun h => by rw [hre] at h; cases h)

end

/-! ### Every step -/

namespace Sys

variable {s s' : Sys} {t : ℕ} {a : Act}

theorem outWriteStep_inInv {r : Bool} {l : OutWritePc} (hs : LocksHeld s) (hi : InInv s)
    (ht : s.th t = .outWrite l) (hfr : ∀ u, u ≠ t → s'.th u = s.th u)
    (h : s.outWriteStep t r l = some s') :
    InInv s' ∧ (s'.output.pcm = .opened s.opens → s.input.pcm.isOpen = false) := by
  have hok := hi.threads t
  rw [ht] at hok
  cases l with
  | lockOut =>
    obtain ⟨-, rfl⟩ := map_acquire_eq_some h
    refine hi.of_plain hfr (.inl (by simp)) ?_ ?_ ?_ <;> dsimp only <;> split <;>
      simp [Pc.InOk, Pc.starting, Pc.restarting, OutWritePc.restarting]
  | lockDev =>
    obtain ⟨-, rfl⟩ := map_acquire_eq_some h
    unfold outWriteLoop
    dsimp only
    split_ifs with hc
    · exact hi.of_plain (fun u (hu : u ≠ t) => by simp [hu]) (.inl (by simp)) (by simp [Pc.InOk])
        (by simp [Pc.starting]) (by simp [Pc.restarting, OutWritePc.restarting])
    · have hA : s.dev.activeIn = false := by
        cases hA : s.dev.activeIn
        · rfl
        · simp [hA, hi.standby_iff] at hc
      exact hi.of_plain (fun u (hu : u ≠ t) => by simp [hu]) (.inl (by simp))
        (by simp [Pc.InOk, hA])
        (by simp [Pc.starting]) (by simp [Pc.restarting, OutWritePc.restarting])
  | setInSleepReq =>
    cases h
    exact hi.of_plain hfr (.inl (by simp)) (by simp [Pc.InOk]) (by simp [Pc.starting])
      (by simp [Pc.restarting, OutWritePc.restarting])
  | lockIn =>
    obtain ⟨-, rfl⟩ := map_acquire_eq_some h
    exact hi.of_plain hfr (.inl (by simp)) (by simp [Pc.InOk]) (by simp [Pc.starting])
      (by simp [Pc.restarting, OutWritePc.restarting])
  | relockDev =>
    obtain ⟨-, rfl⟩ := map_acquire_eq_some h
    dsimp only
    split_ifs with hc
    · -- the input is forced to standby, to be restarted
      have hsb : s.input.standby = false := by rw [hi.standby_iff]; simpa using hc
      refine hi.of_step (fun u (hu : u ≠ t) => by simp [hu])
        (.inr (.inl (by simp [Sys.pcmView_doInStandby]))) (by simp [Pc.InOk, hsb])
        (by simp [Pc.starting]) (fun _ => .inr fun u => ?_)
      cases hu : (s.th u).starting
      · rfl
      · have := (hi.threads u).standby hu
        rw [hsb] at this
        cases this
    · unfold outWriteLoop
      simp only [Bool.false_and, Bool.false_eq_true, ↓reduceIte]
      exact hi.of_plain (fun u (hu : u ≠ t) => by simp [hu]) (.inl (by simp))
        (by simpa [Pc.InOk] using hc)
        (by simp [Pc.starting]) (by simp [Pc.restarting, OutWritePc.restarting])
  | startOut inP inLocked restartInput =>
    obtain ⟨hA, hri⟩ := hok
    have hclosed : s.input.pcm.isOpen = false := by rw [hi.open_iff, hA]
    cases r
    · cases h
      exact hi.of_openOutput hfr (by simp) (by simp) (by simp) (.inr (by simp)) (by simp) hclosed
        (by simp [Pc.InOk]) (by simp [Pc.starting]) (by simp [Pc.restarting])
    · simp only [outWriteStep, startOutputStream_ret, if_true, ne_eq, not_true_eq_false,
        if_false] at h
      split at h <;> (rename_i hc; cases h)
      · simp only [Bool.and_eq_true] at hc
        exact hi.of_openOutput hfr (by simp) (by simp) (by simp) (.inl (by simp)) (by simp) hclosed
          (by simp [Pc.InOk, hA, (hri hc.1.2).2]) (by simp [Pc.starting])
          (fun _ => by rw [ht]; exact hc.1.2)
      · exact hi.of_openOutput hfr (by cases inP <;> simp) (by cases inP <;> simp) (by simp)
          (.inl (by simp)) (by simp) hclosed (by simp [Pc.InOk]) (by simp [Pc.starting])
          (by simp [Pc.restarting, OutWritePc.restarting])
  | restartIn inLocked =>
    obtain ⟨hA, -⟩ := hok
    have hothers : ∀ u, u ≠ t → (s.th u).InOk false true := fun u hu =>
      Pc.inOk_of_free (hs.not_mem (by simp [ht, Pc.held, OutWritePc.held]) hu)
        (by
          cases hst : (s.th u).starting
          · rfl
          · have := hi.exclusive u t hst
            rw [ht] at this
            cases this) _ _
    cases h
    cases r
    · exact hi.of_openInput hfr hA (.inr ⟨by simp [enomem], by simp [enomem], by simp [enomem]⟩)
        (by simp [enomem]) (by simp [enomem]) hothers (fun _ _ => by simp [Pc.InOk])
        (by simp [Pc.starting]) (by simp [Pc.restarting, OutWritePc.restarting])
    · exact hi.of_openInput hfr hA (.inl ⟨by simp, by simp, by simp⟩) (by simp) (by simp) hothers
        (fun _ _ => by simp [Pc.InOk]) (by simp [Pc.starting])
        (by simp [Pc.restarting, OutWritePc.restarting])
  | write => cases h

theorem inReadStep_inInv {r : Bool} {l : InReadPc} (hs : LocksHeld s) (hi : InInv s)
    (hr : OneReader s) (ht : s.th t = .inRead l) (hfr : ∀ u, u ≠ t → s'.th u = s.th u)
    (h : s.inReadStep t r l = some s') :
    InInv s' ∧ (s'.output.pcm = .opened s.opens → s.input.pcm.isOpen = false) := by
  have hok := hi.threads t
  rw [ht] at hok
  have hstart : (s.th t).starting = true → (s.th t).starting = true ∨
      ∀ u, (s.th u).restarting = false := .inl
  cases l with
  | lockIn =>
    obtain ⟨hf, rfl⟩ := map_acquire_eq_some h
    dsimp only
    split_ifs with hc
    · -- the call counts on the input's standby from here on
      refine hi.of_step (fun u (hu : u ≠ t) => by simp [hu]) (.inl (by simp))
        (by simpa [Pc.InOk, InReadPc.starting] using hc) (fun _ => .inr fun u => ?_)
        (by simp [Pc.restarting])
      cases hre : (s.th u).restarting
      · rfl
      · have := hs u .input ((hi.threads u).input_mem_held hre)
        rw [hf] at this
        cases this
    · exact hi.of_plain (fun u (hu : u ≠ t) => by simp [hu]) (.inl (by simp))
        (by simp [Pc.InOk, InReadPc.starting]) (by simp [Pc.starting, InReadPc.starting])
        (by simp [Pc.restarting])
  | lockDev | relockDev =>
    have hsb : s.input.standby = true := hok rfl
    obtain ⟨-, rfl⟩ := map_acquire_eq_some h
    unfold inReadLoop
    dsimp only
    split_ifs <;>
      exact hi.of_step (fun u (hu : u ≠ t) => by simp [hu]) (.inl (by simp))
        (by simp [Pc.InOk, hsb]) (fun h => hstart (by rw [ht]; rfl)) (by simp [Pc.restarting])
  | setOutSleepReq | lockOut | relockIn =>
    have hsb : s.input.standby = true := hok rfl
    first
      | cases h
      | obtain ⟨-, rfl⟩ := map_acquire_eq_some h
    all_goals
      exact hi.of_step hfr (.inl (by simp)) (by simp [Pc.InOk, hsb])
        (fun h => hstart (by rw [ht]; rfl)) (by simp [Pc.restarting])
  | restartOut outP outLocked =>
    have hsb : s.input.standby = true := hok rfl
    have hA : s.dev.activeIn = false := by simpa [hsb] using hi.standby_iff.symm
    have hclosed : s.input.pcm.isOpen = false := by rw [hi.open_iff, hA]
    simp only [inReadStep] at h
    by_cases hc : (outP && !s.output.standby) = true
    · -- the output is restarted while the input's PCM is not open
      rw [if_pos hc] at h
      cases h
      refine hi.of_openOutput hfr (by cases outLocked <;> simp) (by cases outLocked <;> simp)
        (by cases outLocked <;> simp) ?_ (by cases outLocked <;> simp) hclosed
        (by simp [Pc.InOk, hsb]) (fun _ => by rw [ht]; rfl) (by simp [Pc.restarting])
      cases outLocked <;> cases r <;> simp
    · rw [if_neg hc] at h
      cases h
      exact hi.of_step hfr (.inl (by simp)) (by simp [Pc.InOk, hsb])
        (fun h => hstart (by rw [ht]; rfl)) (by simp [Pc.restarting])
  | startIn =>
    have hsb : s.input.standby = true := hok rfl
    have hA : s.dev.activeIn = false := by simpa [hsb] using hi.standby_iff.symm
    have hothers : ∀ u, u ≠ t → (s.th u).InOk false true := fun u hu =>
      Pc.inOk_of_free (hs.not_mem (by simp [ht, Pc.held, InReadPc.held]) hu)
        (by
          cases hst : (s.th u).starting
          · rfl
          · obtain ⟨l', hl'⟩ := Pc.eq_inRead_of_starting hst
            exact absurd (hr.reader u t _ _ hl' ht) hu) _ _
    cases h
    cases r
    · exact hi.of_openInput hfr hA (.inr ⟨by simp [enomem], by simp [enomem], by simp [enomem]⟩)
        (by simp [enomem]) (by simp [enomem]) hothers
        (fun _ _ => by simp [Pc.InOk, InReadPc.starting]) (by simp [Pc.starting, InReadPc.starting])
        (by simp [Pc.restarting])
    · exact hi.of_openInput hfr hA (.inl ⟨by simp, by simp, by simp⟩) (by simp) (by simp) hothers
        (fun _ _ => by simp [Pc.InOk, InReadPc.starting]) (by simp [Pc.starting, InReadPc.starting])
        (by simp [Pc.restarting])
  | read =>
    cases h
    exact hi.of_plain hfr (.inl (by simp)) (by simp [Pc.InOk]) (by simp [Pc.starting])
      (by simp [Pc.restarting])

/-! ### The calls of the common shape -/

theorem outSetParametersBody_pcmView (routing : Option UInt32) (X : Sys) :
    (outSetParametersBody routing X).pcmView = X.pcmView ∨
      (outSetParametersBody routing X).pcmView = X.doOutStandby.pcmView := by
  unfold outSetParametersBody
  split
  · split_ifs
    exacts [.inr rfl, .inl rfl, .inl rfl]
  · exact .inl rfl

theorem inSetParametersBody_pcmView (source routing : Option UInt32) (X : Sys) :
    (inSetParametersBody source routing X).pcmView = X.pcmView ∨
      (inSetParametersBody source routing X).pcmView = X.doInStandby.pcmView := by
  have h₁ : (inSetParametersSource source X).pcmView = X.pcmView := by
    unfold inSetParametersSource; split <;> (try split_ifs) <;> rfl
  unfold inSetParametersBody
  generalize inSetParametersSource source X = Y at h₁
  rw [← h₁, ← pcmView_doInStandby_congr h₁]
  unfold inSetParametersRouting
  split
  · dsimp only
    split_ifs
    exacts [.inr rfl, .inl rfl, .inl rfl]
  · exact .inl rfl

theorem adevSetMicMuteBody_pcmView (state : Bool) (X : Sys) :
    (adevSetMicMuteBody state X).pcmView = X.pcmView ∨
      (adevSetMicMuteBody state X).pcmView = X.doInStandby.pcmView := by
  unfold adevSetMicMuteBody
  split_ifs
  exacts [.inr rfl, .inl rfl]

/-- A call of the common shape keeps the invariant when its body leaves the
view alone or does to it what `do_in_standby` or `do_out_standby` does. -/
theorem yieldStep_inInv {x : Stream} {body : Sys → Sys} {next : Pc} {k : YieldPc → Pc}
    {l : YieldPc} (hi : InInv s) (hfr : ∀ u, u ≠ t → s'.th u = s.th u)
    (h : s.yieldStep x body next k t l = some s')
    (hk : ∀ l b a, (k l).InOk b a) (hks : ∀ l, (k l).starting = false)
    (hkr : ∀ l, (k l).restarting = false) (hn : ∀ b a, next.InOk b a)
    (hns : next.starting = false) (hnr : next.restarting = false)
    (hb : ∀ X, (body X).pcmView = X.pcmView ∨ (body X).pcmView = X.doInStandby.pcmView ∨
      (body X).pcmView = X.doOutStandby.pcmView) :
    InInv s' ∧ (s'.output.pcm = .opened s.opens → s.input.pcm.isOpen = false) := by
  cases l with
  | setSleepReq =>
    cases h
    exact hi.of_plain hfr (.inl (by simp)) (by simp [hk]) (by simp [hks]) (by simp [hkr])
  | lockStream =>
    obtain ⟨-, rfl⟩ := map_acquire_eq_some h
    exact hi.of_plain hfr (.inl (by simp)) (by simp [hk]) (by simp [hks]) (by simp [hkr])
  | lockDev =>
    obtain ⟨-, rfl⟩ := map_acquire_eq_some h
    have hv : ({ s with owner := Function.update s.owner .device (some t) } : Sys).pcmView =
        s.pcmView := rfl
    refine hi.of_plain hfr ?_ (by simp [hn]) (by simp [hns]) (by simp [hnr])
    simp only [pcmView_goto, pcmView_release]
    rcases hb { s with owner := Function.update s.owner .device (some t) } with hb | hb | hb
    · exact .inl (hb.trans hv)
    · exact .inr (.inl (hb.trans (pcmView_doInStandby_congr hv)))
    · exact .inr (.inr (hb.trans (pcmView_doOutStandby_congr hv rfl)))

/-- **Every step keeps the input's invariant**, with one reader, and opens the
output's PCM only while the input's is not open. -/
theorem step_inInv (hs : LocksHeld s) (hi : InInv s) (hr : OneReader s)
    (h : s.step t a = some s') :
    InInv s' ∧ (s'.output.pcm = .opened s.opens → s.input.pcm.isOpen = false) := by
  have hfr := step_frame h
  cases a with
  | call op =>
    simp only [step] at h
    split at h <;> cases h
    exact hi.of_plain hfr (.inl rfl) (by simp [Op.entry_inOk]) (by simp [Op.entry_starting])
      (by simp [Op.entry_restarting])
  | run r =>
    simp only [step] at h
    generalize hpc : s.th t = pc at h
    cases pc with
    | idle => cases h
    | outWrite l => exact outWriteStep_inInv hs hi hpc hfr h
    | inRead l => exact inReadStep_inInv hs hi hr hpc hfr h
    | outStandby l =>
      exact yieldStep_inInv hi hfr h (fun _ _ _ => trivial) (fun _ => rfl) (fun _ => rfl)
        (fun _ _ => trivial) rfl rfl (fun _ => .inr (.inr rfl))
    | inStandby l =>
      exact yieldStep_inInv hi hfr h (fun _ _ _ => trivial) (fun _ => rfl) (fun _ => rfl)
        (fun _ _ => trivial) rfl rfl (fun _ => .inr (.inl rfl))
    | outSetParameters routing l =>
      exact yieldStep_inInv hi hfr h (fun _ _ _ => trivial) (fun _ => rfl) (fun _ => rfl)
        (fun _ _ => trivial) rfl rfl
        (fun X => (outSetParametersBody_pcmView routing X).imp_right .inr)
    | inSetParameters source routing l =>
      exact yieldStep_inInv hi hfr h (fun _ _ _ => trivial) (fun _ => rfl) (fun _ => rfl)
        (fun _ _ => trivial) rfl rfl
        (fun X => (inSetParametersBody_pcmView source routing X).imp_right .inl)
    | adevSetMicMute state l =>
      rcases l with _ | l
      · cases h
        exact hi.of_plain hfr (.inl (by split <;> rfl)) (by split <;> simp [Pc.InOk])
          (by split <;> simp [Pc.starting]) (by split <;> simp [Pc.restarting])
      · simp only [runStep] at h
        exact yieldStep_inInv hi hfr h (fun _ _ _ => trivial) (fun _ => rfl) (fun _ => rfl)
          (fun _ _ => trivial) rfl rfl
          (fun X => (adevSetMicMuteBody_pcmView state X).imp_right .inl)
    | adevSetMode mode =>
      obtain ⟨-, rfl⟩ := map_acquire_eq_some h
      exact hi.of_plain hfr (.inl rfl) (by simp [Pc.InOk]) (by simp [Pc.starting])
        (by simp [Pc.restarting])
    | adevCloseInputStream l => exact absurd hpc (hr.noClose t l)
    | outGetPresentationPosition requested =>
      cases requested
      · cases h
        exact hi.of_plain hfr (.inl (by simp)) (by simp [Pc.InOk]) (by simp [Pc.starting])
          (by simp [Pc.restarting])
      · obtain ⟨-, rfl⟩ := map_acquire_eq_some h
        exact hi.of_plain hfr (.inl (by simp)) (by simp [Pc.InOk]) (by simp [Pc.starting])
          (by simp [Pc.restarting])
    | adevSetParameters v =>
      cases h
      exact hi.of_plain hfr (.inl rfl) (by simp [Pc.InOk]) (by simp [Pc.starting])
        (by simp [Pc.restarting])
  | write bytes kf0 qs fuel status =>
    simp only [step] at h
    split at h
    · obtain ⟨p, -, rfl⟩ := Option.map_eq_some'.mp h
      exact hi.of_plain hfr (.inl rfl) (by simp [Pc.InOk]) (by simp [Pc.starting])
        (by simp [Pc.restarting])
    · cases h

end Sys

theorem ReachVia.inInv {s : Sys} (h : ReachVia OneReader s) : InInv s := by
  induction h with
  | init => exact .init
  | step t a hr hst _ ih => exact (Sys.step_inInv hr.locksHeld ih hr.prop hst).1

/-- **The input stream with one reader.** In every state of a run in which one
`in_read` call at a time runs and the input is not closed: the input's PCM is
open exactly while the input is `adev->active_in`, exactly while it is out of
standby; no step opens the output's PCM while the input's is open; and when both
PCMs are open, the input's was opened after the output's. -/
theorem inputStream_oneReader {s : Sys} (hs : ReachVia OneReader s) :
    s.input.pcm.isOpen = s.dev.activeIn ∧ s.input.standby = !s.dev.activeIn ∧
      (∀ t a s', s.step t a = some s' → s'.output.pcm = .opened s.opens →
        s.input.pcm.isOpen = false) ∧
      ∀ o i, s.output.pcm = .opened o → s.input.pcm = .opened i → o < i :=
  have hi := ReachVia.inInv hs
  ⟨hi.open_iff, hi.standby_iff,
    fun _ _ _ h => (Sys.step_inInv hs.locksHeld hi hs.prop h).2, hi.order⟩

/-- While thread 0's `out_write` plays, thread 1's `in_read`, the one reader,
restarts the output and starts the input: both PCMs are open, the input's
opened after the output's. -/
theorem inputStream_oneReader_bothOpen :
    ∃ s, ReachVia OneReader s ∧ s.dev.activeIn = true ∧ s.input.standby = false ∧
      ∃ o i, s.output.pcm = .opened o ∧ s.input.pcm = .opened i ∧ o < i := by
  obtain ⟨s, hs, ho, hi⟩ := ReachVia.exists_of_run_on (Q := OneReaderOn [0, 1]) [0, 1]
    (fun _ hi h => h.oneReader hi) (outputStarted ++ (1, .call .inRead) :: List.replicate 9 (1, .run true))
    (fun s => s.output.pcm = .opened 1 ∧ s.input.pcm = .opened 2)
    ⟨fun _ _ _ _ h => (by cases h), fun _ _ h => (by cases h)⟩ (by decide) (by decide)
  have ⟨h1, h2, _, h4⟩ := inputStream_oneReader hs
  have ha : s.dev.activeIn = true := by rw [← h1, hi]; rfl
  exact ⟨s, hs, ha, by rw [h2, ha]; rfl, 1, 2, ho, hi, h4 1 2 ho hi⟩

/-! ### Two readers -/

/-- While the output plays, thread 2's `in_read` enters its loop and undoes its
locks; thread 1's `in_read` then restarts the output (the second `pcm_open`),
opens the input (the third) and returns; thread 2 goes on and restarts the
output (the fourth), up to its `start_input_stream`. -/
def twoReaders : List (ℕ × Act) :=
  outputStarted ++ (2, .call .inRead) :: List.replicate 2 (2, .run true) ++
    (1, .call .inRead) :: List.replicate 9 (1, .run true) ++ List.replicate 5 (2, .run true)

/-- **The output is opened after the input.** After `twoReaders`, thread 2
has restarted the output with the input's PCM open. -/
theorem inRead_restartsOutput_inputOpen :
    ∃ s, Reach s ∧ s.input.pcm = .opened 2 ∧ s.output.pcm = .opened 3 :=
  Reach.exists_of_run twoReaders _ (by decide)

/-- After `twoReaders`, thread 2 reaches `start_input_stream` with the input's
PCM, which thread 1 opened, open: its `pcm_open` overwrites it. -/
theorem inRead_twoReaders_reopensInput :
    ∃ s, Reach s ∧ s.th 2 = .inRead .startIn ∧ s.input.pcm.isOpen = true :=
  Reach.exists_of_run twoReaders _ (by decide)

/-! ### No `pcm_open` over an open PCM -/

/-- `out_write` reaches `start_output_stream` with the output's PCM not open:
it saw the output in standby, and only a thread holding the device mutex
keeps a registered output in standby. -/
theorem OutInv.not_open_of_startOut {s : Sys} {t : ℕ} {inP inLocked restartInput : Bool}
    (hs : LocksHeld s) (ho : OutInv s)
    (ht : s.th t = .outWrite (.startOut inP inLocked restartInput)) :
    s.output.pcm.isOpen = false := by
  have hsb : s.output.standby = true := by
    have := ho.threads t
    rw [ht] at this
    exact this rfl
  rw [ho.open_iff]
  cases hA : s.dev.activeOut
  · rfl
  · rcases ho.active hA with h | ⟨u, l, hu⟩
    · rw [hsb] at h; cases h
    · have := hs.unique (by simp [ht, Pc.held, OutWritePc.held] : Mutex.device ∈ (s.th t).held)
        (by simp [hu, Pc.held, OutWritePc.held] : Mutex.device ∈ (s.th u).held)
      subst this
      rw [ht] at hu
      cases hu

/-- With one reader, `start_input_stream` is reached with the input's PCM not
open. -/
theorem InInv.not_open_of_start {s : Sys} {t : ℕ} (hi : InInv s)
    (ht : s.th t = .inRead .startIn ∨ ∃ l, s.th t = .outWrite (.restartIn l)) :
    s.input.pcm.isOpen = false := by
  rw [hi.open_iff]
  rcases ht with ht | ⟨l, ht⟩
  · have hsb := (hi.threads t).standby (by rw [ht]; rfl)
    have := hi.standby_iff
    rw [hsb] at this
    cases h : s.dev.activeIn
    · rfl
    · rw [h] at this; cases this
  · have := hi.threads t
    rw [ht] at this
    exact this.1

/-- `in_read`'s restart of the output calls `pcm_open` only on an output out of
standby, after `do_out_standby` has closed its PCM. -/
theorem Sys.restartOut_closesFirst {s s' : Sys} {t : ℕ} {a : Act} {outP outLocked : Bool}
    (ht : s.th t = .inRead (.restartOut outP outLocked)) (h : s.step t a = some s')
    (ho : s'.opens ≠ s.opens) : s.output.standby = false ∧ s.doOutStandby.output.pcm = .null := by
  cases a with
  | call => simp [Sys.step, ht] at h
  | write => simp [Sys.step, ht] at h
  | run r =>
    simp only [Sys.step, ht, Sys.runStep, Sys.inReadStep] at h
    by_cases hc : (outP && !s.output.standby) = true
    · have hsb : s.output.standby = false := by simpa using (Bool.and_eq_true _ _).mp hc |>.2
      exact ⟨hsb, by simp [Sys.doOutStandby, hsb]⟩
    · rw [if_neg hc] at h
      cases h
      exact absurd rfl ho

end AudioHw
