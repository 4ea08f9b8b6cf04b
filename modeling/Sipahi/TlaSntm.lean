import Sipahi.GuardedExecution
import Mathlib.Logic.Function.Basic

/-!
# The task lifecycle of `SipahiSNTM.tla`

Tasks and channels are any types. The ghosts `kernelPmpInit` and `channelsAtSeal` are part of the
state, as in the specification.
-/
namespace TlaSntm

open GuardedExecution

inductive TaskState where
  | loaded | ready | running | isolated | dead
  deriving DecidableEq, Repr

inductive PmpClass where
  | locked | dynamic | off
  deriving DecidableEq, Repr

def reservedLowEntries : ℕ := 8

def maxPmpEntries : ℕ := 16

variable {Tasks Channels : Type*}

/-- `none` is `"NONE"`. -/
@[ext]
structure State (Tasks Channels : Type*) where
  state : Tasks → TaskState
  pmp : Fin maxPmpEntries → PmpClass
  kernelPmpInit : Fin reservedLowEntries → PmpClass
  miMode : Bool
  mie : Bool
  currentTask : Option Tasks
  sealed : Bool
  channels : Channels → Option Tasks
  channelsAtSeal : Channels → Option Tasks

def init : State Tasks Channels where
  state := fun _ => .loaded
  pmp := fun i => if i.val < reservedLowEntries then .locked else .off
  kernelPmpInit := fun _ => .locked
  miMode := true
  mie := false
  currentTask := none
  sealed := false
  channels := fun _ => none
  channelsAtSeal := fun _ => none

/-- The classes after `ReloadAtomic`. -/
def reload (s : State Tasks Channels) (i : Fin maxPmpEntries) : PmpClass :=
  if h : i.val < reservedLowEntries then s.kernelPmpInit ⟨i, h⟩ else .dynamic

inductive Action (Tasks Channels : Type*) where
  | boot (t : Tasks)
  | loadNative (t : Tasks)
  | dispatch (t : Tasks)
  | preempt (t : Tasks)
  | exitVoluntary (t : Tasks)
  | isolate (t : Tasks)
  | assignChannel (c : Channels) (p : Tasks)
  | sealChannels

/-- M-mode with interrupts off. -/
def InKernel (s : State Tasks Channels) : Prop := s.miMode = true ∧ s.mie = false

def Enabled (s : State Tasks Channels) : Action Tasks Channels → Prop
  | .boot t => s.state t = .loaded
  | .loadNative t => s.state t = .loaded ∧ InKernel s
  | .dispatch t => s.state t = .ready ∧ s.currentTask = none ∧ InKernel s
  | .preempt t => s.currentTask = some t ∧ s.state t = .running
  | .exitVoluntary t => s.currentTask = some t ∧ s.state t = .running
  | .isolate t => s.state t = .running ∨ s.state t = .ready
  | .assignChannel _ _ => s.sealed = false ∧ InKernel s
  | .sealChannels => InKernel s

instance (s : State Tasks Channels) : Decidable (InKernel s) :=
  inferInstanceAs (Decidable (_ ∧ _))

section

variable [DecidableEq Tasks] [DecidableEq Channels]

instance (s : State Tasks Channels) : (a : Action Tasks Channels) → Decidable (Enabled s a)
  | .boot _ => inferInstanceAs (Decidable (_ = _))
  | .loadNative _ => inferInstanceAs (Decidable (_ ∧ _))
  | .dispatch _ => inferInstanceAs (Decidable (_ ∧ _ ∧ _))
  | .preempt _ => inferInstanceAs (Decidable (_ ∧ _))
  | .exitVoluntary _ => inferInstanceAs (Decidable (_ ∧ _))
  | .isolate _ => inferInstanceAs (Decidable (_ ∨ _))
  | .assignChannel _ _ => inferInstanceAs (Decidable (_ ∧ _))
  | .sealChannels => inferInstanceAs (Decidable (InKernel _))

/-- The lifecycle state of one task changes. -/
def State.setState (s : State Tasks Channels) (t : Tasks) (x : TaskState) : State Tasks Channels :=
  { s with state := Function.update s.state t x }

/-- The task leaves the CPU to the kernel. -/
def State.leave (s : State Tasks Channels) : State Tasks Channels :=
  { s with currentTask := none, miMode := true, mie := false }

def effect (s : State Tasks Channels) : Action Tasks Channels → State Tasks Channels
  | .boot t => s.setState t .ready
  | .loadNative t => s.setState t .ready
  | .dispatch t =>
    { s.setState t .running with
      pmp := reload s
      currentTask := some t
      miMode := false
      mie := true }
  | .preempt t => (s.setState t .ready).leave
  | .exitVoluntary t => (s.setState t .isolated).leave
  | .isolate t =>
    if s.currentTask = some t then (s.setState t .isolated).leave else s.setState t .isolated
  | .assignChannel c p => { s with channels := Function.update s.channels c (some p) }
  | .sealChannels =>
    { s with
      sealed := true
      channelsAtSeal := if s.sealed then s.channelsAtSeal else s.channels }

/-- A disabled action is no step. -/
def spec (Tasks Channels : Type*) [DecidableEq Tasks] [DecidableEq Channels] :
    Machine (State Tasks Channels) (Action Tasks Channels) Unit where
  Initial := fun s => s = init
  step := fun s a => if Enabled s a then .ok (effect s a) else .error ()

theorem step_ok {s u : State Tasks Channels} {a : Action Tasks Channels} :
    (spec Tasks Channels).step s a = .ok u ↔ Enabled s a ∧ u = effect s a := by
  simp only [spec]
  split
  · rename_i h
    simp [h, eq_comm]
  · rename_i h
    simp [h]

end

/-! ## The invariants of the specification -/

def KernelPmpInvariant (s : State Tasks Channels) : Prop :=
  ∀ i : Fin maxPmpEntries, ∀ h : i.val < reservedLowEntries, s.pmp i = s.kernelPmpInit ⟨i, h⟩

def UModeRequiresDispatch (s : State Tasks Channels) : Prop :=
  s.miMode = false → s.currentTask ≠ none

def NoIsolatedRunning (s : State Tasks Channels) : Prop :=
  ∀ t, s.state t = .isolated ∨ s.state t = .dead → s.currentTask ≠ some t

def AtMostOneRunning (s : State Tasks Channels) : Prop :=
  ∀ t₁ t₂, s.state t₁ = .running → s.state t₂ = .running → t₁ = t₂

def RunningIsCurrent (s : State Tasks Channels) : Prop :=
  ∀ t, s.state t = .running → s.currentTask = some t

def SealedAtomicityInvariant (s : State Tasks Channels) : Prop :=
  s.sealed = true → ∀ c, s.channels c = s.channelsAtSeal c

/-- What the steps preserve: the processor is in the kernel exactly when nothing is dispatched, and
what is dispatched is what runs. -/
structure Inv (s : State Tasks Channels) : Prop where
  kernelPmp : KernelPmpInvariant s
  kernelInit : ∀ i, s.kernelPmpInit i = .locked
  kernelMode : s.currentTask = none → InKernel s
  userMode : ∀ t, s.currentTask = some t → s.miMode = false ∧ s.mie = true
  running : ∀ t, s.state t = .running ↔ s.currentTask = some t
  sealedAtomicity : SealedAtomicityInvariant s

theorem inv_init : Inv (init : State Tasks Channels) where
  kernelPmp := by
    intro i h
    exact if_pos h
  kernelInit := fun _ => rfl
  kernelMode := fun _ => ⟨rfl, rfl⟩
  userMode := by
    intro t h
    cases h
  running := by
    intro t
    simp [init]
  sealedAtomicity := by
    intro h
    cases h

section

variable [DecidableEq Tasks] {s u : State Tasks Channels}

/-- A task that does not run and will not run changes its lifecycle state. -/
theorem inv_setState {t : Tasks} {x : TaskState} (h : Inv s) (ht : s.state t ≠ .running)
    (hx : x ≠ .running) : Inv (s.setState t x) where
  kernelPmp := h.kernelPmp
  kernelInit := h.kernelInit
  kernelMode := h.kernelMode
  userMode := h.userMode
  running := by
    intro r
    by_cases hr : r = t
    · subst hr
      have hno := mt (h.running r).mpr ht
      simp [State.setState, hx, hno]
    · simpa [State.setState, hr] using h.running r
  sealedAtomicity := h.sealedAtomicity

/-- The running task leaves the CPU. -/
theorem inv_leave {t : Tasks} {x : TaskState} (h : Inv s) (ht : s.currentTask = some t)
    (hx : x ≠ .running) : Inv (s.setState t x).leave where
  kernelPmp := h.kernelPmp
  kernelInit := h.kernelInit
  kernelMode := fun _ => ⟨rfl, rfl⟩
  userMode := by
    intro r hr
    cases hr
  running := by
    intro r
    by_cases hr : r = t
    · subst hr
      simp [State.setState, State.leave, hx]
    · have hno : ¬ s.state r = .running := by
        intro hrun
        rw [h.running, ht] at hrun
        exact hr (Option.some.inj hrun).symm
      simp [State.setState, State.leave, hr, hno]
  sealedAtomicity := h.sealedAtomicity

variable [DecidableEq Channels]

theorem inv_dispatch {t : Tasks} (h : Inv s) (hnone : s.currentTask = none) :
    Inv (effect s (.dispatch t)) where
  kernelPmp := by
    intro i hi
    exact dif_pos hi
  kernelInit := h.kernelInit
  kernelMode := by
    intro hc
    cases hc
  userMode := fun _ _ => ⟨rfl, rfl⟩
  running := by
    intro r
    by_cases hr : r = t
    · subst hr
      simp [effect, State.setState]
    · have hno : ¬ s.state r = .running := by
        rw [h.running, hnone]
        simp
      simp [effect, State.setState, hr, hno, Ne.symm hr]
  sealedAtomicity := h.sealedAtomicity

theorem inv_assign {c : Channels} {p : Tasks} (h : Inv s) (hopen : s.sealed = false) :
    Inv (effect s (.assignChannel c p)) where
  kernelPmp := h.kernelPmp
  kernelInit := h.kernelInit
  kernelMode := h.kernelMode
  userMode := h.userMode
  running := h.running
  sealedAtomicity := by
    intro hsealed
    rw [show (effect s (.assignChannel c p)).sealed = s.sealed from rfl, hopen] at hsealed
    cases hsealed

theorem inv_seal (h : Inv s) : Inv (effect s .sealChannels) where
  kernelPmp := h.kernelPmp
  kernelInit := h.kernelInit
  kernelMode := h.kernelMode
  userMode := h.userMode
  running := h.running
  sealedAtomicity := by
    intro _ c
    cases hs : s.sealed with
    | true => simpa [effect, hs] using h.sealedAtomicity hs c
    | false => simp [effect, hs]

theorem inv_step {a : Action Tasks Channels} (h : Inv s)
    (hstep : (spec Tasks Channels).step s a = .ok u) : Inv u := by
  obtain ⟨henabled, rfl⟩ := step_ok.mp hstep
  cases a with
  | boot t =>
    have hloaded : s.state t = .loaded := henabled
    exact inv_setState h (by simp [hloaded]) (by simp)
  | loadNative t =>
    have hloaded : s.state t = .loaded := henabled.1
    exact inv_setState h (by simp [hloaded]) (by simp)
  | dispatch t => exact inv_dispatch h henabled.2.1
  | preempt t => exact inv_leave h henabled.1 (by simp)
  | exitVoluntary t => exact inv_leave h henabled.1 (by simp)
  | isolate t =>
    by_cases hc : s.currentTask = some t
    · simpa [effect, hc] using inv_leave h hc (x := .isolated) (by simp)
    · have hidle : s.state t ≠ .running := mt (h.running t).mp hc
      simpa [effect, hc] using inv_setState h hidle (x := .isolated) (by simp)
  | assignChannel c p => exact inv_assign h henabled.1
  | sealChannels => exact inv_seal h

theorem inv_reachable (h : Reachable (spec Tasks Channels) anyStep s) : Inv s := by
  apply reachable_invariant (I := Inv) _ _ h
  · rintro s rfl
    exact inv_init
  · intro s a u _ hi _ hstep
    exact inv_step hi hstep

/-- The theorems that the specification states, for any tasks and channels. -/
theorem spec_invariants (h : Reachable (spec Tasks Channels) anyStep s) :
    KernelPmpInvariant s ∧ UModeRequiresDispatch s ∧ NoIsolatedRunning s ∧ AtMostOneRunning s ∧
      RunningIsCurrent s ∧ SealedAtomicityInvariant s := by
  have hi := inv_reachable h
  refine ⟨hi.kernelPmp, ?_, ?_, ?_, fun t => (hi.running t).mp, hi.sealedAtomicity⟩
  · intro huser hnone
    rw [(hi.kernelMode hnone).1] at huser
    cases huser
  · intro t ht hcur
    rw [(hi.running t).mpr hcur] at ht
    rcases ht with ht | ht <;> cases ht
  · intro t₁ t₂ h₁ h₂
    have heq := ((hi.running t₁).mp h₁).symm.trans ((hi.running t₂).mp h₂)
    exact Option.some.inj heq

/-- Two tasks come up, the first is preempted and the second runs alone. -/
theorem spec_invariants_after_preempt : ∃ s, Reachable (spec (Fin 2) (Fin 1)) anyStep s ∧
    s.state 1 = .running ∧ s.sealed = true ∧ AtMostOneRunning s := by
  have hrun : ∃ s, run (spec (Fin 2) (Fin 1)) init [.assignChannel 0 1, .sealChannels, .boot 0,
      .loadNative 1, .dispatch 0, .preempt 0, .dispatch 1] = .ok s ∧ s.state 1 = .running ∧
        s.sealed = true := ⟨_, rfl, rfl, rfl⟩
  obtain ⟨s, hs, hstate, hsealed⟩ := hrun
  have hr : Reachable (spec (Fin 2) (Fin 1)) anyStep s := ⟨init, rfl, run_anyStep hs⟩
  exact ⟨s, hr, hstate, hsealed, (spec_invariants hr).2.2.2.1⟩

end

end TlaSntm
