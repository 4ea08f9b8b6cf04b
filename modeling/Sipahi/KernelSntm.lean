import Sipahi.TlaSntm
import Sipahi.KernelSpatial
import Sipahi.KernelIsolation
import Sipahi.KernelMessages
import Sipahi.KernelHalts

/-!
# The kernel against the lifecycle specification

A slot that boot did not fill is loaded, a task that waits for its period or its budget is ready, and
a task on the CPU is running unless it is isolated. An isolated task that stays on the CPU is what
the specification rules out, and all that it rules out.
-/
namespace KernelSntm

open KernelTypes KernelIpcChannel KernelPmp KernelPmpReload KernelPmpAgreement KernelState
open KernelScheduler KernelTrap KernelEvolution KernelSelection KernelBoot KernelTaskInvariants
open KernelResume KernelSpatial KernelIsolation KernelMessages KernelHalts KernelReference
open GuardedExecution
open TlaSntm (PmpClass)

abbrev SntmState := TlaSntm.State TaskIndex ChannelIndex

abbrev sntm := TlaSntm.spec TaskIndex ChannelIndex

/-! ## The view -/

def lifecycle (executing : Option TaskIndex) (i : TaskIndex) : TaskState → TlaSntm.TaskState
  | .dead => .loaded
  | .isolated => .isolated
  | .ready | .running | .suspended => if executing = some i then .running else .ready

/-- An entry is locked while its address register and the configuration word are those of boot. -/
def lockedClass (P : Platform) (p : Pmp) (i : Fin 16) : PmpClass :=
  if p.cfg0 = (bootPmp P).cfg0 ∧ p.addr i = (bootPmp P).addr i then .locked else .off

def ownerOf (producer : ℕ) : Option TaskIndex :=
  if h : producer < maxTasks then some ⟨producer, h⟩ else none

/-- `executing` has the CPU; the entries from 8 on are of the class `upper`. -/
def viewOf (P : Platform) (executing : Option TaskIndex) (upper : PmpClass) (s : Sys) : SntmState where
  state := fun i => lifecycle executing i (s.tasks i).state
  pmp := fun i => if i.val < TlaSntm.reservedLowEntries then lockedClass P s.pmp i else upper
  kernelPmpInit := fun _ => .locked
  miMode := executing.isNone
  mie := executing.isSome
  currentTask := executing
  sealed := s.pool.sealed
  channels := fun c => ownerOf (s.pool.owners c).1
  channelsAtSeal := fun c => if s.pool.sealed then ownerOf (s.pool.owners c).1 else none

/-- Before the first task: the entries from 8 on are off as long as `pmpcfg2` is zero. -/
def bootView (P : Platform) (s : Sys) : SntmState :=
  viewOf P none (if s.pmp.cfg2 = 0 then .off else .dynamic) s

/-- A task has been dispatched. -/
def dispatched (P : Platform) (s : Sys) : SntmState := viewOf P (some s.currentTask) .dynamic s

/-- Nobody has the CPU. -/
def vacant (P : Platform) (s : Sys) : SntmState := viewOf P none .dynamic s

section

variable {P : Platform} {s u v q : Sys} {e : TrapEvent}

theorem lockedClass_same {p : Pmp} (h : SameLocked (bootPmp P) p) {i : Fin 16} (hi : i.val < 8) :
    lockedClass P p i = .locked := if_pos ⟨h.1, h.2 i hi⟩

theorem view_congr {executing : Option TaskIndex} {upper : PmpClass}
    (htasks : ∀ i, lifecycle executing i (u.tasks i).state = lifecycle executing i (s.tasks i).state)
    (hs : SameLocked (bootPmp P) s.pmp) (hu : SameLocked (bootPmp P) u.pmp)
    (howners : u.pool.owners = s.pool.owners) (hsealed : u.pool.sealed = s.pool.sealed) :
    viewOf P executing upper u = viewOf P executing upper s := by
  have hpmp : (viewOf P executing upper u).pmp = (viewOf P executing upper s).pmp := by
    funext i
    simp only [viewOf]
    split
    · rename_i hi
      have hlow : i.val < 8 := hi
      rw [lockedClass_same hs hlow, lockedClass_same hu hlow]
    · rfl
  have hchannels : (viewOf P executing upper u).channels = (viewOf P executing upper s).channels := by
    simp only [viewOf, howners]
  have hatSeal : (viewOf P executing upper u).channelsAtSeal =
      (viewOf P executing upper s).channelsAtSeal := by
    simp only [viewOf, howners, hsealed]
  exact TlaSntm.State.ext (funext htasks) hpmp rfl rfl rfl rfl hsealed hchannels hatSeal

theorem lifecycle_active {executing : Option TaskIndex} {i : TaskIndex} {x : TaskState}
    (hd : x ≠ .dead) (hi : x ≠ .isolated) :
    lifecycle executing i x = if executing = some i then .running else .ready := by
  cases x with
  | dead => exact absurd rfl hd
  | isolated => exact absurd rfl hi
  | ready | running | suspended => rfl

theorem lifecycle_running {i : TaskIndex} {x : TaskState} (hd : x ≠ .dead) (hi : x ≠ .isolated) :
    lifecycle (some i) i x = .running := (lifecycle_active hd hi).trans (if_pos rfl)

theorem lifecycle_eq {executing : Option TaskIndex} {i : TaskIndex} {x y : TaskState}
    (hd : x = .dead ↔ y = .dead) (hi : x = .isolated ↔ y = .isolated) :
    lifecycle executing i x = lifecycle executing i y := by
  by_cases hdead : x = .dead
  · rw [hdead, hd.mp hdead]
  · by_cases hiso : x = .isolated
    · rw [hiso, hi.mp hiso]
    · rw [lifecycle_active hdead hiso, lifecycle_active (mt hd.mpr hdead) (mt hi.mpr hiso)]

theorem lifecycle_elsewhere {i j : TaskIndex} (h : j ≠ i) (x : TaskState) :
    lifecycle (some i) j x = lifecycle none j x := by
  cases x with
  | dead | isolated => rfl
  | ready | running | suspended => simp [lifecycle, Ne.symm h]

/-! ## Dispatch and the way back -/

theorem dispatch_step (upper : PmpClass) (hd : u.current.state ≠ .dead)
    (hi : u.current.state ≠ .isolated) (hlocked : SameLocked (bootPmp P) u.pmp) :
    sntm.step (viewOf P none upper u) (.dispatch u.currentTask) = .ok (dispatched P u) := by
  apply TlaSntm.step_ok.mpr
  refine ⟨⟨lifecycle_active hd hi, rfl, rfl, rfl⟩, ?_⟩
  have hstate : (dispatched P u).state = (TlaSntm.effect (viewOf P none upper u)
      (.dispatch u.currentTask)).state := by
    funext j
    by_cases hj : j = u.currentTask
    · subst hj
      have hrun : lifecycle (some u.currentTask) u.currentTask (u.tasks u.currentTask).state =
          .running := lifecycle_running hd hi
      simpa [dispatched, viewOf, TlaSntm.effect, TlaSntm.State.setState] using hrun
    · simpa [dispatched, viewOf, TlaSntm.effect, TlaSntm.State.setState, hj] using
        lifecycle_elsewhere hj _
  have hpmp : (dispatched P u).pmp = TlaSntm.reload (viewOf P none upper u) := by
    funext j
    by_cases hj : j.val < TlaSntm.reservedLowEntries
    · simpa [dispatched, viewOf, TlaSntm.reload, hj] using lockedClass_same hlocked hj
    · simp [dispatched, viewOf, TlaSntm.reload, hj]
  exact TlaSntm.State.ext hstate hpmp rfl rfl rfl rfl rfl rfl rfl

theorem leave_step (hd : s.current.state ≠ .dead) (hi : s.current.state ≠ .isolated)
    (a : TlaSntm.Action TaskIndex ChannelIndex) (x : TlaSntm.TaskState)
    (ha : a = .preempt s.currentTask ∧ x = .ready ∨ a = .isolate s.currentTask ∧ x = .isolated) :
    sntm.step (dispatched P s) a = .ok ((dispatched P s).setState s.currentTask x).leave := by
  have hrun : (dispatched P s).state s.currentTask = .running := lifecycle_running hd hi
  apply TlaSntm.step_ok.mpr
  rcases ha with ⟨rfl, rfl⟩ | ⟨rfl, rfl⟩
  · exact ⟨⟨rfl, hrun⟩, rfl⟩
  · have hcur : (dispatched P s).currentTask = some s.currentTask := rfl
    exact ⟨.inl hrun, (if_pos hcur).symm⟩

/-! ## Boot -/

theorem bootView_powerOn (hart : RiscvHart.Hart KernelState.Slot) (mtimecmp : ℕ)
    (userMem : ℕ → UInt8) : bootView P (powerOn P hart mtimecmp userMem) = TlaSntm.init := by
  have hlow : ∀ i : Fin 16, lockedClass P (bootPmp P) i = .locked := fun i => if_pos ⟨rfl, rfl⟩
  have hpmp : (bootView P (powerOn P hart mtimecmp userMem)).pmp =
      (TlaSntm.init : SntmState).pmp := by
    funext i
    have hboot : (powerOn P hart mtimecmp userMem).pmp = bootPmp P := rfl
    have hoff : (bootPmp P).cfg2 = 0 := rfl
    simp only [bootView, viewOf, TlaSntm.init, hboot, hoff, if_true]
    split
    · exact hlow i
    · rfl
  exact TlaSntm.State.ext rfl hpmp rfl rfl rfl rfl rfl rfl rfl

theorem bootView_fill {i : TaskIndex} (hready : (u.tasks i).state = .ready)
    (hothers : ∀ j, j ≠ i → (u.tasks j).state = (s.tasks j).state) (hpmp : u.pmp = s.pmp)
    (hpool : u.pool = s.pool) : bootView P u = (bootView P s).setState i .ready := by
  have hstate : (bootView P u).state = ((bootView P s).setState i .ready).state := by
    funext j
    by_cases hj : j = i
    · subst hj
      simp [bootView, viewOf, TlaSntm.State.setState, hready, lifecycle]
    · simp [bootView, viewOf, TlaSntm.State.setState, hj, hothers j hj]
  have hupper : (bootView P u).pmp = (bootView P s).pmp := by
    simp only [bootView, viewOf, hpmp]
  have hsealed : (bootView P u).sealed = (bootView P s).sealed := by
    simp only [bootView, viewOf, hpool]
  have hchannels : (bootView P u).channels = (bootView P s).channels := by
    simp only [bootView, viewOf, hpool]
  have hatSeal : (bootView P u).channelsAtSeal = (bootView P s).channelsAtSeal := by
    simp only [bootView, viewOf, hpool]
  exact TlaSntm.State.ext hstate hupper rfl rfl rfl rfl hsealed hchannels hatSeal

/-- Every boot call is at most one action. -/
def AtMostOne (x y : SntmState) : Prop := y = x ∨ ∃ a, sntm.step x a = .ok y

theorem AtMostOne.reachable {x y : SntmState} (h : AtMostOne x y)
    (hx : Reachable sntm anyStep x) : Reachable sntm anyStep y := by
  rcases h with rfl | ⟨a, ha⟩
  · exact hx
  · exact hx.next trivial ha

theorem createTask_view (hb : Booted P s) (cfg : TaskConfig) :
    AtMostOne (bootView P s) (bootView P (createTask P s cfg).1) := by
  rw [createTask]
  split
  · rename_i hlt
    split
    · exact .inl rfl
    · have hdead : (s.tasks ⟨s.taskCount, hlt⟩).state = .dead := by
        rcases hb.slot ⟨s.taskCount, hlt⟩ with he | hf
        · rw [he]
          rfl
        · exact absurd hf.inTable (Nat.lt_irrefl _)
      refine .inr ⟨.boot ⟨s.taskCount, hlt⟩, TlaSntm.step_ok.mpr ⟨?_, ?_⟩⟩
      · simp [TlaSntm.Enabled, bootView, viewOf, hdead, lifecycle]
      · exact bootView_fill (by simp) (fun j hj => by simp [hj]) rfl rfl
  · exact .inl rfl

theorem nativeCreateTask_view {cfg : NativeTaskConfig} {r : Sys × Option TaskIndex}
    (hb : Booted P s) (h : nativeCreateTask P s cfg = .ok r) :
    AtMostOne (bootView P s) (bootView P r.1) := by
  rw [nativeCreateTask] at h
  split at h
  · rename_i hlt
    split at h
    · cases h
      exact .inl rfl
    · dsimp only at h
      split at h
      · cases h
        exact .inl rfl
      · split at h
        · cases h
          exact .inl rfl
        · rename_i hfree
          split at h
          · cases h
          · cases h
            have hdead : (s.tasks ⟨cfg.taskId, hlt⟩).state = .dead := by
              rcases hb.slot ⟨cfg.taskId, hlt⟩ with he | hf
              · rw [he]
                rfl
              · exact absurd (.inl hf.ready) hfree
            refine .inr ⟨.loadNative ⟨cfg.taskId, hlt⟩, TlaSntm.step_ok.mpr ⟨?_, ?_⟩⟩
            · simp [TlaSntm.Enabled, TlaSntm.InKernel, bootView, viewOf, hdead, lifecycle]
            · exact bootView_fill (by simp) (fun j hj => by simp [hj]) rfl rfl
  · cases h
    exact .inl rfl

theorem bootAssign_view {channelId producer consumer : ℕ} {reason : String}
    (h : bootAssign s channelId producer consumer reason = .ok u) :
    AtMostOne (bootView P s) (bootView P u) := by
  obtain ⟨pool, hpool, rfl⟩ := bootAssign_ok h
  rw [ChannelPool.assignChannel] at hpool
  split at hpool
  · cases hpool
  · rename_i hopen
    split at hpool
    · rename_i hin
      split at hpool
      · cases hpool
      · rename_i hids
        cases hpool
        have hproducer : producer < maxTasks := by omega
        have hunsealed : s.pool.sealed = false := by simpa using hopen
        refine .inr ⟨.assignChannel ⟨channelId, hin⟩ ⟨producer, hproducer⟩,
          TlaSntm.step_ok.mpr ⟨⟨hunsealed, rfl, rfl⟩, ?_⟩⟩
        have hchannels : (bootView P { s with pool := { s.pool with
            owners := Function.update s.pool.owners ⟨channelId, hin⟩ (producer, consumer) } }).channels =
            Function.update (bootView P s).channels ⟨channelId, hin⟩ (some ⟨producer, hproducer⟩) := by
          funext c
          by_cases hc : c = ⟨channelId, hin⟩
          · subst hc
            simp [bootView, viewOf, ownerOf, hproducer]
          · simp [bootView, viewOf, hc]
        have hatSeal : (bootView P { s with pool := { s.pool with
            owners := Function.update s.pool.owners ⟨channelId, hin⟩ (producer, consumer) } }).channelsAtSeal =
            (bootView P s).channelsAtSeal := by
          funext c
          simp [bootView, viewOf, hunsealed]
        exact TlaSntm.State.ext rfl rfl rfl rfl rfl rfl rfl hchannels hatSeal
    · cases hpool

theorem seal_view : AtMostOne (bootView P s)
    (bootView P { s with pool := s.pool.sealChannels }) := by
  refine .inr ⟨.sealChannels, TlaSntm.step_ok.mpr ⟨⟨rfl, rfl⟩, ?_⟩⟩
  have hatSeal : (bootView P { s with pool := s.pool.sealChannels }).channelsAtSeal =
      (TlaSntm.effect (bootView P s) .sealChannels).channelsAtSeal := by
    funext c
    cases hs : s.pool.sealed with
    | true => simp [bootView, viewOf, TlaSntm.effect, ChannelPool.sealChannels, hs]
    | false => simp [bootView, viewOf, TlaSntm.effect, ChannelPool.sealChannels, hs]
  exact TlaSntm.State.ext rfl rfl rfl rfl rfl rfl rfl rfl hatSeal

theorem bootCall_view {c : BootCall} (hb : Booted P s) (h : bootCall P s c = .ok u) :
    AtMostOne (bootView P s) (bootView P u) := by
  cases c with
  | createTask cfg =>
    cases h
    exact createTask_view hb cfg
  | nativeCreateTask cfg =>
    obtain ⟨r, hr, h⟩ := bind_eq_ok.mp h
    cases h
    exact nativeCreateTask_view hb hr
  | assignChannel | assignNativeChannel => exact bootAssign_view h
  | sealChannels =>
    cases h
    exact seal_view
  | provisionKey | validateFull =>
    cases h
    exact .inl rfl

theorem current_started {best : TaskIndex} (h : Started P q s best) :
    s.current.state ≠ .dead ∧ s.current.state ≠ .isolated := by
  obtain ⟨pmp, rfl⟩ := h.state
  simp [Sys.current]

theorem initial_view (h : (kernel P).Initial s) : Reachable sntm anyStep (dispatched P s) := by
  have hlocked := (resident_initial h).locked
  obtain ⟨q, best, pmp, ⟨hb, hpmp, hview⟩, hbest, rfl⟩ := initial_of_boot
    (I := fun q => Booted P q ∧ q.pmp = bootPmp P ∧ Reachable sntm anyStep (bootView P q))
    (fun hart mtimecmp userMem => ⟨powerOn_booted P hart mtimecmp userMem, rfl,
      .initial (bootView_powerOn hart mtimecmp userMem)⟩)
    (fun hx hu => ⟨bootCall_booted hx.1 hu, (bootCall_frame hu).pmp.trans hx.2.1,
      (bootCall_view hx.1 hu).reachable hx.2.2⟩) h
  obtain ⟨-, hready, -⟩ := bestReady_some hbest
  have hboot : SameLocked (bootPmp P) q.pmp := by
    rw [hpmp]
    exact ⟨rfl, fun _ _ => rfl⟩
  refine hview.next trivial (e := .dispatch best) ?_
  have hstep := dispatch_step (P := P) (if q.pmp.cfg2 = 0 then .off else .dynamic)
    (u := { q with
      tasks := Function.update q.tasks best { q.tasks best with state := .running }
      currentTask := best
      pmp := pmp
      hart := KernelScheduler.enterFirstTask P q.hart best }) (by simp [Sys.current])
    (by simp [Sys.current]) hlocked
  rw [← hstep]
  congr 1
  refine (view_congr ?_ hboot hlocked rfl rfl).symm
  intro i
  by_cases hi : i = best
  · subst hi
    simp [hready, lifecycle]
  · simp [hi]

/-! ## Traps -/

/-- The task on the CPU as the specification would have it: isolated, it has none. -/
def intended (P : Platform) (s : Sys) : SntmState :=
  if s.current.state = .isolated then vacant P s else dispatched P s

theorem trap_vacates (h : Reachable (kernel P) anyStep s) (htrap : trap P s e = .ok v) :
    AtMostOne (intended P s) (vacant P v) := by
  have hi := reachable_taskInv h
  have hdead := (trap_sameTable hi htrap).dead
  have hisolates := trap_isolates hi htrap
  have hlocked := (resident_reachable h).locked
  have hlocked' := (resident_reachable (h.next trivial htrap)).locked
  obtain ⟨howners, hsealed⟩ := trap_owners hi htrap
  have hothers : ∀ i, i ≠ s.currentTask →
      lifecycle none i (v.tasks i).state = lifecycle none i (s.tasks i).state := by
    intro i hne
    exact lifecycle_eq (hdead i) ((hisolates i).trans (by simp [hne]))
  rw [intended]
  split
  · rename_i hgone
    refine .inl (view_congr (fun i => ?_) hlocked hlocked' howners hsealed)
    by_cases hc : i = s.currentTask
    · subst hc
      exact lifecycle_eq (hdead _) ((hisolates _).trans (or_iff_left_of_imp fun _ => hgone))
    · exact hothers i hc
  · rename_i hon
    have hleft : ∀ x, lifecycle none s.currentTask (v.tasks s.currentTask).state = x →
        vacant P v = ((dispatched P s).setState s.currentTask x).leave := by
      intro x hx
      have hsame : vacant P v = viewOf P none .dynamic { s with tasks := v.tasks } :=
        view_congr (fun _ => rfl) hlocked hlocked' howners hsealed
      have hstate : (viewOf P none .dynamic { s with tasks := v.tasks }).state =
          ((dispatched P s).setState s.currentTask x).state := by
        funext i
        by_cases hc : i = s.currentTask
        · subst hc
          simpa [viewOf, TlaSntm.State.setState] using hx
        · simp only [viewOf, dispatched, TlaSntm.State.setState, Function.update_of_ne hc]
          rw [hothers i hc, lifecycle_elsewhere hc]
      rw [hsame]
      exact TlaSntm.State.ext hstate rfl rfl rfl rfl rfl rfl rfl rfl
    by_cases hcause : (v.tasks s.currentTask).state = .isolated
    · refine .inr ⟨.isolate s.currentTask, ?_⟩
      rw [hleft .isolated (by rw [hcause]; rfl)]
      exact leave_step hi.currentAlive hon _ _ (.inr ⟨rfl, rfl⟩)
    · refine .inr ⟨.preempt s.currentTask, ?_⟩
      rw [hleft .ready (lifecycle_active (mt (hdead _).mp hi.currentAlive) hcause)]
      exact leave_step hi.currentAlive hon _ _ (.inl ⟨rfl, rfl⟩)

/-- A trap of the kernel: the interrupted task leaves the CPU, and one that is not isolated takes
it. -/
theorem trap_simulates (h : Reachable (kernel P) anyStep s) (htrap : trap P s e = .ok v)
    (hs : Reachable sntm anyStep (intended P s)) : Reachable sntm anyStep (intended P v) := by
  have hi := reachable_taskInv h
  have hiv := taskInv_trap hi htrap
  have hlocked := (resident_reachable (h.next trivial htrap)).locked
  have hvacant := (trap_vacates h htrap).reachable hs
  by_cases hiso : v.current.state = .isolated
  · rwa [intended, if_pos hiso]
  · rw [intended, if_neg hiso]
    exact hvacant.next trivial (dispatch_step .dynamic hiv.currentAlive hiso hlocked)

theorem intended_reachable (h : Reachable (kernel P) anyStep s) :
    Reachable sntm anyStep (intended P s) := by
  apply reachable_invariant (I := fun s => Reachable sntm anyStep (intended P s)) _ _ h
  · intro s h0
    obtain ⟨q, best, hstarted⟩ := initial_started h0
    rw [intended, if_neg (current_started hstarted).2]
    exact initial_view h0
  · intro s e v hs hview _ htrap
    exact trap_simulates hs htrap hview

end

/-- `mret` has put `MPIE`, bit 7 of `mstatus`, into `MIE`; in the handler `MIE` is zero. -/
def interruptsEnabled (hart : RiscvHart.Hart Slot) : Bool :=
  hart.userMode && (hart.csrs .mstatus).testBit 7

/-- The task executes in the mode in which the hart is. -/
def view (P : Platform) (s : Sys) : SntmState :=
  { dispatched P s with
    miMode := !s.hart.userMode
    mie := interruptsEnabled s.hart }

theorem view_eq {P : Platform} {s : Sys} (h : Reachable (kernel P) anyStep s) :
    view P s = dispatched P s := by
  have hr := resumable_reachable h
  have hmode : (!s.hart.userMode) = false := by rw [hr.userMode, Bool.not_true]
  have hmie : interruptsEnabled s.hart = true := by
    rw [interruptsEnabled, hr.userMode, hr.mstatus]
    decide
  rw [view, hmode, hmie]
  rfl

/-- What the kernel shows while a task executes is a state of the specification if and only if the
task is not isolated. -/
theorem refines_sntm {P : Platform} {s : Sys} (h : Reachable (kernel P) anyStep s) :
    s.hart.userMode = true ∧
      (Reachable sntm anyStep (view P s) ↔ s.current.state ≠ .isolated) := by
  refine ⟨(resumable_reachable h).userMode, ?_⟩
  rw [view_eq h]
  constructor
  · intro hview hiso
    have hrun := ((TlaSntm.inv_reachable hview).running s.currentTask).mpr rfl
    have hshown : (dispatched P s).state s.currentTask = .isolated := by
      simp only [dispatched, viewOf]
      rw [show (s.tasks s.currentTask).state = .isolated from hiso]
      rfl
    rw [hshown] at hrun
    cases hrun
  · intro hon
    have hintended := intended_reachable h
    rwa [intended, if_neg hon] at hintended

/-- After the boot of the two legacy and the two native tasks the first one runs. -/
theorem refines_sntm_at_boot : ∃ s, Reachable (kernel referencePlatform) anyStep s ∧
    Reachable sntm anyStep (view referencePlatform s) ∧
      (view referencePlatform s).state 0 = .running := by
  obtain ⟨s, hs, ht⟩ := endsWith_iff.mp (show endsWith (scenario bootInit [])
    (fun s => decide (s.current.state ≠ .isolated ∧
      (view referencePlatform s).state 0 = .running)) = true by decide +kernel)
  obtain ⟨hon, hrun⟩ := of_decide_eq_true ht
  exact ⟨s, scenario_reachable hs, (refines_sntm (scenario_reachable hs)).2.mpr hon, hrun⟩

end KernelSntm
