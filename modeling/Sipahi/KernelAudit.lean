import Sipahi.KernelIsolation
import Sipahi.KernelRecorder

/-!
# The flight recorder as an audit trail

What the policy does to a task or to the system is on record after the trap in which it does it,
and the record can be read back.
-/
namespace KernelAudit

open KernelTypes KernelPolicy KernelBlackbox KernelRecorder KernelState KernelTrapFrame
open KernelScheduler KernelSyscall KernelTrap KernelHandlers KernelEvolution KernelSelection
open KernelBoot KernelTaskInvariants KernelIsolation KernelReference RiscvHart GuardedExecution

/-- A record without data. -/
def note (event : BlackboxEvent) (taskId : ℕ) : RecorderCall := .log event (UInt8.ofNat taskId) []

/-- What a step wrote, and that its effects are in it: isolations, unless the task left of its own
accord, restarts, and the beginning and the end of the degraded mode. -/
structure OnRecord (exits : Prop) (s u : Sys) (written : List RecorderCall) : Prop where
  blackbox : u.blackbox = written.foldl KernelRecorder.apply s.blackbox
  isolated : ∀ i, (u.tasks i).state = .isolated →
    (s.tasks i).state = .isolated ∨ note .policyIsolate i.val ∈ written ∨ exits
  restarted : ∀ i, u.restartCounts i = s.restartCounts i ∨ note .taskRestart i.val ∈ written
  degraded : s.degraded = false → s.degradeLogged = false → u.degraded = true →
    ∃ i : TaskIndex, note .policyDegrade i.val ∈ written ∨ note .policyFailover i.val ∈ written
  recovered : s.degraded = true → u.degraded = false → note .kernelBoot kernelBootId ∈ written
  flag : (s.degraded = false → s.degradeLogged = false) →
    u.degraded = false → u.degradeLogged = false

def Audited (exits : Prop) (n : ℕ) (s u : Sys) : Prop :=
  ∃ written : List RecorderCall, written.length ≤ n ∧ OnRecord exits s u written

/-- Nothing is recorded, and nothing happens that would have to be. -/
structure Silent (s u : Sys) : Prop where
  blackbox : u.blackbox = s.blackbox
  restartCounts : u.restartCounts = s.restartCounts
  degraded : u.degraded = s.degraded
  degradeLogged : u.degradeLogged = s.degradeLogged
  isolated : ∀ i, (u.tasks i).state = .isolated → (s.tasks i).state = .isolated

section

variable {P : Platform} {s u v w : Sys} {exits : Prop} {n m : ℕ} {xs ys : List RecorderCall}

/-- A step that leaves the mode of the system alone. -/
theorem onRecord_sameMode (hlog : u.blackbox = xs.foldl KernelRecorder.apply s.blackbox)
    (hisolated : ∀ i, (u.tasks i).state = .isolated →
      (s.tasks i).state = .isolated ∨ note .policyIsolate i.val ∈ xs ∨ exits)
    (hrestarted : ∀ i, u.restartCounts i = s.restartCounts i ∨ note .taskRestart i.val ∈ xs)
    (hd : u.degraded = s.degraded) (hl : u.degradeLogged = s.degradeLogged) :
    OnRecord exits s u xs := by
  constructor
  case blackbox => exact hlog
  case isolated => exact hisolated
  case restarted => exact hrestarted
  case degraded =>
    intro hs _ hu
    rw [hd, hs] at hu
    cases hu
  case recovered =>
    intro hs hu
    rw [hd, hs] at hu
    cases hu
  case flag =>
    intro hs hu
    rw [hd] at hu
    exact hl.trans (hs hu)

theorem OnRecord.trans (a : OnRecord exits s u xs) (b : OnRecord exits u v ys) :
    OnRecord exits s v (xs ++ ys) := by
  constructor
  case blackbox => rw [List.foldl_append, ← a.blackbox, b.blackbox]
  case isolated =>
    intro i hi
    rcases b.isolated i hi with hu | hnote | hexit
    · rcases a.isolated i hu with hs | hnote | hexit
      · exact .inl hs
      · exact .inr (.inl (List.mem_append_left ys hnote))
      · exact .inr (.inr hexit)
    · exact .inr (.inl (List.mem_append_right xs hnote))
    · exact .inr (.inr hexit)
  case restarted =>
    intro i
    rcases b.restarted i with hv | hnote
    · rcases a.restarted i with hu | hnote
      · exact .inl (hv.trans hu)
      · exact .inr (List.mem_append_left ys hnote)
    · exact .inr (List.mem_append_right xs hnote)
  case degraded =>
    intro hs hlogged hv
    cases hu : u.degraded with
    | true =>
      obtain ⟨i, hnote⟩ := a.degraded hs hlogged hu
      exact ⟨i, hnote.imp (List.mem_append_left ys) (List.mem_append_left ys)⟩
    | false =>
      obtain ⟨i, hnote⟩ := b.degraded hu (a.flag (fun _ => hlogged) hu) hv
      exact ⟨i, hnote.imp (List.mem_append_right xs) (List.mem_append_right xs)⟩
  case recovered =>
    intro hs hv
    cases hu : u.degraded with
    | true => exact List.mem_append_right xs (b.recovered hu hv)
    | false => exact List.mem_append_left ys (a.recovered hs hu)
  case flag => exact fun hs => b.flag (a.flag hs)

theorem Audited.trans (a : Audited exits n s u) (b : Audited exits m u v) :
    Audited exits (n + m) s v := by
  obtain ⟨xs, hxs, ha⟩ := a
  obtain ⟨ys, hys, hb⟩ := b
  refine ⟨xs ++ ys, ?_, ha.trans hb⟩
  rw [List.length_append]
  omega

theorem Audited.mono (h : Audited exits n s u) (hnm : n ≤ m) : Audited exits m s u := by
  obtain ⟨xs, hxs, ha⟩ := h
  exact ⟨xs, hxs.trans hnm, ha⟩

theorem Silent.refl (s : Sys) : Silent s s := ⟨rfl, rfl, rfl, rfl, fun _ h => h⟩

theorem Silent.trans (a : Silent s u) (b : Silent u v) : Silent s v where
  blackbox := b.blackbox.trans a.blackbox
  restartCounts := b.restartCounts.trans a.restartCounts
  degraded := b.degraded.trans a.degraded
  degradeLogged := b.degradeLogged.trans a.degradeLogged
  isolated i h := a.isolated i (b.isolated i h)

theorem Silent.audited (h : Silent s u) : Audited exits 0 s u := by
  refine ⟨[], le_rfl, onRecord_sameMode h.blackbox ?_ ?_ h.degraded h.degradeLogged⟩
  · exact fun i hi => .inl (h.isolated i hi)
  · exact fun i => .inl (congrFun h.restartCounts i)

theorem Audited.silent (a : Audited exits n s u) (b : Silent u v) : Audited exits n s v :=
  a.trans b.audited

theorem Silent.before (a : Silent s u) (b : Audited exits n u v) : Audited exits n s v := by
  have hs : Audited exits 0 s u := a.audited
  simpa using hs.trans b

theorem log_eq (b : Blackbox) (event : BlackboxEvent) (taskId : ℕ) (data : List UInt8) :
    b.log event taskId data = KernelRecorder.apply b (.log event (UInt8.ofNat taskId) data) := by
  have hrecord : record b.nextSeq b.tick event taskId data =
      record b.nextSeq b.tick event (UInt8.ofNat taskId).toNat data := by
    rw [record, record, UInt8.ofNat_toNat]
  rw [KernelRecorder.apply, Blackbox.log, Blackbox.log, hrecord]

theorem log_audited (s : Sys) (event : BlackboxEvent) (taskId : ℕ) (data : List UInt8) :
    Audited exits 1 s (s.log event taskId data) := by
  refine ⟨[.log event (UInt8.ofNat taskId) data], le_rfl,
    onRecord_sameMode (log_eq _ _ _ _) ?_ ?_ rfl rfl⟩
  · exact fun i hi => .inl hi
  · exact fun i => .inl rfl

theorem setTask_silent {i : TaskIndex} {t : Task}
    (h : t.state = .isolated → (s.tasks i).state = .isolated) : Silent s (s.setTask i t) := by
  refine ⟨rfl, rfl, rfl, rfl, fun j hj => ?_⟩
  by_cases hji : j = i
  · subst j
    rw [setTask_tasks, Function.update_self] at hj
    exact h hj
  · rwa [setTask_tasks, Function.update_of_ne hji] at hj

theorem ipcFrame_silent (h : IpcFrame s u) : Silent s u := by
  have hstate := h.field Task.state fun _ => rfl
  obtain ⟨⟨tasks, pool, mem, rfl⟩, -⟩ := h
  exact ⟨rfl, rfl, rfl, rfl, fun i hi => (hstate i).symm.trans hi⟩

/-! ## The policy -/

theorem restartTask_silent (P : Platform) (s : Sys) (id : TaskIndex) :
    Silent s (restartTask P s id) := by
  obtain ⟨hart, hrest⟩ := restartTask_rest P s id
  rw [hrest]
  exact ⟨rfl, rfl, rfl, rfl, fun _ h => h⟩

/-- The counter of a task moves for a restart of this task only. -/
theorem applyPolicy_counts {counts : TaskIndex → ℕ} {id : TaskIndex} {event : PolicyEvent}
    {dal : ℕ} (i : TaskIndex) :
    (applyPolicy counts id.val event dal).2 i = counts i ∨
      (decideAction event.code (restartCountOf counts id.val) dal = .restart ∧ i = id) := by
  simp only [applyPolicy, lockstepAction_eq]
  split
  · rename_i hrestart
    by_cases hi : i = id
    · exact .inr ⟨hrestart.1, hi⟩
    · exact .inl (Function.update_of_ne hi _ _)
  · exact .inl rfl

/-- What an isolation leaves alone. -/
structure Others (id : TaskIndex) (s u : Sys) : Prop where
  blackbox : u.blackbox = s.blackbox
  restartCounts : u.restartCounts = s.restartCounts
  degraded : u.degraded = s.degraded
  degradeLogged : u.degradeLogged = s.degradeLogged
  isolated : ∀ i, i ≠ id → (u.tasks i).state = .isolated → (s.tasks i).state = .isolated

theorem markIsolated_others (s : Sys) (id : TaskIndex) : Others id s (markIsolated s id) := by
  have hframe := markIsolated_frame s id
  obtain ⟨tasks, cache, hrest⟩ := hframe.rest
  refine ⟨by rw [hrest], by rw [hrest], by rw [hrest], by rw [hrest], ?_⟩
  intro i hid hi
  rwa [hframe.others i hid] at hi

theorem degradeSystem_onRecord {q : Sys} (hlog : q.blackbox = xs.foldl KernelRecorder.apply s.blackbox)
    (hcounts : q.restartCounts = s.restartCounts) (htasks : q.tasks = s.tasks)
    (hnoted : s.degradeLogged = false → ∃ i : TaskIndex,
      note .policyDegrade i.val ∈ xs ∨ note .policyFailover i.val ∈ xs) :
    OnRecord exits s (degradeSystem q) xs where
  blackbox := hlog
  isolated i hi := .inl (htasks ▸ degradeSystem_spares q i hi)
  restarted i := .inl (congrFun hcounts i)
  degraded _ hlogged _ := hnoted hlogged
  recovered _ hu := Bool.noConfusion (hu : true = false)
  flag _ hu := Bool.noConfusion (hu : true = false)

/-- Whatever the policy answers leaves one record at most. -/
theorem respond_audited {id : TaskIndex} {event : PolicyEvent} {dal : ℕ}
    (hid : (s.tasks id).id = id.val) (h : respond P s id id.val event dal = .ok u) :
    Audited exits 1 s u := by
  have hcounts : ∀ i, (applyPolicy s.restartCounts id.val event dal).2 i = s.restartCounts i ∨
      (decideAction event.code (restartCountOf s.restartCounts id.val) dal = .restart ∧ i = id) :=
    fun i => applyPolicy_counts i
  simp only [respond, consultPolicy, applyPolicy_fst] at h
  generalize (applyPolicy s.restartCounts id.val event dal).2 = counts at h hcounts
  generalize decideAction event.code (restartCountOf s.restartCounts id.val) dal = mode at h hcounts
  have hkept : mode ≠ .restart → counts = s.restartCounts := by
    intro hmode
    funext i
    exact (hcounts i).resolve_right fun hr => hmode hr.1
  cases mode with
  | restart =>
    cases h
    have hs := restartTask_silent P
      (({ s with restartCounts := counts } : Sys).log .taskRestart (s.tasks id).id []) id
    refine ⟨[note .taskRestart id.val], le_rfl,
      onRecord_sameMode ?_ ?_ ?_ hs.degraded hs.degradeLogged⟩
    · rw [← hid]
      exact hs.blackbox.trans (log_eq _ _ _ _)
    · exact fun i hi => .inl (hs.isolated i hi)
    · intro i
      rcases hcounts i with hi | ⟨-, rfl⟩
      · exact .inl ((congrFun hs.restartCounts i).trans hi)
      · exact .inr (List.mem_singleton_self _)
  | isolate =>
    obtain ⟨rfl, -⟩ := isolateTask_ok h
    have hs := markIsolated_others
      (({ s with restartCounts := counts } : Sys).log .policyIsolate (s.tasks id).id []) id
    refine ⟨[note .policyIsolate id.val], le_rfl,
      onRecord_sameMode ?_ ?_ ?_ hs.degraded hs.degradeLogged⟩
    · rw [← hid]
      exact hs.blackbox.trans (log_eq _ _ _ _)
    · intro i hi
      by_cases hid : i = id
      · exact .inr (.inl (hid ▸ List.mem_singleton_self _))
      · exact .inl (hs.isolated i hid hi)
    · exact fun i => .inl (congrFun (hs.restartCounts.trans (hkept (by decide))) i)
  | degrade =>
    simp only [applyAction] at h
    split at h
    · rename_i hlogged
      cases h
      refine ⟨[], Nat.zero_le 1, degradeSystem_onRecord rfl (hkept (by decide)) rfl ?_⟩
      intro hd
      exact absurd (hd.symm.trans hlogged) (by decide)
    · cases h
      refine ⟨[note .policyDegrade id.val], le_rfl,
        degradeSystem_onRecord ?_ (hkept (by decide)) rfl ?_⟩
      · rw [← hid]
        exact log_eq _ _ _ _
      · exact fun _ => ⟨id, .inl (List.mem_singleton_self _)⟩
  | failover =>
    cases h
    refine ⟨[note .policyFailover id.val], le_rfl,
      degradeSystem_onRecord ?_ (hkept (by decide)) rfl ?_⟩
    · rw [← hid]
      exact log_eq _ _ _ _
    · exact fun _ => ⟨id, .inr (List.mem_singleton_self _)⟩
  | alert =>
    cases h
    have hs : Silent s { s with restartCounts := counts } :=
      ⟨rfl, hkept (by decide), rfl, rfl, fun _ hi => hi⟩
    exact hs.audited.mono (Nat.zero_le 1)
  | shutdown => cases h

theorem logged_respond_audited {id : TaskIndex} {event : PolicyEvent} {dal recordId : ℕ}
    {record : BlackboxEvent} {data : List UInt8} (hid : (s.tasks id).id = id.val)
    (h : respond P (s.log record recordId data) id id.val event dal = .ok u) :
    Audited exits 2 s u :=
  (log_audited ..).trans (respond_audited hid h)

theorem current_id (hi : TaskInv s) : (s.tasks s.currentTask).id = s.currentTask.val :=
  (hi.created _ hi.currentAlive).2

theorem handleTaskFault_audited (hi : TaskInv s) (h : handleTaskFault P s = .ok u) :
    Audited exits 1 s u := by
  rw [handleTaskFault, if_pos (current_inTable hi)] at h
  exact respond_audited (current_id hi) h

/-! ## The phases of a tick -/

theorem tryRecoverFromDegrade_audited (s : Sys) : Audited exits 1 s (tryRecoverFromDegrade s) := by
  rw [tryRecoverFromDegrade]
  split
  · refine ⟨[note .kernelBoot kernelBootId], le_rfl, log_eq _ _ _ _, ?_, ?_, ?_, ?_, ?_⟩
    · intro i hi
      rw [log_tasks] at hi
      dsimp only at hi
      split at hi
      · rcases recoverTask_state (s.tasks i) with hstate | ⟨-, hstate⟩
        · exact .inl (hstate ▸ hi)
        · exact absurd (hstate.symm.trans hi) (by decide)
      · exact .inl hi
    · exact fun _ => .inl rfl
    · exact fun _ _ hu => Bool.noConfusion (hu : false = true)
    · exact fun _ _ => List.mem_singleton_self _
    · exact fun _ _ => rfl
  · exact (Silent.refl s).audited.mono (Nat.zero_le 1)

theorem periodPhase_silent (s : Sys) : Silent s (periodPhase s) := by
  refine ⟨rfl, rfl, rfl, rfl, fun i hi => ?_⟩
  simp only [periodPhase] at hi
  split at hi
  · rcases periodTask_state (s.tasks i) with hstate | ⟨-, hstate⟩
    · rwa [hstate] at hi
    · exact absurd (hstate.symm.trans hi) (by decide)
  · exact hi

theorem tickBeforeWatchdog_audited (h : tickBeforeWatchdog s = .ok u) : Audited exits 2 s u := by
  rw [tickBeforeWatchdog_ok h]
  have htick : Audited exits 1 s { s with blackbox := s.blackbox.advanceTick } := by
    refine ⟨[.advanceTick], le_rfl, onRecord_sameMode rfl ?_ ?_ rfl rfl⟩
    · exact fun _ hi => .inl hi
    · exact fun _ => .inl rfl
  exact (htick.silent (periodPhase_silent _)).trans (tryRecoverFromDegrade_audited _)

theorem watchdogTask_audited {id : TaskIndex} (hi : TaskInv s) (h : watchdogTask P s id = .ok u) :
    Audited exits 2 s u := by
  have hcount : Silent s (s.setTask id (watchdogCount (s.tasks id))) :=
    setTask_silent fun hiso => (watchdogCount_state (s.tasks id)).symm.trans hiso
  simp only [watchdogTask] at h
  split at h
  · split at h
    · rename_i htimeout
      obtain ⟨q, hq, h⟩ := bind_eq_ok.mp h
      cases h
      have hrun := timesOut_running htimeout
      have hid : (s.tasks id).id = id.val := (hi.created id (by simp [hrun])).2
      rw [hid] at hq
      have hid' : ((s.setTask id (watchdogCount (s.tasks id))).tasks id).id = id.val := by
        rw [setTask_tasks, Function.update_self, config_id (watchdogCount_config _), hid]
      have hrespond : Audited exits 2 s q := hcount.before (logged_respond_audited hid' hq)
      exact hrespond.silent (setTask_silent fun hiso => hiso)
    · cases h
      exact hcount.audited.mono (Nat.zero_le 2)
  · cases h
    exact (Silent.refl s).audited.mono (Nat.zero_le 2)

theorem watchdogRun_audited {ids : List TaskIndex} (hi : TaskInv s)
    (h : run (watchdogLoop P) s ids = .ok u) : Audited exits (2 * ids.length) s u := by
  induction ids generalizing s with
  | nil =>
    obtain rfl : s = u := Except.ok.inj h
    exact (Silent.refl s).audited
  | cons id ids ih =>
    obtain ⟨q, hq, hrest⟩ := run_cons_ok.mp h
    have hstep : Audited exits 2 s q := watchdogTask_audited hi hq
    have hinv := taskInv_evolves (watchdogTask_evolves hq) hi
    refine (hstep.trans (ih hinv hrest)).mono ?_
    rw [List.length_cons]
    omega

theorem budgetPhase_audited (hi : TaskInv s) (h : budgetPhase P s s.currentTask = .ok u) :
    Audited exits 2 s u := by
  simp only [budgetPhase] at h
  split at h
  · rename_i hactive
    have hcharge : Silent s (s.setTask s.currentTask (chargeTick (s.tasks s.currentTask))) :=
      setTask_silent fun hiso => absurd hiso (chargeTick_spares hactive)
    split at h
    · rw [current_id hi] at h
      refine hcharge.before (logged_respond_audited ?_ h)
      rw [setTask_tasks, Function.update_self, config_id (chargeTick_config _), current_id hi]
    · cases h
      exact hcharge.audited.mono (Nat.zero_le 2)
  · cases h
    exact (Silent.refl s).audited.mono (Nat.zero_le 2)

theorem tickPhases_audited (hi : TaskInv s) (h : tickPhases P s = .ok u) :
    Audited exits 20 s u := by
  rw [tickPhases] at h
  obtain ⟨q, hq, h⟩ := bind_eq_ok.mp h
  obtain ⟨x, hx, h⟩ := bind_eq_ok.mp h
  have hqe := tickBeforeWatchdog_evolves hq
  have hxe := hqe.trans (watchdogPhase_evolves hx)
  rw [← hxe.currentTask] at h
  have hloop : Audited exits 16 q x := watchdogRun_audited (taskInv_evolves hqe hi) hx
  have hbudget : Audited exits 2 x u := budgetPhase_audited (taskInv_evolves hxe hi) h
  exact ((tickBeforeWatchdog_audited hq).trans hloop).trans hbudget

theorem deadlinePhase_audited {mtime : ℕ} (hi : TaskInv s)
    (h : deadlinePhase P s mtime = .ok u) : Audited exits 2 s u := by
  have harm : Silent s (armNextTick s mtime) := ⟨rfl, rfl, rfl, rfl, fun _ hiso => hiso⟩
  have hcurrent := current_id hi
  have hid : ((armNextTick s mtime).tasks s.currentTask).id = s.currentTask.val := hcurrent
  obtain ⟨-, h⟩ := deadlinePhase_ok.mp h
  simp only [answerDeadline] at h
  split at h
  · exact harm.before (logged_respond_audited hid h)
  · cases h
    exact harm.audited.mono (Nat.zero_le 2)

/-! ## System calls -/

theorem watchdogKick_audited (hi : TaskInv s) (h : watchdogKick P s = .ok u) :
    Audited exits 2 s u := by
  rw [watchdogKick] at h
  split at h
  · obtain ⟨q, hq, h⟩ := bind_eq_ok.mp h
    cases h
    have hclear : Silent q (clearWatchdog q s.currentTask) := setTask_silent fun hiso => hiso
    simp only [checkKickWindow] at hq
    split at hq
    · rw [show s.current.id = s.currentTask.val from current_id hi] at hq
      exact (logged_respond_audited (current_id hi) hq).silent hclear
    · cases hq
      exact hclear.audited.mono (Nat.zero_le 2)
  · cases h
    exact (Silent.refl s).audited.mono (Nat.zero_le 2)

theorem sysCapInvoke_audited {cap resource action x : ℕ} (hi : TaskInv s)
    (h : sysCapInvoke P s cap resource action = .ok (u, x)) : Audited exits 2 s u := by
  have hcurrent := current_id hi
  have hcount : ∀ counts, Silent s { s with capFailCount := counts } :=
    fun _ => ⟨rfl, rfl, rfl, rfl, fun _ hiso => hiso⟩
  rw [sysCapInvoke] at h
  split at h
  · cases h
    exact (Silent.refl s).audited.mono (Nat.zero_le 2)
  · split at h
    · cases h
      exact (Silent.refl s).audited.mono (Nat.zero_le 2)
    · obtain ⟨v, hv, h⟩ := bind_eq_ok.mp h
      cases h
      simp only [recordCapResult] at hv
      split at hv
      · cases hv
        exact (hcount _).audited.mono (Nat.zero_le 2)
      · split at hv
        · have hid : (({ s with capFailCount := Function.update s.capFailCount s.currentTask 0 } :
              Sys).tasks s.currentTask).id = s.currentTask.val := hcurrent
          exact (hcount _).before (logged_respond_audited hid hv)
        · cases hv
          exact (hcount _).audited.mono (Nat.zero_le 2)

theorem select_silent {flow : Flow}
    (h : doPrioritySelectAndSwitch P s s.currentTask = .ok (u, flow)) : Silent s u := by
  have hspares := select_spares h
  rcases select_cases h with ⟨-, rfl, -⟩ | ⟨next, -, hs⟩
  · exact .refl _
  · obtain ⟨pmp, rfl⟩ := hs.state
    exact ⟨rfl, rfl, rfl, rfl, fun i hi => (hspares i).mp hi⟩

theorem yield_silent {flow : Flow} (h : scheduleYield P s = .ok (u, flow)) : Silent s u := by
  rw [scheduleYield] at h
  split at h
  · cases h
    exact .refl s
  · exact select_silent h

/-! ## Traps -/

/-- At most twenty-two records a trap. -/
theorem serves_audited {mtime mcause syscallId arg0 arg1 arg2 : ℕ} {r : Option ℕ} (hi : TaskInv s)
    (h : Serves P s mtime mcause syscallId arg0 arg1 arg2 w r) :
    Audited (Leaves mcause syscallId) 22 s w := by
  have hcounted := ipcFrame_silent (incrementSyscallCount_frame s)
  have hinv := taskInv_evolves (ipcFrame_evolves (incrementSyscallCount_frame s)).1 hi
  cases h with
  | ignored | badSyscall => exact (Silent.refl s).audited.mono (Nat.zero_le _)
  | emptyTick _ hv _ => exact (deadlinePhase_audited hi hv).mono (by decide)
  | tick _ hv hq hw =>
    have hve := (deadlinePhase_evolves hi.currentAlive hv).1
    have hvi := taskInv_evolves hve hi
    rw [← (tickPhases_evolves hq).currentTask] at hw
    exact ((deadlinePhase_audited hi hv).trans (tickPhases_audited hvi hq)).silent
      (select_silent hw)
  | capInvoke _ _ hw => exact (hcounted.before (sysCapInvoke_audited hinv hw)).mono (by decide)
  | ipcSend =>
    have hsend := ipcFrame_silent (sysIpcSend_frame P (incrementSyscallCount s) arg0 arg1)
    exact (hcounted.trans hsend).audited.mono (Nat.zero_le _)
  | ipcRecv =>
    have hrecv := ipcFrame_silent (sysIpcRecv_frame P (incrementSyscallCount s) arg0 arg1)
    exact (hcounted.trans hrecv).audited.mono (Nat.zero_le _)
  | taskInfo => exact hcounted.audited.mono (Nat.zero_le _)
  | yield _ _ hq hw =>
    exact ((hcounted.before (watchdogKick_audited hinv hq)).silent (yield_silent hw)).mono
      (by decide)
  | exit he hid hq hw =>
    obtain ⟨rfl, -⟩ := isolateTask_ok hq
    have hothers := markIsolated_others (incrementSyscallCount s) s.currentTask
    have hexit : Audited (Leaves mcause syscallId) 0 (incrementSyscallCount s)
        (markIsolated (incrementSyscallCount s) s.currentTask) := by
      refine ⟨[], le_rfl,
        onRecord_sameMode hothers.blackbox ?_ ?_ hothers.degraded hothers.degradeLogged⟩
      · exact fun _ _ => .inr (.inr ⟨he, hid⟩)
      · exact fun i => .inl (congrFun hothers.restartCounts i)
    exact ((hcounted.before hexit).silent (yield_silent hw)).mono (Nat.zero_le _)
  | @taskFault event taskId _ _ _ hw =>
    have hinv := taskInv_evolves ((Annotated.refl s).log event taskId []).evolves hi
    exact ((log_audited s event taskId []).trans (handleTaskFault_audited hinv hw)).mono (by decide)
  | stackOverflow _ _ hw => exact (logged_respond_audited (current_id hi) hw).mono (by decide)

theorem trap_audited {e : TrapEvent} (hi : TaskInv s) (h : trap P s e = .ok v) :
    Audited (Leaves e.mcause (e.regs .a7)) 22 s v := by
  obtain ⟨u, args, w, r, hrun, rfl⟩ := trap_ok h
  have hargs := entered_args hrun.entered
  have hserves := serves_audited (taskInv_sameKernel (entered_sameKernel hrun.entered) hi)
    hrun.serves
  rw [hargs.mcause, hargs.syscallId] at hserves
  obtain ⟨k, -, -, rfl⟩ := enterHandler_ok hrun.entered
  have hleave : Silent w (leaveHandler P (w, r)) := by
    cases r <;> exact ⟨rfl, rfl, rfl, rfl, fun _ hiso => hiso⟩
  have henter : Silent s { takeTrap s e with hart := handlerPrologue P e.scratch k } :=
    ⟨rfl, rfl, rfl, rfl, fun _ hiso => hiso⟩
  exact henter.before (hserves.silent hleave)

/-! ## The window -/

/-- The recorder is one that was only ever logged to, and the first entry into the degraded mode is
still to be logged. -/
structure Taped (s : Sys) : Prop where
  records : ∃ l, Records s.blackbox l
  flag : s.degraded = false → s.degradeLogged = false

theorem records_apply {b : Blackbox} {l : EventLog} (h : Records b l) (c : RecorderCall) :
    Records (KernelRecorder.apply b c) (l.apply c) := by
  cases c with
  | log event taskId data => exact records_log h event taskId data
  | advanceTick => exact records_advanceTick h

theorem records_foldl {b : Blackbox} {l : EventLog} (h : Records b l) (calls : List RecorderCall) :
    Records (calls.foldl KernelRecorder.apply b) (calls.foldl EventLog.apply l) := by
  induction calls generalizing b l with
  | nil => exact h
  | cons c calls ih => exact ih (records_apply h c)

/-- What the calls add to the log. -/
theorem foldl_events (l : EventLog) (calls : List RecorderCall) :
    ∃ added, (calls.foldl EventLog.apply l).events = l.events ++ added ∧
      added.length ≤ calls.length ∧ ∀ event taskId data, .log event taskId data ∈ calls →
        ∃ e ∈ added, e.event = event ∧ e.taskId = taskId := by
  induction calls generalizing l with
  | nil => exact ⟨[], by simp, le_rfl, by simp⟩
  | cons c calls ih =>
    obtain ⟨added, hadded, hlength, hmem⟩ := ih (l.apply c)
    cases c with
    | advanceTick =>
      refine ⟨added, hadded, hlength.trans (Nat.le_succ _), fun event taskId data hin => ?_⟩
      exact hmem event taskId data (by simpa using hin)
    | log event taskId data =>
      let first : LoggedEvent := ⟨l.ticks, event, taskId, data⟩
      refine ⟨first :: added, ?_, Nat.succ_le_succ hlength, ?_⟩
      · rw [List.foldl_cons, hadded, EventLog.apply, List.append_assoc, List.singleton_append]
      · intro event' taskId' data' hin
        rcases List.mem_cons.mp hin with hhead | htail
        · cases hhead
          exact ⟨first, List.mem_cons_self, rfl, rfl⟩
        · obtain ⟨e, he, heq⟩ := hmem event' taskId' data' htail
          exact ⟨e, List.mem_cons_of_mem _ he, heq⟩

/-- How many records the trap wrote. -/
def newRecords (s v : Sys) : ℕ := wrappingSub32 v.blackbox.nextSeq s.blackbox.nextSeq

/-- One of the records that the trap wrote, and that `read` gives. -/
def OnTape (s v : Sys) (event : BlackboxEvent) (taskId : ℕ) : Prop :=
  ∃ k r, v.blackbox.count - newRecords s v ≤ k ∧ v.blackbox.read k = some r ∧
    r.event = event.code ∧ r.taskId = UInt8.ofNat taskId

/-- Fewer calls than the ring has places are all still there. -/
theorem written_onTape {l : EventLog} (h : Records s.blackbox l) (hxs : xs.length ≤ 22)
    (hv : v.blackbox = xs.foldl KernelRecorder.apply s.blackbox) :
    newRecords s v ≤ 22 ∧ ∀ event taskId, note event taskId ∈ xs → OnTape s v event taskId := by
  obtain ⟨added, hadded, hlength, hmem⟩ := foldl_events l xs
  have hrecords := records_foldl h xs
  rw [← hv] at hrecords
  have hnew : newRecords s v = added.length := by
    rw [newRecords, hrecords.nextSeq, h.nextSeq, hadded, List.length_append, wrappingSub32]
    omega
  refine ⟨by omega, fun event taskId hin => ?_⟩
  obtain ⟨e, he, hevent, htask⟩ := hmem _ _ _ hin
  obtain ⟨j, hj, hget⟩ := List.mem_iff_getElem.mp he
  have hcount := hrecords.count
  rw [hadded, List.length_append] at hcount
  unfold blackboxMaxRecords at hcount
  -- the place of the record in the window
  have hk : v.blackbox.count - added.length + j < v.blackbox.count := by omega
  obtain ⟨e', he', hread⟩ := read_eq hrecords hk
  have hindex : (xs.foldl EventLog.apply l).events.length - v.blackbox.count +
      (v.blackbox.count - added.length + j) = l.events.length + j := by
    rw [hadded, List.length_append]
    omega
  rw [hindex] at he' hread
  rw [hadded, List.getElem?_append_right (Nat.le_add_right _ _), Nat.add_sub_cancel_left,
    List.getElem?_eq_getElem hj, hget] at he'
  obtain rfl := Option.some.inj he'
  refine ⟨_, _, by omega, hread, ?_, ?_⟩
  · rw [← hevent]
    rfl
  · rw [← htask]
    simp [recordOf, record, BlackboxRecord.setCrc]

theorem taped_initial (h : (kernel P).Initial s) : Taped s := by
  have hcold := (initial_counters h).1.blackbox
  obtain ⟨q, best, pmp, hq, -, rfl⟩ := initial_of_boot
    (I := fun q => q.degradeLogged = false)
    (fun _ _ _ => rfl) (fun hs hu => (bootCall_frame hu).degradeLogged.trans hs) h
  constructor
  case records => exact ⟨.init, hcold ▸ records_init⟩
  case flag => exact fun _ => hq

theorem taped_trap {e : TrapEvent} (hi : TaskInv s) (ht : Taped s) (h : trap P s e = .ok v) :
    Taped v := by
  obtain ⟨⟨l, hl⟩, hflag⟩ := ht
  obtain ⟨xs, -, ha⟩ := trap_audited hi h
  constructor
  case records => exact ⟨_, ha.blackbox ▸ records_foldl hl xs⟩
  case flag => exact ha.flag hflag

theorem taped_reachable (h : Reachable (kernel P) anyStep s) : Taped s := by
  apply reachable_invariant _ _ h
  · exact fun _ => taped_initial
  · intro q e u hr hq _ hu
    exact taped_trap (reachable_taskInv hr) hq hu

end

/-- An isolation, a counted restart and the two ends of the degraded mode are each among the records
that the trap wrote, all of which can be read; the one of a recovery names `KERNEL_BOOT_ID`. Only a
task that leaves of its own accord is isolated without a record. -/
theorem effects_on_record {P : Platform} {s v : Sys} {e : TrapEvent}
    (h : Reachable (kernel P) anyStep s) (htrap : trap P s e = .ok v) :
    newRecords s v ≤ 22 ∧
    (∀ i, (s.tasks i).state ≠ .isolated → (v.tasks i).state = .isolated →
      Leaves e.mcause (e.regs .a7) ∨ OnTape s v .policyIsolate i.val) ∧
    (∀ i, v.restartCounts i ≠ s.restartCounts i → OnTape s v .taskRestart i.val) ∧
    (s.degraded = false → v.degraded = true → ∃ i : TaskIndex,
      OnTape s v .policyDegrade i.val ∨ OnTape s v .policyFailover i.val) ∧
    (s.degraded = true → v.degraded = false → OnTape s v .kernelBoot kernelBootId) := by
  obtain ⟨⟨l, hl⟩, hflag⟩ := taped_reachable h
  obtain ⟨xs, hxs, ha⟩ := trap_audited (reachable_taskInv h) htrap
  obtain ⟨hfew, htape⟩ := written_onTape hl hxs ha.blackbox
  refine ⟨hfew, fun i hs hv => ?_, fun i hv => ?_, fun hs hv => ?_, fun hs hv => ?_⟩
  · rcases ha.isolated i hv with hiso | hnote | hexit
    · exact absurd hiso hs
    · exact .inr (htape _ _ hnote)
    · exact .inl hexit
  · exact htape _ _ ((ha.restarted i).resolve_left hv)
  · obtain ⟨i, hnote⟩ := ha.degraded hs (hflag hs) hv
    exact ⟨i, hnote.imp (htape _ _) (htape _ _)⟩
  · exact htape _ _ (ha.recovered hs hv)

/-- The fourth illegal instruction isolates the first task, and says so. -/
theorem fourth_fault_on_record : ∃ s v, Reachable (kernel referencePlatform) anyStep s ∧
    (s.tasks 0).state = .running ∧ (v.tasks 0).state = .isolated ∧
      OnTape s v .policyIsolate 0 := by
  let e := trapAt 2 0x80001000 fun _ => 0
  obtain ⟨v, hv, hiso⟩ := endsWith_iff.mp (show endsWith
    (scenario bootInit ([e, e, e] ++ [e])) (fun v => decide ((v.tasks 0).state = .isolated)) =
      true by decide +kernel)
  obtain ⟨s, hs, hv⟩ := scenario_append [e, e, e] hv
  rw [run_singleton] at hv
  obtain ⟨s', hs', hrun⟩ := endsWith_iff.mp (show endsWith (scenario bootInit [e, e, e])
    (fun s => decide ((s.tasks 0).state = .running)) = true by decide +kernel)
  obtain rfl : s = s' := Except.ok.inj (hs.symm.trans hs')
  have hrun := of_decide_eq_true hrun
  have hiso := of_decide_eq_true hiso
  have hstays : ¬ Leaves e.mcause (e.regs .a7) := by
    rintro ⟨⟨-, hc | hc⟩, -⟩
    · exact absurd hc (by decide)
    · exact absurd hc (by decide)
  refine ⟨s, v, scenario_reachable hs, hrun, hiso, ?_⟩
  obtain ⟨-, hrecord, -⟩ := effects_on_record (scenario_reachable hs) hv
  exact (hrecord 0 (by simp [hrun]) hiso).resolve_left hstays

end KernelAudit
