import Sipahi.KernelIpcSyscalls
import Sipahi.KernelStatics
import Sipahi.KernelResume
import Sipahi.KernelFrame
import Sipahi.RunHistory

/-!
# Messages from task to task

What a task finds in `a0` after an IPC call decides whether a message moved. Over a run the messages
that the consumer of a channel got are those that its producer handed over, oldest first.
-/
namespace KernelMessages

open KernelTypes KernelPolicy KernelIpcChannel KernelPmp KernelState KernelTrapFrame KernelScheduler
open KernelSyscall KernelTrap KernelHandlers KernelEvolution KernelSelection KernelBoot
open KernelTaskInvariants KernelResume KernelStatics KernelFrame KernelIpcSyscalls
open KernelIpcLinearization KernelReference RiscvHart GuardedExecution RunHistory

/-- The task called on the channel and goes on with `E_OK` in `a0`. -/
def Answered (e : TrapEvent) (v : Sys) (syscallId : ℕ) (channel : ChannelIndex) : Prop :=
  IsEcall e.mcause ∧ e.regs .a7 = syscallId ∧ e.regs .a0 = channel.val ∧ v.hart.regs .a0 = errOk

instance (e : TrapEvent) (v : Sys) (syscallId : ℕ) (channel : ChannelIndex) :
    Decidable (Answered e v syscallId channel) := inferInstanceAs (Decidable (_ ∧ _))

/-- The message that the trap takes from the memory of the caller. -/
def sentOn (P : Platform) (channel : ChannelIndex) (s : Sys) (e : TrapEvent) : List IpcMessage :=
  match trap P s e with
  | .ok v =>
    if Answered e v sysIpcSendId channel then [readMessage e.userMem (e.regs .a1)] else []
  | .error _ => []

/-- The message that the trap leaves in the memory of the caller. -/
def receivedOn (P : Platform) (channel : ChannelIndex) (s : Sys) (e : TrapEvent) :
    List IpcMessage :=
  match trap P s e with
  | .ok v =>
    if Answered e v sysIpcRecvId channel then [readMessage v.userMem (e.regs .a1)] else []
  | .error _ => []

/-- The state in which the task left user memory. -/
def arrived (s : Sys) (e : TrapEvent) : Sys := { s with userMem := e.userMem }

/-- The caller and its memory, as the checks of the system calls see them. -/
structure SameCaller (s u : Sys) : Prop where
  currentTask : u.currentTask = s.currentTask
  userMem : u.userMem = s.userMem
  pool : u.pool = s.pool
  native : isTaskSntmNative u u.currentTask = isTaskSntmNative s s.currentTask
  stack : taskStackRange u u.currentTask = taskStackRange s s.currentTask

theorem sameCaller_granted {P : Platform} {s u : Sys} {access : Access} {ptr : ℕ}
    (h : SameCaller s u) (hg : MessageGranted P u access ptr) : MessageGranted P s access ptr := by
  simp only [MessageGranted, h.native, h.stack] at hg
  rwa [h.currentTask] at hg

theorem incrementSyscallCount_sameCaller (s : Sys) : SameCaller s (incrementSyscallCount s) := by
  have hk := countFrame_statics (incrementSyscallCount_counted s)
  have hframe := incrementSyscallCount_frame s
  have hstate := hframe.field Task.state (fun _ => rfl) s.currentTask
  have hnative := hframe.field Task.isSntmNative (fun _ => rfl) s.currentTask
  have hstack := hframe.field Task.stackTop (fun _ => rfl) s.currentTask
  refine ⟨hframe.currentTask, hk.userMem, hk.pool, ?_, ?_⟩
  · simp only [isTaskSntmNative, hframe.currentTask, hstate, hnative]
  · simp only [taskStackRange, hframe.currentTask, hframe.taskCount, hstate, hstack]

/-- A message went into the queue. -/
structure SendEffect (P : Platform) (s : Sys) (e : TrapEvent) (v : Sys) (channel : ChannelIndex) :
    Prop where
  answered : Answered e v sysIpcSendId channel
  producer : (s.pool.owners channel).1 = s.currentTask.val
  granted : MessageGranted P s .read (e.regs .a1)
  appended : queueOf (v.pool.channels channel) =
    queueOf (s.pool.channels channel) ++ [readMessage e.userMem (e.regs .a1)]
  others : ∀ other, other ≠ channel → v.pool.channels other = s.pool.channels other
  owners : v.pool.owners = s.pool.owners
  sealed : v.pool.sealed = s.pool.sealed
  userMem : v.userMem = e.userMem

/-- A message came out of the queue. -/
structure RecvEffect (P : Platform) (s : Sys) (e : TrapEvent) (v : Sys) (channel : ChannelIndex) :
    Prop where
  answered : Answered e v sysIpcRecvId channel
  consumer : (s.pool.owners channel).2 = s.currentTask.val
  granted : MessageGranted P s .write (e.regs .a1)
  removed : queueOf (s.pool.channels channel) =
    readMessage v.userMem (e.regs .a1) :: queueOf (v.pool.channels channel)
  others : ∀ other, other ≠ channel → v.pool.channels other = s.pool.channels other
  owners : v.pool.owners = s.pool.owners
  sealed : v.pool.sealed = s.pool.sealed
  userMem : ∀ a, a < e.regs .a1 ∨ e.regs .a1 + ipcMsgSize ≤ a → v.userMem a = e.userMem a

/-- No message moved. -/
structure NoMessage (s : Sys) (e : TrapEvent) (v : Sys) : Prop where
  notSent : ∀ channel, ¬ Answered e v sysIpcSendId channel
  notReceived : ∀ channel, ¬ Answered e v sysIpcRecvId channel
  queues : ∀ channel, queueOf (v.pool.channels channel) = queueOf (s.pool.channels channel)
  owners : v.pool.owners = s.pool.owners
  sealed : v.pool.sealed = s.pool.sealed
  userMem : v.userMem = e.userMem

inductive Traffic (P : Platform) (s : Sys) (e : TrapEvent) (v : Sys) : Prop where
  | send {channel} : SendEffect P s e v channel → Traffic P s e v
  | recv {channel} : RecvEffect P s e v channel → Traffic P s e v
  | none : NoMessage s e v → Traffic P s e v

section

variable {P : Platform} {s u w v : Sys} {e : TrapEvent} {args : Reg → ℕ} {r : Option ℕ}

theorem leaveHandler_pool (P : Platform) (w : Sys) (r : Option ℕ) :
    (leaveHandler P (w, r)).pool = w.pool ∧ (leaveHandler P (w, r)).userMem = w.userMem := by
  cases r <;> exact ⟨rfl, rfl⟩

theorem entered_sameCaller (h : enterHandler P s e = .ok (u, args)) :
    SameCaller (arrived s e) u := by
  obtain ⟨k, -, -, rfl⟩ := enterHandler_ok h
  exact ⟨rfl, rfl, rfl, rfl, rfl⟩

theorem answer_in_a0 {x : ℕ} (hu : enterHandler P s e = .ok (u, args)) (he : Evolves u w)
    (hecall : IsEcall e.mcause) :
    (leaveHandler P (w, some (hideKernelPointer P x))).hart.regs .a0 = errOk ↔ x = errOk := by
  have hent := enterHandler_entered hu
  have hkept : HartKept s.currentTask u.hart w.hart := by
    rw [← (entered_sameKernel hu).currentTask]
    exact he.hart
  have hres := (hent.kept hkept).resumes (hideKernelPointer P x)
  have ha0 : (leaveHandler P (w, some (hideKernelPointer P x))).hart.regs .a0 =
      hideKernelPointer P x := by
    refine (hres.regs .a0).trans ?_
    have hisEcall : isEcall e.mcause = true := by
      rcases hecall.2 with hc | hc <;> simp [isEcall, hc]
    simp [ownContext, hisEcall]
  have hpos := P.textStart_pos
  rw [ha0, hideKernelPointer, Platform.kernelStart, errOk, errInternal, usizeMax]
  split <;> omega

theorem counted_sameCaller (hu : enterHandler P s e = .ok (u, args)) :
    SameCaller (arrived s e) (incrementSyscallCount u) := by
  have ha := entered_sameCaller hu
  have hb := incrementSyscallCount_sameCaller u
  exact ⟨hb.currentTask.trans ha.currentTask, hb.userMem.trans ha.userMem, hb.pool.trans ha.pool,
    hb.native.trans ha.native, hb.stack.trans ha.stack⟩

theorem untouched_noMessage (hs : SameCaller (arrived s e) u) (hk : Untouched u w)
    (hv : v.pool = w.pool ∧ v.userMem = w.userMem)
    (hsend : ∀ channel, ¬ Answered e v sysIpcSendId channel)
    (hrecv : ∀ channel, ¬ Answered e v sysIpcRecvId channel) : NoMessage s e v where
  notSent := hsend
  notReceived := hrecv
  queues := by
    intro channel
    rw [hv.1, hk.queues, hs.pool]
    rfl
  owners := by
    rw [hv.1, hk.owners, hs.pool]
    rfl
  sealed := by
    rw [hv.1, hk.sealed, hs.pool]
    rfl
  userMem := by
    rw [hv.2, hk.userMem, hs.userMem]
    rfl

theorem send_traffic {x : ℕ} (hu : enterHandler P s e = .ok (u, args))
    (hecall : IsEcall e.mcause) (hid : e.regs .a7 = sysIpcSendId)
    (hw : sysIpcSend P (incrementSyscallCount u) (e.regs .a0) (e.regs .a1) = (w, x)) :
    Traffic P s e (leaveHandler P (w, some (hideKernelPointer P x))) := by
  have hsame := counted_sameCaller hu
  have hevolves : Evolves u w := by
    have hsend := (ipcFrame_evolves
      (sysIpcSend_frame P (incrementSyscallCount u) (e.regs .a0) (e.regs .a1))).1
    rw [hw] at hsend
    exact (ipcFrame_evolves (incrementSyscallCount_frame u)).1.trans hsend
  have ha0 := answer_in_a0 (x := x) hu hevolves hecall
  have hv := leaveHandler_pool P w (some (hideKernelPointer P x))
  have hcases := sysIpcSend_cases P (incrementSyscallCount u) (e.regs .a0) (e.regs .a1)
  rw [hw] at hcases
  rcases hcases with ⟨hne, hk⟩ | ⟨hok, channel, hchannel, hsent⟩
  · refine .none (untouched_noMessage hsame hk hv ?_ ?_)
    · rintro channel ⟨-, -, -, ha⟩
      exact hne (ha0.mp ha)
    · rintro channel ⟨-, hrecv, -⟩
      rw [hid] at hrecv
      cases hrecv
  · refine .send (show SendEffect P s e _ channel from
      ⟨⟨hecall, hid, hchannel.symm, ha0.mpr hok⟩, ?_, ?_, ?_, ?_, ?_, ?_, ?_⟩)
    · have hproducer := hsent.producer
      rw [hsame.pool, hsame.currentTask] at hproducer
      exact hproducer
    · have hgranted := sameCaller_granted hsame hsent.granted
      exact hgranted
    · have happended := hsent.appended
      rw [hsame.pool, hsame.userMem] at happended
      rw [hv.1]
      exact happended
    · intro other hne
      rw [hv.1, hsent.others other hne, hsame.pool]
      rfl
    · rw [hv.1, hsent.owners, hsame.pool]
      rfl
    · rw [hv.1, hsent.sealed, hsame.pool]
      rfl
    · rw [hv.2, hsent.userMem, hsame.userMem]
      rfl

theorem recv_traffic {x : ℕ} (hu : enterHandler P s e = .ok (u, args))
    (hecall : IsEcall e.mcause) (hid : e.regs .a7 = sysIpcRecvId)
    (hw : sysIpcRecv P (incrementSyscallCount u) (e.regs .a0) (e.regs .a1) = (w, x)) :
    Traffic P s e (leaveHandler P (w, some (hideKernelPointer P x))) := by
  have hsame := counted_sameCaller hu
  have hevolves : Evolves u w := by
    have hrecv := (ipcFrame_evolves
      (sysIpcRecv_frame P (incrementSyscallCount u) (e.regs .a0) (e.regs .a1))).1
    rw [hw] at hrecv
    exact (ipcFrame_evolves (incrementSyscallCount_frame u)).1.trans hrecv
  have ha0 := answer_in_a0 (x := x) hu hevolves hecall
  have hv := leaveHandler_pool P w (some (hideKernelPointer P x))
  have hcases := sysIpcRecv_cases P (incrementSyscallCount u) (e.regs .a0) (e.regs .a1)
  rw [hw] at hcases
  rcases hcases with ⟨hne, hk⟩ | ⟨hok, channel, hchannel, hreceived⟩
  · refine .none (untouched_noMessage hsame hk hv ?_ ?_)
    · rintro channel ⟨-, hsend, -⟩
      rw [hid] at hsend
      cases hsend
    · rintro channel ⟨-, -, -, ha⟩
      exact hne (ha0.mp ha)
  · refine .recv (show RecvEffect P s e _ channel from
      ⟨⟨hecall, hid, hchannel.symm, ha0.mpr hok⟩, ?_, ?_, ?_, ?_, ?_, ?_, ?_⟩)
    · have hconsumer := hreceived.consumer
      rw [hsame.pool, hsame.currentTask] at hconsumer
      exact hconsumer
    · have hgranted := sameCaller_granted hsame hreceived.granted
      exact hgranted
    · have hremoved := hreceived.removed
      rw [hsame.pool] at hremoved
      rw [hv.1, hv.2]
      exact hremoved
    · intro other hne
      rw [hv.1, hreceived.others other hne, hsame.pool]
      rfl
    · rw [hv.1, hreceived.owners, hsame.pool]
      rfl
    · rw [hv.1, hreceived.sealed, hsame.pool]
      rfl
    · intro a ha
      rw [hv.2, hreceived.userMem a ha, hsame.userMem]
      rfl

theorem quiet_traffic {mtime mcause syscallId arg0 arg1 arg2 : ℕ} (hi : TaskInv u)
    (h : Serves P u mtime mcause syscallId arg0 arg1 arg2 w r)
    (hsend : IsEcall mcause → syscallId ≠ sysIpcSendId)
    (hrecv : IsEcall mcause → syscallId ≠ sysIpcRecvId) :
    w.pool = u.pool ∧ w.userMem = u.userMem := by
  have hinc := countFrame_statics (incrementSyscallCount_counted u)
  have hkept : ∀ {x : Sys}, StaticsKept u x → x.pool = u.pool ∧ x.userMem = u.userMem :=
    fun hk => ⟨hk.pool, hk.userMem⟩
  have hselected : ∀ {q flow}, AtSelection P u mtime mcause syscallId q →
      doPrioritySelectAndSwitch P q q.currentTask = .ok (w, flow) →
      w.pool = u.pool ∧ w.userMem = u.userMem := by
    intro q flow hq hw
    have hk := (atSelection_statics hq).2
    rcases select_cases hw with ⟨-, rfl, -⟩ | ⟨next, -, hs⟩
    · exact hk
    · obtain ⟨pmp, rfl⟩ := hs.state
      exact hk
  have hyielded : ∀ {q flow}, AtSelection P u mtime mcause syscallId q →
      scheduleYield P q = .ok (w, flow) → w.pool = u.pool ∧ w.userMem = u.userMem := by
    intro q flow hq hw
    rw [scheduleYield] at hw
    split at hw
    · cases hw
      exact (atSelection_statics hq).2
    · exact hselected hq hw
  cases h with
  | ignored => exact ⟨rfl, rfl⟩
  | emptyTick _ hv _ =>
    have hk := deadlinePhase_statics hv
    exact ⟨hk.pool, hk.userMem⟩
  | @tick v q _ flow ht hv hq hw =>
    have hsel : AtSelection P u mtime mcause syscallId q := .inl ⟨ht, v, hv, hq⟩
    rw [(deadlinePhase_evolves hi.currentAlive hv).1.currentTask,
      ← (atSelection_evolves hi.currentAlive hsel).currentTask] at hw
    exact hselected hsel hw
  | badSyscall => exact ⟨rfl, rfl⟩
  | capInvoke _ _ hw => exact hkept (hinc.trans (sysCapInvoke_statics hw))
  | ipcSend he hid => exact absurd hid (hsend he)
  | ipcRecv he hid => exact absurd hid (hrecv he)
  | taskInfo => exact hkept hinc
  | yield he hid hq hw => exact hyielded (.inr (.inl ⟨he, hid, hq⟩)) hw
  | exit he hid hq hw => exact hyielded (.inr (.inr ⟨he, hid, hq⟩)) hw
  | taskFault _ _ hw => exact hkept ((log_statics ..).trans (handleTaskFault_statics hw))
  | stackOverflow _ _ hw => exact hkept (logged_respond_statics hw)

theorem dispatch_send (P : Platform) (u : Sys) (arg0 arg1 arg2 : ℕ) :
    dispatch P u sysIpcSendId arg0 arg1 arg2 =
      .ok ((sysIpcSend P (incrementSyscallCount u) arg0 arg1).1,
        some (hideKernelPointer P (sysIpcSend P (incrementSyscallCount u) arg0 arg1).2)) := rfl

theorem dispatch_recv (P : Platform) (u : Sys) (arg0 arg1 arg2 : ℕ) :
    dispatch P u sysIpcRecvId arg0 arg1 arg2 =
      .ok ((sysIpcRecv P (incrementSyscallCount u) arg0 arg1).1,
        some (hideKernelPointer P (sysIpcRecv P (incrementSyscallCount u) arg0 arg1).2)) := rfl

theorem trap_traffic (hi : TaskInv s) (h : trap P s e = .ok v) : Traffic P s e v := by
  obtain ⟨u, args, w, r, hu, hw, rfl⟩ := trap_handled h
  by_cases hipc : IsEcall e.mcause ∧
      (e.regs .a7 = sysIpcSendId ∨ e.regs .a7 = sysIpcRecvId)
  · obtain ⟨hecall, hid⟩ := hipc
    cases hw with
    | timer ht => exact absurd ht (ecall_not_timer hecall)
    | fault hf => exact absurd hecall.2 hf.2
    | ignored _ he => exact absurd hecall he
    | syscall _ hd =>
      rcases hid with hid | hid
      · rw [hid, dispatch_send] at hd
        cases hd
        exact send_traffic hu hecall hid rfl
      · rw [hid, dispatch_recv] at hd
        cases hd
        exact recv_traffic hu hecall hid rfl
  · have hsend : IsEcall e.mcause → e.regs .a7 ≠ sysIpcSendId :=
      fun he hid => hipc ⟨he, .inl hid⟩
    have hrecv : IsEcall e.mcause → e.regs .a7 ≠ sysIpcRecvId :=
      fun he hid => hipc ⟨he, .inr hid⟩
    have hui := taskInv_sameKernel (entered_sameKernel hu) hi
    obtain ⟨u', args', w', r', ⟨hu', hserves⟩, hv⟩ := trap_ok h
    obtain ⟨rfl, rfl⟩ := Prod.mk.inj (Except.ok.inj (hu.symm.trans hu'))
    have hargs := entered_args hu
    rw [hargs.mcause, hargs.syscallId] at hserves
    have hquiet := quiet_traffic hui hserves hsend hrecv
    have hcaller := entered_sameCaller hu
    have hpool := leaveHandler_pool P w' r'
    rw [hv]
    refine .none ⟨fun _ ha => hsend ha.1 ha.2.1, fun _ ha => hrecv ha.1 ha.2.1, ?_, ?_, ?_, ?_⟩
    · intro channel
      rw [hpool.1, hquiet.1, hcaller.pool]
      rfl
    · rw [hpool.1, hquiet.1, hcaller.pool]
      rfl
    · rw [hpool.1, hquiet.1, hcaller.pool]
      rfl
    · rw [hpool.2, hquiet.2, hcaller.userMem]
      rfl

/-! ## Runs -/

theorem answered_inj {x y : ℕ} {channel other : ChannelIndex} (h : Answered e v x channel)
    (k : Answered e v y other) : x = y ∧ channel = other :=
  ⟨h.2.1.symm.trans k.2.1, Fin.ext (h.2.2.1.symm.trans k.2.2.1)⟩

theorem trap_conserves (hi : TaskInv s) (h : trap P s e = .ok v) (channel : ChannelIndex) :
    queueOf (s.pool.channels channel) ++ sentOn P channel s e =
      receivedOn P channel s e ++ queueOf (v.pool.channels channel) := by
  simp only [sentOn, receivedOn, h]
  cases trap_traffic hi h with
  | @send sent hs =>
    have hrecv : ¬ Answered e v sysIpcRecvId channel :=
      fun ha => absurd (answered_inj hs.answered ha).1 (by decide)
    rw [if_neg hrecv]
    by_cases hc : channel = sent
    · subst hc
      rw [if_pos hs.answered, hs.appended]
      rfl
    · have hsend : ¬ Answered e v sysIpcSendId channel :=
        fun ha => hc (answered_inj ha hs.answered).2
      rw [if_neg hsend, hs.others channel hc]
      simp
  | @recv received hr =>
    have hsend : ¬ Answered e v sysIpcSendId channel :=
      fun ha => absurd (answered_inj ha hr.answered).1 (by decide)
    rw [if_neg hsend]
    by_cases hc : channel = received
    · subst hc
      rw [if_pos hr.answered, hr.removed]
      simp
    · have hrecv : ¬ Answered e v sysIpcRecvId channel :=
        fun ha => hc (answered_inj ha hr.answered).2
      rw [if_neg hrecv, hr.others channel hc]
      simp
  | none hn =>
    rw [if_neg (hn.notSent channel), if_neg (hn.notReceived channel), hn.queues]
    simp

theorem trap_owners (hi : TaskInv s) (h : trap P s e = .ok v) :
    v.pool.owners = s.pool.owners ∧ v.pool.sealed = s.pool.sealed := by
  cases trap_traffic hi h with
  | send hs => exact ⟨hs.owners, hs.sealed⟩
  | recv hr => exact ⟨hr.owners, hr.sealed⟩
  | none hn => exact ⟨hn.owners, hn.sealed⟩

theorem initial_queues (h : (kernel P).Initial s) (channel : ChannelIndex) :
    s.pool.channels channel = .new := by
  obtain ⟨q, best, pmp, hq, -, rfl⟩ := initial_of_boot
    (I := fun q => q.pool.channels = fun _ => .new) (fun _ _ _ => rfl)
    (fun hs hu => (bootCall_frame hu).channels.trans hs) h
  exact congrFun hq channel

theorem run_messages {es : List TrapEvent} (hi : TaskInv s) (h : run (kernel P) s es = .ok v)
    (channel : ChannelIndex) :
    queueOf (s.pool.channels channel) ++ history (kernel P) (sentOn P channel) s es =
      history (kernel P) (receivedOn P channel) s es ++ queueOf (v.pool.channels channel) :=
  run_conserves (M := kernel P) (I := TaskInv) (fun q => queueOf (q.pool.channels channel))
    (fun _ _ _ hx hstep => ⟨taskInv_trap hx hstep, trap_conserves hx hstep channel⟩) hi h

theorem run_owners {es : List TrapEvent} (hi : TaskInv s) (h : run (kernel P) s es = .ok v) :
    TaskInv v ∧ v.pool.owners = s.pool.owners := by
  apply run_keeps (I := fun x => TaskInv x ∧ x.pool.owners = s.pool.owners) _ ⟨hi, rfl⟩ h
  intro q e u hq hstep
  exact ⟨taskInv_trap hq.1 hstep, (trap_owners hq.1 hstep).1.trans hq.2⟩

theorem trap_authentic (hi : TaskInv s) (h : trap P s e = .ok v) (channel : ChannelIndex) :
    (Answered e v sysIpcSendId channel → (s.pool.owners channel).1 = s.currentTask.val) ∧
      (Answered e v sysIpcRecvId channel → (s.pool.owners channel).2 = s.currentTask.val) := by
  refine ⟨fun ha => ?_, fun ha => ?_⟩
  · cases trap_traffic hi h with
    | send hs =>
      obtain ⟨-, rfl⟩ := answered_inj ha hs.answered
      exact hs.producer
    | recv hr => exact absurd (answered_inj ha hr.answered).1 (by decide)
    | none hn => exact absurd ha (hn.notSent channel)
  · cases trap_traffic hi h with
    | send hs => exact absurd (answered_inj ha hs.answered).1 (by decide)
    | recv hr =>
      obtain ⟨-, rfl⟩ := answered_inj ha hr.answered
      exact hr.consumer
    | none hn => exact absurd ha (hn.notReceived channel)

end

/-- In every run from boot, the messages received on a channel and then those still in its queue,
at most fifteen, are the messages sent on it, in order; only its producer sent and only its
consumer received. -/
theorem messages_arrive_in_order {P : Platform} {s v : Sys} {es : List TrapEvent}
    (h0 : (kernel P).Initial s) (h : run (kernel P) s es = .ok v) (channel : ChannelIndex) :
    history (kernel P) (sentOn P channel) s es =
        history (kernel P) (receivedOn P channel) s es ++ queueOf (v.pool.channels channel) ∧
      (queueOf (v.pool.channels channel)).length ≤ 15 ∧
      ∀ before e after u w, es = before ++ e :: after → run (kernel P) s before = .ok u →
        trap P u e = .ok w →
        (Answered e w sysIpcSendId channel → u.currentTask.val = (s.pool.owners channel).1) ∧
          (Answered e w sysIpcRecvId channel → u.currentTask.val = (s.pool.owners channel).2) := by
  have hi := taskInv_initial h0
  refine ⟨?_, ?_, ?_⟩
  · have hrun := run_messages hi h channel
    rw [initial_queues h0] at hrun
    simpa only [show queueOf .new = [] from rfl, List.nil_append] using hrun
  · rw [queueOf_length]
    exact len_le_capacity _
  · intro before e after u w _ hbefore hw
    obtain ⟨hiu, howners⟩ := run_owners hi hbefore
    have hauth := trap_authentic hiu hw channel
    rw [howners] at hauth
    exact ⟨fun ha => (hauth.1 ha).symm, fun ha => (hauth.2 ha).symm⟩

/-- The first task of the reference build leaves a message for the second one. -/
theorem first_message_waits : ∃ s v channel, (kernel referencePlatform).Initial s ∧
    run (kernel referencePlatform) s [sendFirst] = .ok v ∧
      (queueOf (v.pool.channels channel)).length = 1 ∧
      history (kernel referencePlatform) (sentOn referencePlatform channel) s [sendFirst] =
        history (kernel referencePlatform) (receivedOn referencePlatform channel) s [sendFirst] ++
          queueOf (v.pool.channels channel) := by
  obtain ⟨s, hs, ht⟩ := endsWith_iff.mp (show endsWith (scenario bootInit [])
    (fun s => endsWith (run (kernel referencePlatform) s [sendFirst]) fun v =>
      (v.pool.channels ⟨0, by decide⟩).len == 1) = true by decide +kernel)
  obtain ⟨v, hv, hone⟩ := endsWith_iff.mp ht
  obtain ⟨q, hq, hs⟩ := bind_eq_ok.mp hs
  cases hs
  have h0 : (kernel referencePlatform).Initial s := ⟨_, _, _, _, hq⟩
  have hmessages := messages_arrive_in_order h0 hv ⟨0, by decide⟩
  refine ⟨s, v, ⟨0, by decide⟩, h0, hv, ?_, hmessages.1⟩
  rw [queueOf_length]
  exact eq_of_beq hone

end KernelMessages
