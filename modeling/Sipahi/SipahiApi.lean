import Sipahi.KernelReference
import Sipahi.StructLayout

/-!
# The task side of the system calls

What a task makes of the value that the kernel leaves in `a0`, and of the types it passes in.
-/
namespace SipahiApi

open KernelTypes KernelIpcChannel KernelPmp KernelState KernelScheduler KernelSyscall
open KernelTrap KernelReference GuardedExecution StructLayout

inductive Error where
  | invalidSyscall
  | noCapability
  | ipcFull
  | ipcEmpty
  | invalidArg
  | bufferFull
  | rateLimited
  | internal
  deriving DecidableEq, Repr

/-- An unknown value counts as an internal error. -/
def Error.fromKernel (ret : ℕ) : Option Error :=
  if ret = 0 then none
  else if ret = usizeMax then some .invalidSyscall
  else if ret = usizeMax - 1 then some .noCapability
  else if ret = usizeMax - 2 then some .ipcFull
  else if ret = usizeMax - 3 then some .ipcEmpty
  else if ret = usizeMax - 4 then some .invalidArg
  else if ret = usizeMax - 5 then some .bufferFull
  else if ret = usizeMax - 6 then some .rateLimited
  else if ret = usizeMax - 7 then some .internal
  else some .internal

/-! The wrappers, after the trap has returned `ret`. -/

def ipcSend (ret : ℕ) : Except Error Unit :=
  match Error.fromKernel ret with
  | none => .ok ()
  | some e => .error e

/-- An empty channel is no error. -/
def ipcRecv (ret : ℕ) : Except Error Bool :=
  match Error.fromKernel ret with
  | none => .ok true
  | some .ipcEmpty => .ok false
  | some e => .error e

def taskInfo (ret : ℕ) : Except Error ℕ :=
  match Error.fromKernel ret with
  | none => .ok (ret % 2 ^ 32)
  | some e => .error e

/-- `Message::SIZE`. -/
def messageSize : ℕ := 64

/-- `ipc::Message`: `repr(C)` around 64 bytes. -/
def messageLayout : Layout := .reprC [Layout.byte.array 64] 1

theorem fromKernel_eq_none {ret : ℕ} : Error.fromKernel ret = none ↔ ret = 0 := by
  constructor
  · intro h
    by_contra hret
    rw [Error.fromKernel, if_neg hret] at h
    split_ifs at h
  · rintro rfl
    rfl

theorem fromKernel_eq_invalidArg {ret : ℕ} :
    Error.fromKernel ret = some .invalidArg ↔ ret = errInvalidArg := by
  constructor
  · intro h
    unfold Error.fromKernel at h
    split_ifs at h <;> cases h
    rename_i hret
    exact hret
  · rintro rfl
    rfl

theorem ipcSend_invalidArg {ret : ℕ} : ipcSend ret = .error .invalidArg ↔ ret = errInvalidArg := by
  rw [← fromKernel_eq_invalidArg, ipcSend]
  cases Error.fromKernel ret <;> simp

theorem ipcRecv_invalidArg {ret : ℕ} : ipcRecv ret = .error .invalidArg ↔ ret = errInvalidArg := by
  rw [← fromKernel_eq_invalidArg, ipcRecv]
  cases Error.fromKernel ret with
  | none => simp
  | some e => cases e <;> simp

theorem taskInfo_ok {ret info : ℕ} : taskInfo ret = .ok info ↔ ret = 0 ∧ info = 0 := by
  rw [← fromKernel_eq_none, taskInfo]
  cases hret : Error.fromKernel ret with
  | none =>
    obtain rfl := fromKernel_eq_none.mp hret
    simp [eq_comm]
  | some e => simp

/-! ## Task information -/

/-- The word that `task_info` is to hand out. -/
def packedInfo (t : Task) : ℕ := (stateCode t.state <<< 8) ||| (t.priority <<< 4) ||| t.dal

theorem packedInfo_eq_zero {t : Task} :
    packedInfo t = 0 ↔ t.state = .ready ∧ t.priority = 0 ∧ t.dal = 0 := by
  have hstate : stateCode t.state <<< 8 = 0 ↔ t.state = .ready := by
    cases t.state <;> simp [stateCode]
  rw [packedInfo, Nat.or_eq_zero_iff, Nat.or_eq_zero_iff, hstate, Nat.shiftLeft_eq_zero_iff]
  tauto

theorem queryTaskInfo_incrementSyscallCount (s : Sys) {i : TaskIndex} (hi : i.val < s.taskCount) :
    queryTaskInfo (incrementSyscallCount s) i.val = packedInfo (s.tasks i) := by
  have hcount : (incrementSyscallCount s).taskCount = s.taskCount := by
    rw [incrementSyscallCount]
    split <;> rfl
  have hfields : (((incrementSyscallCount s).tasks i).state = (s.tasks i).state ∧
      ((incrementSyscallCount s).tasks i).priority = (s.tasks i).priority) ∧
      ((incrementSyscallCount s).tasks i).dal = (s.tasks i).dal := by
    rw [incrementSyscallCount]
    split
    · by_cases hcurrent : i = s.currentTask
      · subst hcurrent
        simp [Sys.setTask, Sys.current]
      · simp [Sys.setTask, Function.update_of_ne hcurrent]
    · simp
  rw [queryTaskInfo, dif_pos ⟨hcount.symm ▸ hi, i.isLt⟩, packedInfo]
  dsimp only
  rw [hfields.1.1, hfields.1.2, hfields.2]

/-- Every word but zero is taken for an error code. -/
theorem task_info_ok_iff (P : Platform) (s : Sys) (i : TaskIndex) (hi : i.val < s.taskCount)
    (arg1 arg2 : ℕ) :
    ∃ u ret, dispatch P s sysTaskInfoId i.val arg1 arg2 = .ok (u, some ret) ∧
      (taskInfo ret = .ok (packedInfo (s.tasks i)) ↔
        (s.tasks i).state = .ready ∧ (s.tasks i).priority = 0 ∧ (s.tasks i).dal = 0) := by
  refine ⟨incrementSyscallCount s, hideKernelPointer P (packedInfo (s.tasks i)), ?_, ?_⟩
  · rw [← queryTaskInfo_incrementSyscallCount s hi]
    rfl
  · rw [← packedInfo_eq_zero, taskInfo_ok]
    constructor
    · exact And.right
    · intro hzero
      -- the kernel's text does not start at address zero
      have hstart : ¬ P.kernelStart ≤ 0 := Nat.not_le.mpr P.textStart_pos
      rw [hzero, hideKernelPointer, if_neg (fun h => hstart h.1)]
      exact ⟨rfl, rfl⟩

theorem task_info_after_boot : ∃ s, scenario bootInit [] = .ok s ∧
    ∃ u ret, dispatch referencePlatform s sysTaskInfoId 2 0 0 = .ok (u, some ret) ∧
      (taskInfo ret = .ok (packedInfo (s.tasks 2)) ↔
        (s.tasks 2).state = .ready ∧ (s.tasks 2).priority = 0 ∧ (s.tasks 2).dal = 0) := by
  obtain ⟨s, hs, hcount⟩ := endsWith_iff.mp (show endsWith (scenario bootInit [])
    (fun s => decide (2 < s.taskCount)) = true by decide +kernel)
  exact ⟨s, hs, task_info_ok_iff referencePlatform s 2 (of_decide_eq_true hcount) 0 0⟩

/-- After boot the first task asks about itself: state running, priority 4, DAL 1. -/
theorem task_info_is_internal_error : ∃ s, scenario bootInit [] = .ok s ∧ 0 < s.taskCount ∧
    packedInfo (s.tasks 0) = 0x141 ∧
    ∃ u ret, dispatch referencePlatform s sysTaskInfoId 0 0 0 = .ok (u, some ret) ∧
      taskInfo ret = .error .internal := by
  obtain ⟨s, hs, ht⟩ := endsWith_iff.mp (show endsWith (scenario bootInit [])
    (fun s => decide (0 < s.taskCount) && (packedInfo (s.tasks 0) == 0x141)) = true by
      decide +kernel)
  simp only [Bool.and_eq_true, decide_eq_true_eq, beq_iff_eq] at ht
  refine ⟨s, hs, ht.1, ht.2, incrementSyscallCount s,
    hideKernelPointer referencePlatform (packedInfo (s.tasks 0)), ?_, ?_⟩
  · rw [← queryTaskInfo_incrementSyscallCount s ht.1]
    rfl
  · rw [ht.2]
    decide

end SipahiApi
