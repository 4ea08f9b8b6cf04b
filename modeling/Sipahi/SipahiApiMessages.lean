import Sipahi.SipahiApi
import Sipahi.KernelIpcSyscalls

/-!
# Messages of a task and the pointer checks of the kernel

The type of a message lets it lie at every address; the kernel takes multiples of eight.
-/
namespace SipahiApiMessages

open KernelTypes KernelIpcChannel KernelPmp KernelState KernelScheduler KernelSyscall
open KernelTrap KernelReference KernelIpcSyscalls SipahiApi StructLayout

/-- A value of this layout lies in a readable and writable region of the task, or on the stack of
a legacy task. -/
structure Placed (P : Platform) (s : Sys) (task : TaskIndex) (layout : Layout) (address : ℕ) :
    Prop where
  nonnull : 0 < address
  aligned : layout.align ∣ address
  inSpace : address + layout.size ≤ usizeMax
  native : isTaskSntmNative s task = true → ∃ r ∈ (P.pmpProfiles task).activeRegions,
    r.perm.r = true ∧ r.perm.w = true ∧ r.base ≤ address ∧ address + layout.size ≤ r.base + r.size
  legacy : isTaskSntmNative s task = false → ∃ base top, taskStackRange s task = some (base, top) ∧
    base ≤ address ∧ address + layout.size ≤ top

/-- No region of the profile takes the range away from the one that grants it. -/
def Unshadowed (profile : PmpProfile) (ptr endAddr : ℕ) (access : Access) : Prop :=
  ∀ r, decidingRegion profile.activeRegions ptr endAddr = some r →
    r.base + r.size ≤ usizeMax ∧ access.matches r.perm = true

section

variable {P : Platform} {s : Sys} {address : ℕ} {channel : ChannelIndex}

theorem size_messageLayout : messageLayout.size = ipcMsgSize :=
  size_reprC_bytes 64 1

theorem isValidUserPtr_placed (h : Placed P s s.currentTask messageLayout address)
    (access : Access) :
    isValidUserPtr P s s.currentTask address ipcMsgSize access = true ↔
      (isTaskSntmNative s s.currentTask = true →
        Unshadowed (P.pmpProfiles s.currentTask) address (address + ipcMsgSize) access) := by
  have hne : address ≠ 0 := Nat.ne_of_gt h.nonnull
  have hadd : checkedAdd address ipcMsgSize = some (address + ipcMsgSize) :=
    if_pos (size_messageLayout ▸ h.inSpace)
  cases hnative : isTaskSntmNative s s.currentTask with
  | false =>
    obtain ⟨base, top, hrange, hbase, htop⟩ := h.legacy hnative
    rw [size_messageLayout] at htop
    simp [isValidUserPtr, hnative, hne, hadd, hrange, hbase, htop]
  | true =>
    obtain ⟨r, hr, -, -, hbase, hend⟩ := h.native hnative
    rw [size_messageLayout] at hend
    have hnonempty : (P.pmpProfiles s.currentTask).activeRegions.isEmpty = false :=
      List.isEmpty_eq_false_iff.mpr (List.ne_nil_of_mem hr)
    have hsome := decidingRegion_isSome hr ⟨hbase, hend⟩
    obtain ⟨d, hd⟩ := Option.isSome_iff_exists.mp hsome
    have hunshadowed : Unshadowed (P.pmpProfiles s.currentTask) address (address + ipcMsgSize)
        access ↔ d.base + d.size ≤ usizeMax ∧ access.matches d.perm = true := by
      simp [Unshadowed, hd]
    rw [isValidUserPtr, hnative, hunshadowed]
    simp only [hnonempty, checkPtrInProfile, hne, hadd]
    simp [regionsAllow_iff, hd]

theorem sysIpcSend_invalidArg :
    (sysIpcSend P s channel.val address).2 ≠ errInvalidArg ↔
      isValidUserPtr P s s.currentTask address ipcMsgSize .read = true ∧ address % 8 = 0 := by
  rw [sysIpcSend, dif_pos channel.isLt]
  dsimp only
  cases isValidUserPtr P s s.currentTask address ipcMsgSize .read with
  | false => simp
  | true =>
    by_cases haligned : address % 8 = 0
    · have hlater : ∀ code, code = errNoCapability ∨ code = errRateLimited ∨ code = errOk ∨
          code = errIpcFull → code ≠ errInvalidArg := by
        rintro code (rfl | rfl | rfl | rfl) <;> decide
      simp only [haligned, and_self, iff_true]
      apply hlater
      simp only [Bool.not_true, Bool.false_eq_true, if_false, ne_eq, not_true_eq_false]
      split
      · exact Or.inl rfl
      · split
        · exact Or.inr (Or.inl rfl)
        · split
          · exact Or.inr (Or.inr (Or.inl rfl))
          · exact Or.inr (Or.inr (Or.inr rfl))
    · simp [haligned]

theorem sysIpcRecv_invalidArg :
    (sysIpcRecv P s channel.val address).2 ≠ errInvalidArg ↔
      isValidUserPtr P s s.currentTask address ipcMsgSize .write = true ∧ address % 8 = 0 := by
  rw [sysIpcRecv, dif_pos channel.isLt]
  dsimp only
  cases isValidUserPtr P s s.currentTask address ipcMsgSize .write with
  | false => simp
  | true =>
    by_cases haligned : address % 8 = 0
    · have hlater : ∀ code, code = errNoCapability ∨ code = errOk ∨ code = errIpcEmpty →
          code ≠ errInvalidArg := by
        rintro code (rfl | rfl | rfl) <;> decide
      simp only [haligned, and_self, iff_true]
      apply hlater
      simp only [Bool.not_true, Bool.false_eq_true, if_false, ne_eq, not_true_eq_false]
      split
      · exact Or.inl rfl
      · split
        · exact Or.inr (Or.inl rfl)
        · exact Or.inr (Or.inr rfl)
    · simp [haligned]

/-- A message is never a bad argument where its address is a multiple of eight and no other region
of the profile decides on it. -/
theorem ipc_never_invalidArg_iff (channel : ChannelIndex)
    (h : Placed P s s.currentTask messageLayout address) :
    (ipcSend (sysIpcSend P s channel.val address).2 ≠ .error .invalidArg ↔
      address % 8 = 0 ∧ (isTaskSntmNative s s.currentTask = true →
        Unshadowed (P.pmpProfiles s.currentTask) address (address + ipcMsgSize) .read)) ∧
    (ipcRecv (sysIpcRecv P s channel.val address).2 ≠ .error .invalidArg ↔
      address % 8 = 0 ∧ (isTaskSntmNative s s.currentTask = true →
        Unshadowed (P.pmpProfiles s.currentTask) address (address + ipcMsgSize) .write)) := by
  constructor
  · rw [ne_eq, ipcSend_invalidArg, ← ne_eq, sysIpcSend_invalidArg, isValidUserPtr_placed h .read,
      and_comm]
  · rw [ne_eq, ipcRecv_invalidArg, ← ne_eq, sysIpcRecv_invalidArg, isValidUserPtr_placed h .write,
      and_comm]

theorem unshadowed_of_apart {profile : PmpProfile}
    (hinSpace : ∀ r ∈ profile.activeRegions, r.base + r.size ≤ usizeMax)
    (hapart : ∀ r ∈ profile.activeRegions, ∀ r' ∈ profile.activeRegions, r ≠ r' →
      r.base + r.size ≤ r'.base ∨ r'.base + r'.size ≤ r.base)
    {r : Region} (hr : r ∈ profile.activeRegions) {access : Access} (hperm : access.matches r.perm = true)
    {ptr endAddr : ℕ} (hlt : ptr < endAddr) (hholds : r.base ≤ ptr ∧ endAddr ≤ r.base + r.size) :
    Unshadowed profile ptr endAddr access := by
  intro d hd
  have hmem := List.mem_of_find?_eq_some hd
  refine ⟨hinSpace d hmem, ?_⟩
  have hdecides := List.find?_some hd
  simp only [Bool.or_eq_true, decide_eq_true_eq] at hdecides
  have hnowrap := hinSpace d hmem
  have hd' : d.base ≤ ptr ∧ endAddr ≤ d.base + d.size := by
    rcases hdecides with hwraps | hholds'
    · omega
    · exact hholds'
  by_cases hsame : d = r
  · rw [hsame]
    exact hperm
  · rcases hapart d hmem r hr hsame with hle | hle <;> omega

theorem generated_unshadowed (hprofiles : P.pmpProfiles = generatedPmpProfiles)
    (h : Placed P s s.currentTask messageLayout address)
    (hnative : isTaskSntmNative s s.currentTask = true) :
    Unshadowed (P.pmpProfiles s.currentTask) address (address + ipcMsgSize) .read ∧
      Unshadowed (P.pmpProfiles s.currentTask) address (address + ipcMsgSize) .write := by
  have hinSpace : ∀ task, ∀ r ∈ (generatedPmpProfiles task).activeRegions,
      r.base + r.size ≤ usizeMax := by decide
  have hapart : ∀ task, ∀ r ∈ (generatedPmpProfiles task).activeRegions,
      ∀ r' ∈ (generatedPmpProfiles task).activeRegions, r ≠ r' →
      r.base + r.size ≤ r'.base ∨ r'.base + r'.size ≤ r.base := by decide
  obtain ⟨r, hr, hread, hwrite, hholds⟩ := h.native hnative
  rw [size_messageLayout] at hholds
  rw [hprofiles] at hr ⊢
  have hlt : address < address + ipcMsgSize := by
    simp [ipcMsgSize]
  have hall : ∀ access, access.matches r.perm = true →
      Unshadowed (generatedPmpProfiles s.currentTask) address (address + ipcMsgSize) access := by
    intro access hperm
    exact unshadowed_of_apart (hinSpace _) (hapart _) hr hperm hlt hholds
  exact ⟨hall .read hread, hall .write hwrite⟩

end

/-! ## The first task of the boot sequence -/

def channelZero : ChannelIndex := ⟨0, by decide⟩

/-- The first task runs on its stack and is the producer of channel 0. -/
structure FirstTaskRuns (s : Sys) : Prop where
  current : s.currentTask = 0
  legacy : isTaskSntmNative s 0 = false
  stack : taskStackRange s 0 = some (0x80014000, 0x80016000)
  producer : s.pool.canSend channelZero 0 = true

instance (s : Sys) : Decidable (FirstTaskRuns s) :=
  decidable_of_iff (s.currentTask = 0 ∧ isTaskSntmNative s 0 = false ∧
    taskStackRange s 0 = some (0x80014000, 0x80016000) ∧ s.pool.canSend channelZero 0 = true)
    ⟨fun h => ⟨h.1, h.2.1, h.2.2.1, h.2.2.2⟩, fun h => ⟨h.current, h.legacy, h.stack, h.producer⟩⟩

theorem first_task_runs : ∃ s, scenario bootInit [] = .ok s ∧ FirstTaskRuns s := by
  obtain ⟨s, hs, ht⟩ := endsWith_iff.mp (show endsWith (scenario bootInit [])
    (fun s => decide (FirstTaskRuns s)) = true by decide +kernel)
  exact ⟨s, hs, of_decide_eq_true ht⟩

theorem first_task_placed {s : Sys} (h : FirstTaskRuns s) {address : ℕ} (hlo : 0x80014000 ≤ address)
    (hhi : address + 64 ≤ 0x80016000) :
    Placed referencePlatform s s.currentTask messageLayout address := by
  have hsize : messageLayout.size = 64 := size_messageLayout
  rw [h.current]
  constructor
  · omega
  · exact one_dvd address
  · rw [hsize, usizeMax]
    omega
  · intro hnative
    rw [h.legacy] at hnative
    cases hnative
  · intro _
    exact ⟨_, _, h.stack, hlo, hsize ▸ hhi⟩

theorem aligned_message_accepted : ∃ s, scenario bootInit [] = .ok s ∧
    ipcSend (sysIpcSend referencePlatform s channelZero.val 0x80014008).2 ≠ .error .invalidArg := by
  obtain ⟨s, hs, h⟩ := first_task_runs
  refine ⟨s, hs, (ipc_never_invalidArg_iff channelZero (first_task_placed h (by omega) (by omega))).1.mpr ?_⟩
  refine ⟨by decide, ?_⟩
  intro hnative
  rw [h.current, h.legacy] at hnative
  cases hnative

/-- The producer of channel 0 sends a message that lies at an odd address of its stack. -/
theorem odd_message_refused : ∃ s, scenario bootInit [] = .ok s ∧
    s.pool.canSend channelZero s.currentTask.val = true ∧
    Placed referencePlatform s s.currentTask messageLayout 0x80014001 ∧
    ipcSend (sysIpcSend referencePlatform s channelZero.val 0x80014001).2 = .error .invalidArg := by
  obtain ⟨s, hs, h⟩ := first_task_runs
  refine ⟨s, hs, ?_, first_task_placed h (by omega) (by omega), ?_⟩
  · rw [h.current]
    exact h.producer
  · rw [ipcSend_invalidArg]
    by_contra hne
    have haligned := sysIpcSend_invalidArg.mp hne
    exact absurd haligned.2 (by decide)

end SipahiApiMessages
