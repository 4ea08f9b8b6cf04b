import Sipahi.KernelHandlers
import Sipahi.KernelReference
import Sipahi.KernelIpcLinearization

/-!
# The IPC system calls

A call either succeeds after all of its checks and moves one message, or leaves every queue, the
ownership of the channels and user memory alone.
-/
namespace KernelIpcSyscalls

open KernelTypes KernelIpcChannel KernelPmp KernelState KernelScheduler KernelSyscall
open KernelHandlers KernelIpcLinearization KernelReference BoundedFifo

/-! ## Queues of idle channels -/

/-- The messages of a channel, oldest first. -/
def queueOf (c : SpscChannel) : List IpcMessage := window c.slots c.tail c.len

theorem head_eq_ringIndex (c : SpscChannel) : c.head = ringIndex c.tail c.len := by
  have hh := c.head.isLt
  have ht := c.tail.isLt
  apply Fin.ext
  simp only [ringIndex, SpscChannel.len, ipcChannelSlots] at *
  split <;> omega

theorem len_le_capacity (c : SpscChannel) : c.len ≤ capacity := by
  have hh := c.head.isLt
  have ht := c.tail.isLt
  simp only [SpscChannel.len, capacity, ipcChannelSlots] at *
  split <;> omega

theorem queueOf_length (c : SpscChannel) : (queueOf c).length = c.len := by
  simp [queueOf, window]

/-- Between two calls every channel represents its queue. -/
theorem represents_queueOf (c : SpscChannel) : Represents ⟨c, .idle, .idle⟩ (queueOf c) where
  head := by
    rw [queueOf_length]
    exact head_eq_ringIndex c
  contents := by
    rw [queueOf_length]
    rfl
  bound := by
    rw [queueOf_length]
    exact len_le_capacity c
  producer := trivial
  consumer := trivial

theorem queueOf_eq {s : Endpoints} {q : List IpcMessage} (h : Represents s q) :
    queueOf s.channel = q := by
  rw [queueOf, len_eq h]
  exact h.contents

theorem send_appends {c d : SpscChannel} {msg : IpcMessage} (h : c.send msg = .ok d) :
    queueOf d = queueOf c ++ [msg] := by
  have hidle := represents_queueOf c
  rw [SpscChannel.send] at h
  split at h
  · cases h
  · rename_i hroom
    cases h
    have hlt : (queueOf c).length < capacity :=
      Nat.lt_of_le_of_ne hidle.bound fun he => hroom ((full_iff hidle).mpr he)
    have hloaded : Represents ⟨c, .tailLoaded msg c.head, .idle⟩ (queueOf c) :=
      ⟨hidle.head, hidle.contents, hidle.bound, ⟨rfl, hlt⟩, trivial⟩
    exact queueOf_eq (represents_enqueue (represents_copy hloaded rfl) rfl).2

theorem recv_removes {c d : SpscChannel} {msg : IpcMessage} (h : c.recv = some (msg, d)) :
    queueOf c = msg :: queueOf d := by
  have hidle := represents_queueOf c
  rw [SpscChannel.recv] at h
  split at h
  · cases h
  · rename_i hmore
    cases h
    have hpos : 0 < (queueOf c).length :=
      Nat.pos_of_ne_zero fun hz => hmore ((empty_iff hidle).mpr hz)
    have hcopied : Represents ⟨c, .idle, .slotCopied c.tail (c.slots c.tail)⟩ (queueOf c) :=
      ⟨hidle.head, hidle.contents, hidle.bound, trivial, ⟨rfl, hpos, rfl⟩⟩
    obtain ⟨rest, hq, hrest⟩ := represents_dequeue hcopied rfl
    rw [hq, ← queueOf_eq hrest]

/-! ## Pointers -/

/-- The message at `ptr` lies in one region in which the caller has this access; a task that is
not SNTM-native has its stack only. No range wraps around the address space. -/
def MessageGranted (P : Platform) (s : Sys) (access : Access) (ptr : ℕ) : Prop :=
  ptr + ipcMsgSize ≤ usizeMax ∧
    if isTaskSntmNative s s.currentTask then
      ∃ r ∈ (P.pmpProfiles s.currentTask).activeRegions, r.base + r.size ≤ usizeMax ∧
        r.base ≤ ptr ∧ ptr + ipcMsgSize ≤ r.base + r.size ∧ access.matches r.perm = true
    else ∃ base top, taskStackRange s s.currentTask = some (base, top) ∧ base ≤ ptr ∧
      ptr + ipcMsgSize ≤ top

theorem checkedAdd_some {x y z : ℕ} (h : checkedAdd x y = some z) : z = x + y ∧ z ≤ usizeMax := by
  rw [checkedAdd] at h
  split at h
  · cases h
    exact ⟨rfl, ‹_›⟩
  · cases h

/-- The region that decides on a range: the first one that holds it or runs past the last
address. -/
def decidingRegion (regions : List Region) (ptr endAddr : ℕ) : Option Region :=
  regions.find? fun r =>
    decide (usizeMax < r.base + r.size) || decide (r.base ≤ ptr ∧ endAddr ≤ r.base + r.size)

theorem regionsAllow_iff {regions : List Region} {ptr endAddr : ℕ} {access : Access} :
    regionsAllow ptr endAddr access regions = true ↔
      ∃ r, decidingRegion regions ptr endAddr = some r ∧ r.base + r.size ≤ usizeMax ∧
        access.matches r.perm = true := by
  induction regions with
  | nil => simp [regionsAllow, decidingRegion]
  | cons r rest ih =>
    rw [regionsAllow, decidingRegion, List.find?_cons]
    by_cases hwraps : usizeMax < r.base + r.size
    · have hadd : checkedAdd r.base r.size = none := if_neg (Nat.not_le.mpr hwraps)
      rw [hadd]
      simp [hwraps]
    · have hadd : checkedAdd r.base r.size = some (r.base + r.size) := if_pos (Nat.not_lt.mp hwraps)
      rw [hadd]
      dsimp only
      by_cases hholds : r.base ≤ ptr ∧ endAddr ≤ r.base + r.size
      · rw [if_pos hholds]
        simp [hholds, Nat.not_lt.mp hwraps]
      · rw [if_neg hholds, ih]
        simp [hwraps, hholds, decidingRegion]

theorem decidingRegion_isSome {regions : List Region} {r : Region} (hr : r ∈ regions)
    {ptr endAddr : ℕ} (hholds : r.base ≤ ptr ∧ endAddr ≤ r.base + r.size) :
    (decidingRegion regions ptr endAddr).isSome = true := by
  rw [decidingRegion, List.find?_isSome]
  exact ⟨r, hr, by simp [hholds]⟩

theorem decidingRegion_holds {regions : List Region} {r : Region} {ptr endAddr : ℕ}
    (h : decidingRegion regions ptr endAddr = some r) (hfits : r.base + r.size ≤ usizeMax) :
    r ∈ regions ∧ r.base ≤ ptr ∧ endAddr ≤ r.base + r.size := by
  have hdecides := List.find?_some h
  rw [Bool.or_eq_true, decide_eq_true_eq, decide_eq_true_eq] at hdecides
  exact ⟨List.mem_of_find?_eq_some h, hdecides.resolve_left (Nat.not_lt.mpr hfits)⟩

theorem regionsAllow_region {ptr endAddr : ℕ} {access : Access} {regions : List Region}
    (h : regionsAllow ptr endAddr access regions = true) :
    ∃ r ∈ regions, r.base + r.size ≤ usizeMax ∧ r.base ≤ ptr ∧ endAddr ≤ r.base + r.size ∧
      access.matches r.perm = true := by
  obtain ⟨r, hdecides, hfits, hperm⟩ := regionsAllow_iff.mp h
  obtain ⟨hr, hbase, hend⟩ := decidingRegion_holds hdecides hfits
  exact ⟨r, hr, hfits, hbase, hend, hperm⟩

theorem checkPtrInProfile_region {profile : PmpProfile} {ptr size : ℕ} {access : Access}
    (h : checkPtrInProfile profile ptr size access = true) :
    ptr + size ≤ usizeMax ∧ ∃ r ∈ profile.activeRegions, r.base + r.size ≤ usizeMax ∧
      r.base ≤ ptr ∧ ptr + size ≤ r.base + r.size ∧ access.matches r.perm = true := by
  rw [checkPtrInProfile] at h
  split at h
  · cases h
  · split at h
    · cases h
    · rename_i endAddr hend
      obtain ⟨rfl, hmax⟩ := checkedAdd_some hend
      exact ⟨hmax, regionsAllow_region h⟩

theorem isValidUserPtr_granted {P : Platform} {s : Sys} {ptr : ℕ} {access : Access}
    (h : isValidUserPtr P s s.currentTask ptr ipcMsgSize access = true) :
    MessageGranted P s access ptr := by
  rw [MessageGranted]
  simp only [isValidUserPtr] at h
  split at h
  · rename_i hlegacy
    rw [Bool.not_eq_true'] at hlegacy
    rw [if_neg (by simp [hlegacy])]
    split at h
    · cases h
    · split at h
      · rename_i endAddr base top hend hrange
        obtain ⟨rfl, hmax⟩ := checkedAdd_some hend
        rw [Bool.and_eq_true, decide_eq_true_eq, decide_eq_true_eq] at h
        exact ⟨hmax, base, top, hrange, h⟩
      · cases h
  · rename_i hnative
    rw [if_pos (by simpa using hnative)]
    split at h
    · cases h
    · exact checkPtrInProfile_region h

/-! ## The calls -/

/-- What a call keeps when it moves no message. -/
structure Untouched (s u : Sys) : Prop where
  queues : ∀ channel, queueOf (u.pool.channels channel) = queueOf (s.pool.channels channel)
  owners : u.pool.owners = s.pool.owners
  sealed : u.pool.sealed = s.pool.sealed
  userMem : u.userMem = s.userMem

/-- The state `u` after a successful `sys_ipc_send`. -/
structure Sent (P : Platform) (s : Sys) (channel : ChannelIndex) (msgPtr : ℕ) (u : Sys) : Prop where
  producer : (s.pool.owners channel).1 = s.currentTask.val
  aligned : msgPtr % 8 = 0
  granted : MessageGranted P s .read msgPtr
  appended : queueOf (u.pool.channels channel) =
    queueOf (s.pool.channels channel) ++ [readMessage s.userMem msgPtr]
  others : ∀ other, other ≠ channel → u.pool.channels other = s.pool.channels other
  owners : u.pool.owners = s.pool.owners
  sealed : u.pool.sealed = s.pool.sealed
  userMem : u.userMem = s.userMem

/-- The state `u` after a successful `sys_ipc_recv`. -/
structure Received (P : Platform) (s : Sys) (channel : ChannelIndex) (bufPtr : ℕ) (u : Sys) :
    Prop where
  consumer : (s.pool.owners channel).2 = s.currentTask.val
  aligned : bufPtr % 8 = 0
  granted : MessageGranted P s .write bufPtr
  removed : queueOf (s.pool.channels channel) =
    readMessage u.userMem bufPtr :: queueOf (u.pool.channels channel)
  others : ∀ other, other ≠ channel → u.pool.channels other = s.pool.channels other
  owners : u.pool.owners = s.pool.owners
  sealed : u.pool.sealed = s.pool.sealed
  userMem : ∀ a, a < bufPtr ∨ bufPtr + ipcMsgSize ≤ a → u.userMem a = s.userMem a

theorem Untouched.refl (s : Sys) : Untouched s s := ⟨fun _ => rfl, rfl, rfl, rfl⟩

theorem read_writeMessage (mem : ℕ → UInt8) (ptr : ℕ) (msg : IpcMessage) :
    readMessage (writeMessage mem ptr msg) ptr = msg := by
  obtain ⟨data⟩ := msg
  rw [readMessage, IpcMessage.mk.injEq]
  funext i
  have hi := i.isLt
  rw [writeMessage, dif_pos ⟨by omega, by omega⟩]
  congr 1
  apply Fin.ext
  simp

theorem writeMessage_outside {mem : ℕ → UInt8} {ptr a : ℕ} {msg : IpcMessage}
    (h : a < ptr ∨ ptr + ipcMsgSize ≤ a) : writeMessage mem ptr msg a = mem a := by
  rw [writeMessage, dif_neg (by omega)]

/-- The refusals of the two calls differ from success. -/
structure Refusals : Prop where
  invalidArg : errInvalidArg ≠ errOk
  noCapability : errNoCapability ≠ errOk
  rateLimited : errRateLimited ≠ errOk
  ipcFull : errIpcFull ≠ errOk
  ipcEmpty : errIpcEmpty ≠ errOk

theorem refusals : Refusals := by
  constructor <;> decide

/-- Everything `sys_ipc_send` can have done. -/
theorem sysIpcSend_cases (P : Platform) (s : Sys) (channelId msgPtr : ℕ) :
    ((sysIpcSend P s channelId msgPtr).2 ≠ errOk ∧
      Untouched s (sysIpcSend P s channelId msgPtr).1) ∨
    (sysIpcSend P s channelId msgPtr).2 = errOk ∧ ∃ channel : ChannelIndex,
      channel.val = channelId ∧ Sent P s channel msgPtr (sysIpcSend P s channelId msgPtr).1 := by
  simp only [sysIpcSend]
  split
  · rename_i hid
    split
    · exact Or.inl ⟨refusals.invalidArg, .refl s⟩
    · rename_i hptr
      split
      · exact Or.inl ⟨refusals.invalidArg, .refl s⟩
      · rename_i halign
        split
        · exact Or.inl ⟨refusals.noCapability, .refl s⟩
        · rename_i hown
          split
          · exact Or.inl ⟨refusals.rateLimited, .refl s⟩
          · split
            · rename_i c hc
              rw [(incrementIpcSend_counted s).pool, (incrementIpcSend_counted s).userMem] at hc
              refine Or.inr ⟨rfl, ⟨channelId, hid⟩, rfl, ?_, ?_, ?_, ?_, ?_, ?_, ?_, ?_⟩
              · simpa [ChannelPool.canSend] using hown
              · exact not_not.mp halign
              · exact isValidUserPtr_granted (by simpa using hptr)
              · simpa [setChannel] using send_appends hc
              · intro other hne
                simp [setChannel, hne, (incrementIpcSend_counted s).pool]
              · simp [setChannel, (incrementIpcSend_counted s).pool]
              · simp [setChannel, (incrementIpcSend_counted s).pool]
              · simp [setChannel, (incrementIpcSend_counted s).userMem]
            · refine Or.inl ⟨refusals.ipcFull, fun channel => ?_, ?_, ?_, ?_⟩
              · rw [(incrementIpcSend_counted s).pool]
              · rw [(incrementIpcSend_counted s).pool]
              · rw [(incrementIpcSend_counted s).pool]
              · rw [(incrementIpcSend_counted s).userMem]
  · exact Or.inl ⟨refusals.invalidArg, .refl s⟩

/-- Everything `sys_ipc_recv` can have done. -/
theorem sysIpcRecv_cases (P : Platform) (s : Sys) (channelId bufPtr : ℕ) :
    ((sysIpcRecv P s channelId bufPtr).2 ≠ errOk ∧
      Untouched s (sysIpcRecv P s channelId bufPtr).1) ∨
    (sysIpcRecv P s channelId bufPtr).2 = errOk ∧ ∃ channel : ChannelIndex,
      channel.val = channelId ∧
        Received P s channel bufPtr (sysIpcRecv P s channelId bufPtr).1 := by
  simp only [sysIpcRecv]
  split
  · rename_i hid
    split
    · exact Or.inl ⟨refusals.invalidArg, .refl s⟩
    · rename_i hptr
      split
      · exact Or.inl ⟨refusals.invalidArg, .refl s⟩
      · rename_i halign
        split
        · exact Or.inl ⟨refusals.noCapability, .refl s⟩
        · rename_i hown
          split
          · rename_i msg c hc
            refine Or.inr ⟨rfl, ⟨channelId, hid⟩, rfl, ?_, ?_, ?_, ?_, ?_, rfl, rfl, ?_⟩
            · simpa [ChannelPool.canRecv] using hown
            · exact not_not.mp halign
            · exact isValidUserPtr_granted (by simpa using hptr)
            · simpa [setChannel, read_writeMessage] using recv_removes hc
            · intro other hne
              simp [setChannel, hne]
            · intro a ha
              exact writeMessage_outside ha
          · exact Or.inl ⟨refusals.ipcEmpty, .refl s⟩
  · exact Or.inl ⟨refusals.invalidArg, .refl s⟩

/-- The IPC system calls are guarded and atomic, whatever the state, the caller and the
arguments. -/
theorem ipc_syscalls_guarded_atomic (P : Platform) (s : Sys) (channelId ptr : ℕ) :
    ((sysIpcSend P s channelId ptr).2 = errOk → ∃ channel : ChannelIndex,
      channel.val = channelId ∧ Sent P s channel ptr (sysIpcSend P s channelId ptr).1) ∧
    ((sysIpcSend P s channelId ptr).2 ≠ errOk →
      Untouched s (sysIpcSend P s channelId ptr).1) ∧
    ((sysIpcRecv P s channelId ptr).2 = errOk → ∃ channel : ChannelIndex,
      channel.val = channelId ∧ Received P s channel ptr (sysIpcRecv P s channelId ptr).1) ∧
    ((sysIpcRecv P s channelId ptr).2 ≠ errOk →
      Untouched s (sysIpcRecv P s channelId ptr).1) := by
  refine ⟨fun h => ?_, fun h => ?_, fun h => ?_, fun h => ?_⟩
  · rcases sysIpcSend_cases P s channelId ptr with ⟨hne, -⟩ | ⟨-, hsent⟩
    · exact absurd h hne
    · exact hsent
  · rcases sysIpcSend_cases P s channelId ptr with ⟨-, hkept⟩ | ⟨hok, -⟩
    · exact hkept
    · exact absurd hok h
  · rcases sysIpcRecv_cases P s channelId ptr with ⟨hne, -⟩ | ⟨-, hreceived⟩
    · exact absurd h hne
    · exact hreceived
  · rcases sysIpcRecv_cases P s channelId ptr with ⟨-, hkept⟩ | ⟨hok, -⟩
    · exact hkept
    · exact absurd hok h

/-- The first task sends on channel 0, and the second one receives into its own stack. -/
theorem first_message_delivered : ∃ s u v : Sys, ∃ channel : ChannelIndex,
    scenario bootInit [] = .ok s ∧ Sent referencePlatform s channel 0x80014000 u ∧
      Received referencePlatform { u with currentTask := 1 } channel 0x80016000 v := by
  obtain ⟨s, hs, ht⟩ := endsWith_iff.mp (show endsWith (scenario bootInit []) (fun s =>
    let u := (sysIpcSend referencePlatform s 0 0x80014000).1
    decide ((sysIpcSend referencePlatform s 0 0x80014000).2 = errOk ∧
      (sysIpcRecv referencePlatform { u with currentTask := 1 } 0 0x80016000).2 = errOk)) = true
    by decide +kernel)
  obtain ⟨hsend, hrecv⟩ := of_decide_eq_true ht
  obtain ⟨c, hc, hsent⟩ :=
    (ipc_syscalls_guarded_atomic referencePlatform s 0 0x80014000).1 hsend
  obtain ⟨d, hd, hreceived⟩ :=
    (ipc_syscalls_guarded_atomic referencePlatform _ 0 0x80016000).2.2.1 hrecv
  obtain rfl : c = d := Fin.ext (hc.trans hd.symm)
  exact ⟨s, _, _, c, hs, hsent, hreceived⟩

end KernelIpcSyscalls
