import Sipahi.KernelScheduler

/-!
# System calls

A handler answers with `none` when the CPU went to a task that has never run: its code starts
in `task_trampoline`, and the rest of the handler and of the trap exit is not executed.
-/
namespace KernelSyscall

open KernelTypes KernelPolicy KernelCapability KernelIpcChannel KernelPmp KernelState
open KernelScheduler

def sysCapInvokeId : ℕ := 0
def sysIpcSendId : ℕ := 1
def sysIpcRecvId : ℕ := 2
def sysYieldId : ℕ := 3
def sysTaskInfoId : ℕ := 4
def sysExitId : ℕ := 5
def syscallCount : ℕ := 6

def errOk : ℕ := 0
def errInvalidSyscall : ℕ := usizeMax
def errNoCapability : ℕ := usizeMax - 1
def errIpcFull : ℕ := usizeMax - 2
def errIpcEmpty : ℕ := usizeMax - 3
def errInvalidArg : ℕ := usizeMax - 4
def errRateLimited : ℕ := usizeMax - 6
def errInternal : ℕ := usizeMax - 7

/-- The first region that holds the range decides; an overflowing region denies. -/
def regionsAllow (ptr endAddr : ℕ) (access : Access) : List Region → Bool
  | [] => false
  | r :: rest =>
    match checkedAdd r.base r.size with
    | none => false
    | some regionEnd =>
      if r.base ≤ ptr ∧ endAddr ≤ regionEnd then access.matches r.perm
      else regionsAllow ptr endAddr access rest

def checkPtrInProfile (profile : PmpProfile) (ptr size : ℕ) (access : Access) : Bool :=
  if ptr = 0 then false
  else match checkedAdd ptr size with
    | none => false
    | some endAddr => regionsAllow ptr endAddr access profile.activeRegions

/-- A legacy task is confined to its stack, whatever the access. -/
def isValidUserPtr (P : Platform) (s : Sys) (caller : TaskIndex) (ptr size : ℕ) (access : Access) :
    Bool :=
  if !isTaskSntmNative s caller then
    if ptr = 0 then false
    else match checkedAdd ptr size, taskStackRange s caller with
      | some endAddr, some (base, top) => decide (base ≤ ptr) && decide (endAddr ≤ top)
      | _, _ => false
  else
    let profile := P.pmpProfiles caller
    if profile.activeRegions.isEmpty then false else checkPtrInProfile profile ptr size access

/-- The answer of the token or of the local path; `none` when reserved bits are set. -/
def capabilityGranted (P : Platform) (s : Sys) (cap resource action : ℕ) : Option Bool :=
  if cap &&& 0x80 ≠ 0 then
    if cap &&& 0x7F ≠ 0 then none
    else some (localCapCheck P.localCapTable s.currentTask.val (resource % 2 ^ 8) action)
  else some (s.broker.validateCached s.blackbox.getTick s.currentTask.val (cap &&& 0x7F) resource
    action)

/-- Three failures in a row escalate and start the count again. -/
def recordCapResult (P : Platform) (s : Sys) (ok : Bool) : Except Halt Sys :=
  let caller := s.currentTask
  if ok then .ok { s with capFailCount := Function.update s.capFailCount caller 0 }
  else
    let count := saturatingAdd8 (s.capFailCount caller) 1
    if 3 ≤ count then
      respond P
        ({ s with capFailCount := Function.update s.capFailCount caller 0 }.log .capViolation
          caller.val [])
        caller caller.val .capViolation s.current.dal
    else .ok { s with capFailCount := Function.update s.capFailCount caller count }

def sysCapInvoke (P : Platform) (s : Sys) (cap resource action : ℕ) : Except Halt (Sys × ℕ) :=
  if u8Max < cap ∨ u16Max < resource ∨ u8Max < action then .ok (s, errInvalidArg)
  else match capabilityGranted P s cap resource action with
    | none => .ok (s, errInvalidArg)
    | some ok => do
      let u ← recordCapResult P s ok
      .ok (u, if ok then errOk else errNoCapability)

def readMessage (mem : ℕ → UInt8) (ptr : ℕ) : IpcMessage := ⟨fun i => mem (ptr + i.val)⟩

def writeMessage (mem : ℕ → UInt8) (ptr : ℕ) (msg : IpcMessage) : ℕ → UInt8 := fun a =>
  if h : ptr ≤ a ∧ a < ptr + ipcMsgSize then msg.data ⟨a - ptr, by omega⟩ else mem a

def setChannel (s : Sys) (channel : ChannelIndex) (c : SpscChannel) : Sys :=
  { s with pool := { s.pool with channels := Function.update s.pool.channels channel c } }

def sysIpcSend (P : Platform) (s : Sys) (channelId msgPtr : ℕ) : Sys × ℕ :=
  if h : channelId < maxIpcChannels then
    let channel : ChannelIndex := ⟨channelId, h⟩
    let caller := s.currentTask
    if !isValidUserPtr P s caller msgPtr ipcMsgSize .read then (s, errInvalidArg)
    else if msgPtr % 8 ≠ 0 then (s, errInvalidArg)
    else if !s.pool.canSend channel caller.val then (s, errNoCapability)
    else if !checkIpcRate s then (s, errRateLimited)
    else
      let s := incrementIpcSend s
      match (s.pool.channels channel).send (readMessage s.userMem msgPtr) with
      | .ok c => (setChannel s channel c, errOk)
      | .error _ => (s, errIpcFull)
  else (s, errInvalidArg)

def sysIpcRecv (P : Platform) (s : Sys) (channelId bufPtr : ℕ) : Sys × ℕ :=
  if h : channelId < maxIpcChannels then
    let channel : ChannelIndex := ⟨channelId, h⟩
    let caller := s.currentTask
    if !isValidUserPtr P s caller bufPtr ipcMsgSize .write then (s, errInvalidArg)
    else if bufPtr % 8 ≠ 0 then (s, errInvalidArg)
    else if !s.pool.canRecv channel caller.val then (s, errNoCapability)
    else match (s.pool.channels channel).recv with
      | some (msg, c) =>
        ({ setChannel s channel c with userMem := writeMessage s.userMem bufPtr msg }, errOk)
      | none => (s, errIpcEmpty)
  else (s, errInvalidArg)

/-- A scheduling call as the last action of a handler that then answers `E_OK`. -/
def okUnlessStarted : Sys × Flow → Sys × Option ℕ
  | (s, .resume) => (s, some errOk)
  | (s, .trampoline) => (s, none)

def sysYield (P : Platform) (s : Sys) : Except Halt (Sys × Option ℕ) := do
  let u ← watchdogKick P s
  let r ← scheduleYield P u
  .ok (okUnlessStarted r)

def sysTaskInfo (s : Sys) (taskId : ℕ) : ℕ := queryTaskInfo s taskId

def sysExit (P : Platform) (s : Sys) : Except Halt (Sys × Option ℕ) := do
  let u ← isolateTask s s.currentTask
  let r ← scheduleYield P u
  .ok (okUnlessStarted r)

/-- A result that looks like a kernel address is not handed out. -/
def hideKernelPointer (P : Platform) (result : ℕ) : ℕ :=
  if P.kernelStart ≤ result ∧ result < P.kernelEnd then errInternal else result

/-- `SYSCALL_TABLE`. -/
def syscallTable (P : Platform) (s : Sys) (syscallId arg0 arg1 arg2 : ℕ) :
    Except Halt (Sys × Option ℕ) :=
  match syscallId with
  | 0 => do
    let (u, r) ← sysCapInvoke P s arg0 arg1 arg2
    .ok (u, some r)
  | 1 =>
    let (u, r) := sysIpcSend P s arg0 arg1
    .ok (u, some r)
  | 2 =>
    let (u, r) := sysIpcRecv P s arg0 arg1
    .ok (u, some r)
  | 3 => sysYield P s
  | 4 => .ok (s, some (sysTaskInfo s arg0))
  | 5 => sysExit P s
  | _ => .error .panic

def dispatch (P : Platform) (s : Sys) (syscallId arg0 arg1 arg2 : ℕ) :
    Except Halt (Sys × Option ℕ) :=
  if syscallCount ≤ syscallId then .ok (s, some errInvalidSyscall)
  else do
    let (u, r) ← syscallTable P (incrementSyscallCount s) syscallId arg0 arg1 arg2
    .ok (u, r.map (hideKernelPointer P))

end KernelSyscall
