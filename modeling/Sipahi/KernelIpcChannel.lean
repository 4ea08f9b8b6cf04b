import Sipahi.KernelBlackbox

/-!
# SPSC channels and their owners

`head` is stored by the producer only and `tail` by the consumer only. Both are always a
remainder modulo the number of slots, so they are indices by type.
-/
namespace KernelIpcChannel

open KernelTypes KernelBlackbox

def ipcMsgSize : ℕ := 64
def ipcPayloadSize : ℕ := 60
def ipcChannelSlots : ℕ := 16

/-- 64 bytes: a payload of 60 and a little-endian CRC-32. -/
structure IpcMessage where
  data : Fin ipcMsgSize → UInt8
  deriving DecidableEq

def IpcMessage.zeroed : IpcMessage := ⟨fun _ => 0⟩

def IpcMessage.payload (m : IpcMessage) : List UInt8 := (List.ofFn m.data).take ipcPayloadSize

def IpcMessage.setCrc (m : IpcMessage) : IpcMessage :=
  ⟨fun i => if h : ipcPayloadSize ≤ i.val then
      (le32 (crc32 m.payload)).get ⟨i.val - ipcPayloadSize, by
        have := i.isLt
        simp only [ipcMsgSize, ipcPayloadSize, le32, List.length_cons, List.length_nil] at *
        omega⟩
    else m.data i⟩

def IpcMessage.verifyCrc (m : IpcMessage) : Bool :=
  (List.ofFn m.data).drop ipcPayloadSize == le32 (crc32 m.payload)

abbrev SlotIndex := Fin ipcChannelSlots

structure SpscChannel where
  head : SlotIndex
  tail : SlotIndex
  slots : SlotIndex → IpcMessage

def SpscChannel.new : SpscChannel where
  head := ⟨0, by decide⟩
  tail := ⟨0, by decide⟩
  slots := fun _ => .zeroed

/-- `wrapping_add(1) % IPC_CHANNEL_SLOTS` on a 16-bit index. -/
def nextIndex (i : SlotIndex) : SlotIndex :=
  ⟨(i.val + 1) % 2 ^ 16 % ipcChannelSlots, Nat.mod_lt _ (by decide)⟩

inductive SipahiError where
  | bufferFull
  deriving DecidableEq, Repr

def SpscChannel.send (c : SpscChannel) (msg : IpcMessage) : Except SipahiError SpscChannel :=
  if nextIndex c.head = c.tail then .error .bufferFull
  else .ok { c with slots := Function.update c.slots c.head msg, head := nextIndex c.head }

def SpscChannel.recv (c : SpscChannel) : Option (IpcMessage × SpscChannel) :=
  if c.tail = c.head then none
  else some (c.slots c.tail, { c with tail := nextIndex c.tail })

def SpscChannel.isFull (c : SpscChannel) : Bool := nextIndex c.head == c.tail

def SpscChannel.isEmpty (c : SpscChannel) : Bool := c.tail == c.head

def SpscChannel.len (c : SpscChannel) : ℕ :=
  if c.tail.val ≤ c.head.val then c.head.val - c.tail.val
  else ipcChannelSlots - c.tail.val + c.head.val

abbrev ChannelIndex := Fin maxIpcChannels

/-- The static channel pool with `(producer, consumer)` of each channel and the seal. -/
structure ChannelPool where
  channels : ChannelIndex → SpscChannel
  owners : ChannelIndex → ℕ × ℕ
  sealed : Bool

def ChannelPool.empty : ChannelPool where
  channels := fun _ => .new
  owners := fun _ => (channelUnassigned, channelUnassigned)
  sealed := false

/-- `none` where the source answers `false`. -/
def ChannelPool.assignChannel (p : ChannelPool) (channelId producer consumer : ℕ) :
    Option ChannelPool :=
  if p.sealed then none
  else if h : channelId < maxIpcChannels then
    if maxTasks ≤ producer ∨ maxTasks ≤ consumer then none
    else some { p with owners := Function.update p.owners ⟨channelId, h⟩ (producer, consumer) }
  else none

def ChannelPool.sealChannels (p : ChannelPool) : ChannelPool := { p with sealed := true }

def ChannelPool.canSend (p : ChannelPool) (channelId : ChannelIndex) (caller : ℕ) : Bool :=
  (p.owners channelId).1 == caller

def ChannelPool.canRecv (p : ChannelPool) (channelId : ChannelIndex) (caller : ℕ) : Bool :=
  (p.owners channelId).2 == caller

end KernelIpcChannel
