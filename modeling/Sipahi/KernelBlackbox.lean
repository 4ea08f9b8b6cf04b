import Sipahi.KernelTypes
import Mathlib.Logic.Function.Basic

/-!
# The blackbox flight recorder

A ring of 128 records of 64 bytes, each closed by a CRC-32 over its first 60 bytes.
-/
namespace KernelBlackbox

open KernelTypes

def crcBit (crc : UInt32) : UInt32 :=
  if crc &&& 1 ≠ 0 then (crc >>> 1) ^^^ 0xEDB88320 else crc >>> 1

def crcByte (crc : UInt32) (byte : UInt8) : UInt32 :=
  crcBit^[8] (crc ^^^ byte.toUInt32)

/-- CRC-32 (IEEE 802.3), bit by bit, least significant bit first. -/
def crc32 (data : List UInt8) : UInt32 := ~~~(data.foldl crcByte 0xFFFFFFFF)

inductive BlackboxEvent where
  | kernelBoot | taskStart | taskSuspend | taskRestart | budgetExhausted | policyIsolate
  | policyDegrade | policyFailover | policyShutdown | capViolation | iopmpViolation
  | deadlineMiss | watchdogTimeout | pmpFail | lockstepFail
  deriving DecidableEq, Repr

def BlackboxEvent.code : BlackboxEvent → UInt8
  | .kernelBoot => 0
  | .taskStart => 1
  | .taskSuspend => 2
  | .taskRestart => 3
  | .budgetExhausted => 4
  | .policyIsolate => 5
  | .policyDegrade => 6
  | .policyFailover => 7
  | .policyShutdown => 8
  | .capViolation => 9
  | .iopmpViolation => 10
  | .deadlineMiss => 11
  | .watchdogTimeout => 12
  | .pmpFail => 13
  | .lockstepFail => 14

def blackboxMaxRecords : ℕ := 128
def blackboxDataSize : ℕ := 42

structure BlackboxRecord where
  magic : List UInt8
  version : UInt16
  pad : List UInt8
  seq : UInt32
  timestamp : UInt32
  taskId : UInt8
  event : UInt8
  data : List UInt8
  crc : UInt32
  deriving DecidableEq

/-- "SPHI". -/
def recordMagic : List UInt8 := [0x53, 0x50, 0x48, 0x49]
def recordVersion : UInt16 := 1

def BlackboxRecord.zeroed : BlackboxRecord where
  magic := List.replicate 4 0
  version := 0
  pad := List.replicate 2 0
  seq := 0
  timestamp := 0
  taskId := 0
  event := 0
  data := List.replicate blackboxDataSize 0
  crc := 0

def le16 (x : UInt16) : List UInt8 := [x.toUInt8, (x >>> 8).toUInt8]

def le32 (x : UInt32) : List UInt8 :=
  [x.toUInt8, (x >>> 8).toUInt8, (x >>> 16).toUInt8, (x >>> 24).toUInt8]

/-- The bytes in front of the CRC, in the `repr(C)` layout. -/
def BlackboxRecord.header (r : BlackboxRecord) : List UInt8 :=
  r.magic ++ le16 r.version ++ r.pad ++ le32 r.seq ++ le32 r.timestamp ++
    [r.taskId, r.event] ++ r.data

def BlackboxRecord.setCrc (r : BlackboxRecord) : BlackboxRecord := { r with crc := crc32 r.header }

def BlackboxRecord.verifyCrc (r : BlackboxRecord) : Bool := r.crc == crc32 r.header

def BlackboxRecord.isValid (r : BlackboxRecord) : Bool :=
  r.magic == recordMagic && r.version == recordVersion && r.verifyCrc

structure Blackbox where
  buffer : Fin blackboxMaxRecords → BlackboxRecord
  writePos : ℕ
  nextSeq : ℕ
  tick : ℕ
  bootEpoch : ℕ
  count : ℕ

def dataField (data : List UInt8) : List UInt8 :=
  data.take blackboxDataSize ++ List.replicate (blackboxDataSize - data.length) 0

def record (seq tick : ℕ) (event : BlackboxEvent) (taskId : ℕ) (data : List UInt8) :
    BlackboxRecord :=
  BlackboxRecord.setCrc
    { BlackboxRecord.zeroed with
      magic := recordMagic
      version := recordVersion
      seq := UInt32.ofNat seq
      timestamp := UInt32.ofNat tick
      taskId := UInt8.ofNat taskId
      event := event.code
      data := dataField data }

/-- A corrupted write position drops the record and restarts at slot zero. -/
def Blackbox.log (b : Blackbox) (event : BlackboxEvent) (taskId : ℕ) (data : List UInt8) :
    Blackbox :=
  if h : b.writePos < blackboxMaxRecords then
    { b with
      buffer := Function.update b.buffer ⟨b.writePos, h⟩ (record b.nextSeq b.tick event taskId data)
      writePos := if blackboxMaxRecords ≤ b.writePos + 1 then 0 else b.writePos + 1
      nextSeq := wrappingAdd32 b.nextSeq 1
      count := if b.count < blackboxMaxRecords then b.count + 1 else b.count }
  else { b with writePos := 0 }

def Blackbox.init : Blackbox :=
  Blackbox.log
    { buffer := fun _ => BlackboxRecord.zeroed
      writePos := 0
      nextSeq := 0
      tick := 0
      bootEpoch := 0
      count := 0 }
    .kernelBoot systemTaskId []

def Blackbox.advanceTick (b : Blackbox) : Blackbox :=
  let next := wrappingAdd32 b.tick 1
  { b with
    bootEpoch := if next < b.tick then (b.bootEpoch + 1) % 2 ^ 16 else b.bootEpoch
    tick := next }

/-- Record `index`, zero being the oldest one kept. -/
def Blackbox.read (b : Blackbox) (index : ℕ) : Option BlackboxRecord :=
  if b.count ≤ index then none
  else
    let start := if b.count < blackboxMaxRecords then 0 else b.writePos
    let rec' := b.buffer ⟨(start + index) % blackboxMaxRecords, Nat.mod_lt _ (by decide)⟩
    if rec'.isValid then some rec' else none

/-- `(epoch << 32) | tick`; the two halves never overlap. -/
def Blackbox.getTick (b : Blackbox) : ℕ := b.bootEpoch * 2 ^ 32 + b.tick

def Blackbox.currentTick (b : Blackbox) : ℕ := b.tick

end KernelBlackbox
