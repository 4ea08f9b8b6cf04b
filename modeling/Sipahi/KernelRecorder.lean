import Sipahi.KernelBlackbox
import Sipahi.SlidingWindow

/-!
# The blackbox as a window on the event log

The abstract recorder is the list of everything that was ever logged, each event with the number
of ticks before it. The ring of the kernel holds the last 128 of them.
-/
namespace KernelRecorder

open KernelTypes KernelBlackbox SlidingWindow

inductive RecorderCall where
  | log (event : BlackboxEvent) (taskId : UInt8) (data : List UInt8)
  | advanceTick

def apply (b : Blackbox) : RecorderCall → Blackbox
  | .log event taskId data => b.log event taskId.toNat data
  | .advanceTick => b.advanceTick

/-- The recorder after `init` and these calls. -/
def runRecorder (calls : List RecorderCall) : Blackbox := calls.foldl apply Blackbox.init

structure LoggedEvent where
  ticks : ℕ
  event : BlackboxEvent
  taskId : UInt8
  data : List UInt8

/-- Everything logged so far, and the ticks so far. -/
structure EventLog where
  events : List LoggedEvent
  ticks : ℕ

def EventLog.apply (l : EventLog) : RecorderCall → EventLog
  | .log event taskId data => { l with events := l.events ++ [⟨l.ticks, event, taskId, data⟩] }
  | .advanceTick => { l with ticks := l.ticks + 1 }

/-- `init` itself logs the boot of the kernel. -/
def EventLog.init : EventLog := ⟨[⟨0, .kernelBoot, 0xFF, []⟩], 0⟩

def eventLog (calls : List RecorderCall) : EventLog := calls.foldl EventLog.apply .init

/-- The record that stands for entry `k` of the log. -/
def recordOf (k : ℕ) (e : LoggedEvent) : BlackboxRecord :=
  record (k % 2 ^ 32) (e.ticks % 2 ^ 32) e.event e.taskId.toNat e.data

/-- The ring, its two indices and the sequence number agree with the log. -/
structure Records (b : Blackbox) (l : EventLog) : Prop where
  writePos : b.writePos = l.events.length % blackboxMaxRecords
  count : b.count = min l.events.length blackboxMaxRecords
  nextSeq : b.nextSeq = l.events.length % 2 ^ 32
  tick : b.tick = l.ticks % 2 ^ 32
  ring : Keeps (by decide) b.buffer (l.events.mapIdx recordOf)

theorem records_log {b : Blackbox} {l : EventLog} (h : Records b l) (event : BlackboxEvent)
    (taskId : UInt8) (data : List UInt8) :
    Records (apply b (.log event taskId data)) (l.apply (.log event taskId data)) := by
  have hpos : b.writePos < blackboxMaxRecords := by
    rw [h.writePos]
    exact Nat.mod_lt _ (by decide)
  have hlen : ∀ e, (l.events ++ [e]).length = l.events.length + 1 := fun e => by simp
  simp only [apply, Blackbox.log, dif_pos hpos, EventLog.apply]
  constructor
  · have hw := h.writePos
    dsimp only
    rw [hlen]
    by_cases hlast : blackboxMaxRecords ≤ b.writePos + 1
    · rw [if_pos hlast]
      unfold blackboxMaxRecords at *
      omega
    · rw [if_neg hlast]
      unfold blackboxMaxRecords at *
      omega
  · have hc := h.count
    dsimp only
    rw [hlen]
    by_cases hroom : b.count < blackboxMaxRecords
    · rw [if_pos hroom]
      omega
    · rw [if_neg hroom]
      omega
  · rw [hlen, h.nextSeq, wrappingAdd32, Nat.mod_add_mod]
  · exact h.tick
  · have hslot : (⟨b.writePos, hpos⟩ : Fin blackboxMaxRecords) =
        slotOf (by decide) (l.events.mapIdx recordOf).length := by
      apply Fin.ext
      rw [List.length_mapIdx]
      exact h.writePos
    rw [hslot, h.nextSeq, h.tick, List.mapIdx_concat]
    exact keeps_write h.ring _

theorem records_advanceTick {b : Blackbox} {l : EventLog} (h : Records b l) :
    Records (apply b .advanceTick) (l.apply .advanceTick) where
  writePos := h.writePos
  count := h.count
  nextSeq := h.nextSeq
  tick := by
    simp only [apply, Blackbox.advanceTick, EventLog.apply]
    rw [h.tick, wrappingAdd32, Nat.mod_add_mod]
  ring := h.ring

theorem records_init : Records Blackbox.init .init := by
  have hempty : Records
      { buffer := fun _ => BlackboxRecord.zeroed
        writePos := 0
        nextSeq := 0
        tick := 0
        bootEpoch := 0
        count := 0 } ⟨[], 0⟩ := by
    constructor
    · rfl
    · rfl
    · rfl
    · rfl
    · exact keeps_nil _ _
  exact records_log hempty .kernelBoot 0xFF []

theorem records_run (calls : List RecorderCall) : Records (runRecorder calls) (eventLog calls) := by
  have hrun : ∀ b l, Records b l → Records (calls.foldl apply b) (calls.foldl EventLog.apply l) := by
    induction calls with
    | nil => exact fun _ _ h => h
    | cons c calls ih =>
      intro b l h
      apply ih
      cases c with
      | log event taskId data => exact records_log h event taskId data
      | advanceTick => exact records_advanceTick h
  exact hrun _ _ records_init

/-! ## Reading back -/

theorem record_isValid (seq tick : ℕ) (event : BlackboxEvent) (taskId : ℕ) (data : List UInt8) :
    (record seq tick event taskId data).isValid = true := by
  simp [record, BlackboxRecord.isValid, BlackboxRecord.setCrc, BlackboxRecord.verifyCrc,
    BlackboxRecord.header]

theorem read_eq {b : Blackbox} {l : EventLog} (h : Records b l) {i : ℕ} (hi : i < b.count) :
    ∃ e, l.events[l.events.length - b.count + i]? = some e ∧
      b.read i = some (recordOf (l.events.length - b.count + i) e) := by
  have hlen : (l.events.mapIdx recordOf).length = l.events.length := List.length_mapIdx
  have hmin : i < min (l.events.mapIdx recordOf).length blackboxMaxRecords := by
    rw [hlen, ← h.count]
    exact hi
  have hring := keeps_read h.ring hmin
  rw [hlen, ← h.count, List.getElem?_mapIdx] at hring
  obtain ⟨e, he, hslot⟩ := Option.map_eq_some_iff.mp hring
  refine ⟨e, he, ?_⟩
  -- the source tests the count where the window tests the number of events
  have hstart : (if b.count < blackboxMaxRecords then 0 else b.writePos) =
      oldest (n := blackboxMaxRecords) (by decide) l.events.length := by
    rw [h.count, h.writePos]
    simp only [oldest, slotOf]
    by_cases hfull : l.events.length < blackboxMaxRecords
    · rw [if_pos hfull, if_pos (by omega)]
    · rw [if_neg hfull, if_neg (by omega)]
  rw [Blackbox.read]
  rw [if_neg (by omega)]
  simp only [hstart]
  have hrec : b.buffer ⟨(oldest (n := blackboxMaxRecords) (by decide) l.events.length + i) %
      blackboxMaxRecords, Nat.mod_lt _ (by decide)⟩ =
      recordOf (l.events.length - b.count + i) e := hslot.symm
  rw [hrec, recordOf, if_pos (record_isValid ..)]

theorem dataField_eq (data : List UInt8) :
    dataField data = (data ++ List.replicate blackboxDataSize 0).take blackboxDataSize := by
  rw [List.take_append, List.take_replicate, dataField]
  congr 2
  omega

/-- After `init` and any calls, reading record `i` gives back the `i`-th of the last 128 logged
events, and nothing past them. -/
theorem blackbox_is_sliding_window (calls : List RecorderCall) :
    (runRecorder calls).count = min (eventLog calls).events.length blackboxMaxRecords ∧
    (∀ i, i < (runRecorder calls).count → ∃ e r,
      (eventLog calls).events[(eventLog calls).events.length - (runRecorder calls).count + i]? =
        some e ∧
      (runRecorder calls).read i = some r ∧
      r.seq.toNat = ((eventLog calls).events.length - (runRecorder calls).count + i) % 2 ^ 32 ∧
      r.timestamp.toNat = e.ticks % 2 ^ 32 ∧
      r.taskId = e.taskId ∧
      r.event = e.event.code ∧
      r.data = (e.data ++ List.replicate 42 0).take 42) ∧
    ∀ i, (runRecorder calls).count ≤ i → (runRecorder calls).read i = none := by
  have h := records_run calls
  refine ⟨h.count, ?_, ?_⟩
  · intro i hi
    obtain ⟨e, he, hr⟩ := read_eq h hi
    refine ⟨e, _, he, hr, ?_, ?_, ?_, rfl, dataField_eq e.data⟩
    · simp [recordOf, record, BlackboxRecord.setCrc]
    · simp [recordOf, record, BlackboxRecord.setCrc]
    · simp [recordOf, record, BlackboxRecord.setCrc]
  · intro i hi
    rw [Blackbox.read, if_pos hi]

theorem blackbox_window_after_init :
    0 < (runRecorder []).count ∧ ∃ r, (runRecorder []).read 0 = some r ∧ r.event = 0 := by
  have hcount : 0 < (runRecorder []).count := by decide
  obtain ⟨e, r, he, hr, -, -, -, hevent, -⟩ := (blackbox_is_sliding_window []).2.1 0 hcount
  obtain rfl : (⟨0, .kernelBoot, 0xFF, []⟩ : LoggedEvent) = e := Option.some.inj he
  exact ⟨hcount, r, hr, hevent⟩

end KernelRecorder
