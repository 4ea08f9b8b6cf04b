import Sipahi.KernelIpcChannel
import Sipahi.BoundedFifo

/-!
# The SPSC channel under interleaving

`send` and `recv` are split at their accesses to shared memory: load of the own index, load of the
other index with the decision, copy of the slot, store of the own index. An operation that
succeeds takes effect at its store, one that fails at its load of the other index.
-/
namespace KernelIpcLinearization

open KernelIpcChannel BoundedFifo LabelledRefinement

/-- Where the producer is inside `send`, with the locals it still needs. -/
inductive Producer where
  | idle
  | headLoaded (msg : IpcMessage) (head : SlotIndex)
  | tailLoaded (msg : IpcMessage) (head : SlotIndex)
  | slotCopied (msg : IpcMessage) (head : SlotIndex)

/-- Where the consumer is inside `recv`. -/
inductive Consumer where
  | idle
  | tailLoaded (tail : SlotIndex)
  | headLoaded (tail : SlotIndex)
  | slotCopied (tail : SlotIndex) (msg : IpcMessage)

structure Endpoints where
  channel : SpscChannel
  producer : Producer
  consumer : Consumer

/-- A call starts with the load of the own index; the other moves continue it. -/
inductive Move where
  | send (msg : IpcMessage)
  | producer
  | recv
  | consumer

abbrev ChannelEvent := QueueEvent IpcMessage

/-- The label is the result of the operation that returns with this access. -/
def producerStep (s : Endpoints) : Option (Option ChannelEvent × Endpoints) :=
  match s.producer with
  | .idle => none
  | .headLoaded msg head =>
    if nextIndex head = s.channel.tail then some (some .full, { s with producer := .idle })
    else some (none, { s with producer := .tailLoaded msg head })
  | .tailLoaded msg head =>
    some (none, { s with
      channel := { s.channel with slots := Function.update s.channel.slots head msg }
      producer := .slotCopied msg head })
  | .slotCopied msg head =>
    some (some (.enqueue msg), { s with
      channel := { s.channel with head := nextIndex head }
      producer := .idle })

def consumerStep (s : Endpoints) : Option (Option ChannelEvent × Endpoints) :=
  match s.consumer with
  | .idle => none
  | .tailLoaded tail =>
    if tail = s.channel.head then some (some .empty, { s with consumer := .idle })
    else some (none, { s with consumer := .headLoaded tail })
  | .headLoaded tail =>
    some (none, { s with consumer := .slotCopied tail (s.channel.slots tail) })
  | .slotCopied tail msg =>
    some (some (.dequeue msg), { s with
      channel := { s.channel with tail := nextIndex tail }
      consumer := .idle })

def move (s : Endpoints) : Move → Option (Option ChannelEvent × Endpoints)
  | .send msg =>
    match s.producer with
    | .idle => some (none, { s with producer := .headLoaded msg s.channel.head })
    | _ => none
  | .producer => producerStep s
  | .recv =>
    match s.consumer with
    | .idle => some (none, { s with consumer := .tailLoaded s.channel.tail })
    | _ => none
  | .consumer => consumerStep s

/-- One producer and one consumer on a new channel, in any interleaving. -/
def spsc : System Endpoints ChannelEvent where
  initial := ⟨.new, .idle, .idle⟩
  step := fun s label t => ∃ m, move s m = some (label, t)

/-! ## The split operations and the whole ones -/

/-- Make these moves one after the other and collect the results. -/
def execute (s : Endpoints) : List Move → Option (List ChannelEvent × Endpoints)
  | [] => some ([], s)
  | m :: rest => do
    let (label, t) ← move s m
    let (events, u) ← execute t rest
    some (label.toList ++ events, u)

theorem send_alone (s : Endpoints) (hidle : s.producer = .idle) (msg : IpcMessage) :
    match s.channel.send msg with
    | .ok c => execute s [.send msg, .producer, .producer, .producer] =
        some ([.enqueue msg], { s with channel := c })
    | .error _ => execute s [.send msg, .producer] = some ([.full], s) := by
  obtain ⟨c, p, k⟩ := s
  cases hidle
  by_cases hfull : nextIndex c.head = c.tail
  · simp [SpscChannel.send, execute, move, producerStep, hfull]
  · simp [SpscChannel.send, execute, move, producerStep, hfull]

theorem recv_alone (s : Endpoints) (hidle : s.consumer = .idle) :
    match s.channel.recv with
    | some (msg, c) => execute s [.recv, .consumer, .consumer, .consumer] =
        some ([.dequeue msg], { s with channel := c })
    | none => execute s [.recv, .consumer] = some ([.empty], s) := by
  obtain ⟨c, p, k⟩ := s
  cases hidle
  by_cases hempty : c.tail = c.head
  · simp [SpscChannel.recv, execute, move, consumerStep, hempty]
  · simp [SpscChannel.recv, execute, move, consumerStep, hempty]

/-! ## The queue behind the indices -/

def capacity : ℕ := ipcChannelSlots - 1

theorem nextIndex_eq (i : SlotIndex) : nextIndex i = ringIndex i 1 := by
  apply Fin.ext
  have := i.isLt
  simp only [nextIndex, ringIndex, ipcChannelSlots] at *
  omega

/-- A producer past its check has room for one message and owns the slot at `head`. -/
def ProducerAgrees (c : SpscChannel) (count : ℕ) : Producer → Prop
  | .idle => True
  | .headLoaded _ head => head = c.head
  | .tailLoaded _ head => head = c.head ∧ count < capacity
  | .slotCopied msg head => head = c.head ∧ count < capacity ∧ c.slots c.head = msg

/-- A consumer past its check has a message at `tail`. -/
def ConsumerAgrees (c : SpscChannel) (count : ℕ) : Consumer → Prop
  | .idle => True
  | .tailLoaded tail => tail = c.tail
  | .headLoaded tail => tail = c.tail ∧ 0 < count
  | .slotCopied tail msg => tail = c.tail ∧ 0 < count ∧ c.slots c.tail = msg

structure Represents (s : Endpoints) (q : List IpcMessage) : Prop where
  head : s.channel.head = ringIndex s.channel.tail q.length
  contents : window s.channel.slots s.channel.tail q.length = q
  bound : q.length ≤ capacity
  producer : ProducerAgrees s.channel q.length s.producer
  consumer : ConsumerAgrees s.channel q.length s.consumer

section

variable {s t : Endpoints} {q : List IpcMessage}

theorem capacity_lt : capacity < ipcChannelSlots := by decide

theorem full_iff (h : Represents s q) :
    nextIndex s.channel.head = s.channel.tail ↔ q.length = capacity := by
  have hb := h.bound
  have hc : capacity + 1 = ipcChannelSlots := rfl
  rw [nextIndex_eq, h.head, ringIndex_add, ringIndex_eq_start _ (by omega) (by omega)]
  omega

theorem empty_iff (h : Represents s q) : s.channel.tail = s.channel.head ↔ q.length = 0 := by
  have hb := h.bound
  have hc := capacity_lt
  rw [h.head]
  constructor
  · intro he
    by_contra hpos
    have := (ringIndex_eq_start s.channel.tail (by omega) (by omega)).mp he.symm
    omega
  · intro hz
    rw [hz, ringIndex_zero]

theorem represents_initial : Represents spsc.initial [] :=
  ⟨rfl, rfl, Nat.zero_le _, trivial, trivial⟩

theorem represents_enqueue (h : Represents s q) {msg : IpcMessage} {head : SlotIndex}
    (hp : s.producer = .slotCopied msg head) :
    q.length < capacity ∧ Represents { s with
      channel := { s.channel with head := nextIndex head }
      producer := .idle } (q ++ [msg]) := by
  have ha := h.producer
  rw [hp] at ha
  obtain ⟨rfl, hlt, hslot⟩ := ha
  refine ⟨hlt, ?_, ?_, ?_, trivial, ?_⟩
  · simp only [List.length_append, List.length_singleton]
    rw [nextIndex_eq, h.head, ringIndex_add]
  · simp only [List.length_append, List.length_singleton]
    rw [window_append, h.contents, ← h.head, hslot]
  · simp only [List.length_append, List.length_singleton]
    omega
  · have hk := h.consumer
    cases hcons : s.consumer with
    | idle => trivial
    | tailLoaded tail =>
      rw [hcons] at hk
      exact hk
    | headLoaded tail =>
      rw [hcons] at hk
      exact ⟨hk.1, by simp⟩
    | slotCopied tail m =>
      rw [hcons] at hk
      exact ⟨hk.1, by simp, hk.2.2⟩

theorem represents_dequeue (h : Represents s q) {msg : IpcMessage} {tail : SlotIndex}
    (hc : s.consumer = .slotCopied tail msg) :
    ∃ rest, q = msg :: rest ∧ Represents { s with
      channel := { s.channel with tail := nextIndex tail }
      consumer := .idle } rest := by
  have ha := h.consumer
  rw [hc] at ha
  obtain ⟨rfl, hpos, hslot⟩ := ha
  have hcontents := h.contents
  have hhead := h.head
  have hbound := h.bound
  have hprod := h.producer
  cases q with
  | nil => simp at hpos
  | cons x rest =>
    rw [List.length_cons, window_cons, List.cons.injEq, hslot] at hcontents
    obtain ⟨rfl, hrest⟩ := hcontents
    simp only [List.length_cons] at hbound hhead hprod
    refine ⟨rest, rfl, ?_, ?_, by omega, ?_, trivial⟩
    · simp only [nextIndex_eq]
      rw [hhead, ringIndex_add, Nat.add_comm]
    · simp only [nextIndex_eq]
      exact hrest
    · cases hp : s.producer with
      | idle => trivial
      | headLoaded m head =>
        rw [hp] at hprod
        exact hprod
      | tailLoaded m head =>
        rw [hp] at hprod
        exact ⟨hprod.1, by have := hprod.2; omega⟩
      | slotCopied m head =>
        rw [hp] at hprod
        exact ⟨hprod.1, by have := hprod.2.1; omega, hprod.2.2⟩

/-- The copy goes to a slot outside the window, so neither the queue nor a message being read
changes. -/
theorem represents_copy (h : Represents s q) {msg : IpcMessage} {head : SlotIndex}
    (hp : s.producer = .tailLoaded msg head) :
    Represents { s with
      channel := { s.channel with slots := Function.update s.channel.slots head msg }
      producer := .slotCopied msg head } q := by
  have ha := h.producer
  rw [hp] at ha
  obtain ⟨rfl, hlt⟩ := ha
  have hcap := capacity_lt
  refine ⟨h.head, ?_, h.bound, ⟨rfl, hlt, by simp⟩, ?_⟩
  · simp only [h.head]
    rw [window_update msg le_rfl (by omega), h.contents]
  · have hk := h.consumer
    cases hcons : s.consumer with
    | idle => trivial
    | tailLoaded tail =>
      rw [hcons] at hk
      exact hk
    | headLoaded tail =>
      rw [hcons] at hk
      exact hk
    | slotCopied tail m =>
      rw [hcons] at hk
      obtain ⟨htail, hpos, hslot⟩ := hk
      have hne : s.channel.tail ≠ s.channel.head := fun he => by
        have := (empty_iff h).mp he
        omega
      exact ⟨htail, hpos, by simpa [hne] using hslot⟩

theorem producerStep_simulates (h : Represents s q) {label : Option ChannelEvent}
    (hs : producerStep s = some (label, t)) :
    (label = none ∧ Represents t q) ∨
      ∃ e q', label = some e ∧ FifoStep capacity q e q' ∧ Represents t q' := by
  have ha := h.producer
  rw [producerStep] at hs
  split at hs
  · cases hs
  · rename_i msg head hp
    rw [hp] at ha
    obtain rfl : head = s.channel.head := ha
    split at hs
    · rename_i hfull
      cases hs
      exact Or.inr ⟨.full, q, rfl, .full ((full_iff h).mp hfull),
        h.head, h.contents, h.bound, trivial, h.consumer⟩
    · rename_i hroom
      cases hs
      have hlt : q.length < capacity :=
        Nat.lt_of_le_of_ne h.bound fun he => hroom ((full_iff h).mpr he)
      exact Or.inl ⟨rfl, h.head, h.contents, h.bound, ⟨rfl, hlt⟩, h.consumer⟩
  · rename_i msg head hp
    cases hs
    exact Or.inl ⟨rfl, represents_copy h hp⟩
  · rename_i msg head hp
    cases hs
    obtain ⟨hlt, hr⟩ := represents_enqueue h hp
    exact Or.inr ⟨.enqueue msg, q ++ [msg], rfl, .enqueue hlt, hr⟩

theorem consumerStep_simulates (h : Represents s q) {label : Option ChannelEvent}
    (hs : consumerStep s = some (label, t)) :
    (label = none ∧ Represents t q) ∨
      ∃ e q', label = some e ∧ FifoStep capacity q e q' ∧ Represents t q' := by
  have ha := h.consumer
  rw [consumerStep] at hs
  split at hs
  · cases hs
  · rename_i tail hc
    rw [hc] at ha
    obtain rfl : tail = s.channel.tail := ha
    split at hs
    · rename_i hempty
      cases hs
      obtain rfl : q = [] := List.length_eq_zero_iff.mp ((empty_iff h).mp hempty)
      exact Or.inr ⟨.empty, [], rfl, .empty, h.head, h.contents, h.bound, h.producer, trivial⟩
    · rename_i hmore
      cases hs
      have hpos : 0 < q.length := Nat.pos_of_ne_zero fun hz => hmore ((empty_iff h).mpr hz)
      exact Or.inl ⟨rfl, h.head, h.contents, h.bound, h.producer, ⟨rfl, hpos⟩⟩
  · rename_i tail hc
    rw [hc] at ha
    obtain ⟨rfl, hpos⟩ := ha
    cases hs
    exact Or.inl ⟨rfl, h.head, h.contents, h.bound, h.producer, ⟨rfl, hpos, rfl⟩⟩
  · rename_i tail msg hc
    cases hs
    obtain ⟨rest, rfl, hr⟩ := represents_dequeue h hc
    exact Or.inr ⟨.dequeue msg, rest, rfl, .dequeue, hr⟩

theorem move_simulates (h : Represents s q) {label : Option ChannelEvent} {m : Move}
    (hs : move s m = some (label, t)) :
    (label = none ∧ Represents t q) ∨
      ∃ e q', label = some e ∧ FifoStep capacity q e q' ∧ Represents t q' := by
  cases m with
  | send msg =>
    simp only [move] at hs
    split at hs
    · cases hs
      exact Or.inl ⟨rfl, h.head, h.contents, h.bound, rfl, h.consumer⟩
    · cases hs
  | producer => exact producerStep_simulates h hs
  | recv =>
    simp only [move] at hs
    split at hs
    · cases hs
      exact Or.inl ⟨rfl, h.head, h.contents, h.bound, h.producer, rfl⟩
    · cases hs
  | consumer => exact consumerStep_simulates h hs

theorem spsc_simulation : Simulation spsc (fifo IpcMessage capacity) Represents where
  initial := represents_initial
  internal := by
    rintro s q t h ⟨m, hm⟩
    rcases move_simulates h hm with ⟨-, hr⟩ | ⟨e, q', he, -⟩
    · exact hr
    · cases he
  visible := by
    rintro s q t e h ⟨m, hm⟩
    rcases move_simulates h hm with ⟨hn, -⟩ | ⟨e', q', he, hstep, hr⟩
    · cases hn
    · cases he
      exact ⟨q', ⟨e, rfl, hstep⟩, hr⟩

theorem len_eq (h : Represents s q) : s.channel.len = q.length := by
  have hb := h.bound
  have hhead := congrArg Fin.val h.head
  have ht := s.channel.tail.isLt
  simp only [ringIndex, capacity, ipcChannelSlots] at hb hhead ht
  rw [SpscChannel.len]
  split <;> simp only [ipcChannelSlots] <;> omega

end

/-- The results of the operations so far, the queue they leave and what the inspection functions
say about it. -/
structure Linearizes (es : List ChannelEvent) (c : SpscChannel) (q : List IpcMessage) : Prop where
  fifo : Run (fifo IpcMessage 15) es q
  delivered : es.filterMap QueueEvent.sent = es.filterMap QueueEvent.received ++ q
  emptyOnly : ∀ before after, es = before ++ .empty :: after →
    before.filterMap QueueEvent.sent = before.filterMap QueueEvent.received
  fullOnly : ∀ before after, es = before ++ .full :: after → ∃ queued, queued.length = 15 ∧
    before.filterMap QueueEvent.sent = before.filterMap QueueEvent.received ++ queued
  len : c.len = q.length
  isEmpty : c.isEmpty = true ↔ q = []
  isFull : c.isFull = true ↔ q.length = 15

/-- Every interleaving of a producer and a consumer is a run of a FIFO queue with room for 15
messages. -/
theorem spsc_linearizes {es : List ChannelEvent} {s : Endpoints} (h : Run spsc es s) :
    ∃ q, Linearizes es s.channel q := by
  obtain ⟨q, hq, hr⟩ := spsc_simulation.run h
  refine ⟨q, hq, fifo_conserves hq, fun before after hes => ?_, fun before after hes => ?_,
    len_eq hr, ?_, ?_⟩
  · simpa using fifo_conserves (fifo_empty_only hq hes)
  · obtain ⟨queued, hfull, hq'⟩ := fifo_full_only hq hes
    exact ⟨queued, hfull, fifo_conserves hq'⟩
  · rw [← List.length_eq_zero_iff, ← empty_iff hr]
    simp [SpscChannel.isEmpty]
  · rw [show (15 : ℕ) = capacity from rfl, ← full_iff hr]
    simp [SpscChannel.isFull]

theorem execute_run {s t : Endpoints} {es fs : List ChannelEvent} {moves : List Move}
    (h : Run spsc es s) (hx : execute s moves = some (fs, t)) : Run spsc (es ++ fs) t := by
  induction moves generalizing s es fs with
  | nil =>
    cases hx
    simpa using h
  | cons m rest ih =>
    simp only [execute, Option.bind_eq_bind, Option.bind_eq_some_iff] at hx
    obtain ⟨⟨label, u⟩, hm, ⟨events, v⟩, hv, hx⟩ := hx
    cases hx
    cases label with
    | none => exact ih (.internal h ⟨m, hm⟩) hv
    | some e =>
      rw [Option.toList_some, ← List.append_assoc]
      exact ih (.visible h ⟨m, hm⟩) hv

/-- A receive that loads `head` before the store of a concurrent send finds the queue empty; the
next one gets the message. -/
theorem spsc_linearizes_overlap : ∃ s q,
    Run spsc [.empty, .enqueue .zeroed, .dequeue .zeroed] s ∧
      Linearizes [.empty, .enqueue .zeroed, .dequeue .zeroed] s.channel q := by
  have hx : ∃ s, execute spsc.initial [.send .zeroed, .recv, .producer, .producer, .consumer,
      .producer, .recv, .consumer, .consumer, .consumer] =
      some ([.empty, .enqueue .zeroed, .dequeue .zeroed], s) := ⟨_, rfl⟩
  obtain ⟨s, hs⟩ := hx
  have hrun : Run spsc _ s := execute_run .start hs
  obtain ⟨q, hq⟩ := spsc_linearizes hrun
  exact ⟨s, q, hrun, hq⟩

end KernelIpcLinearization
