import Sipahi.TemporalLogic
import Sipahi.KernelIpcLinearization

/-!
# The ring buffer of `SipahiIPC.tla`

Any number of slots and of messages. The channel of the kernel refines the specification.
-/
namespace TlaIpc

open TemporalLogic BoundedFifo

variable {slots maxMsgs : ℕ}

/-- `EMPTY`; messages are numbered from one. -/
def empty : ℕ := 0

@[ext]
structure State (slots : ℕ) where
  head : Fin slots
  tail : Fin slots
  buffer : Fin slots → ℕ
  sent : List ℕ
  received : List ℕ
  msgCounter : ℕ

def Init (s : State slots) : Prop :=
  s.head.val = 0 ∧ s.tail.val = 0 ∧ (∀ i, s.buffer i = empty) ∧ s.sent = [] ∧ s.received = [] ∧
    s.msgCounter = 1

def bufferCount (s : State slots) : ℕ := (s.head.val + slots - s.tail.val) % slots

def IsFull (s : State slots) : Prop := ringIndex s.head 1 = s.tail

def IsEmpty (s : State slots) : Prop := s.head = s.tail

def Send (maxMsgs : ℕ) (s t : State slots) : Prop :=
  ¬ IsFull s ∧ s.msgCounter ≤ maxMsgs ∧ t = { s with
    buffer := Function.update s.buffer s.head s.msgCounter
    head := ringIndex s.head 1
    sent := s.sent ++ [s.msgCounter]
    msgCounter := s.msgCounter + 1 }

def SendFull (s t : State slots) : Prop := IsFull s ∧ t = s

def Recv (s t : State slots) : Prop :=
  ¬ IsEmpty s ∧ t = { s with
    received := s.received ++ [s.buffer s.tail]
    buffer := Function.update s.buffer s.tail empty
    tail := ringIndex s.tail 1 }

def RecvEmpty (s t : State slots) : Prop := IsEmpty s ∧ t = s

def spec (slots maxMsgs : ℕ) : Spec (State slots) where
  init := Init
  next := fun s t => Send maxMsgs s t ∨ SendFull s t ∨ Recv s t ∨ RecvEmpty s t

/-- `Spec`. -/
structure FairBehaviour (maxMsgs : ℕ) (b : ℕ → State slots) : Prop where
  behaves : Behaves (spec slots maxMsgs) b
  send : WeaklyFair (Send maxMsgs) b
  recv : WeaklyFair Recv b

/-! ## The queue in the buffer -/

/-- The buffer holds the messages that were sent and not yet received. -/
structure Holds (maxMsgs : ℕ) (s : State slots) (q : List ℕ) : Prop where
  head : s.head = ringIndex s.tail q.length
  contents : window s.buffer s.tail q.length = q
  bound : q.length < slots
  conserved : s.sent = s.received ++ q
  numbered : s.sent = List.range' 1 s.sent.length
  counter : s.msgCounter = s.sent.length + 1
  limit : s.msgCounter ≤ maxMsgs + 1

section

variable {s t : State slots} {q : List ℕ}

theorem isFull_iff (h : Holds maxMsgs s q) : IsFull s ↔ q.length + 1 = slots := by
  rw [IsFull, h.head, ringIndex_add]
  exact ringIndex_eq_start s.tail (Nat.succ_pos _) h.bound

theorem isEmpty_iff (h : Holds maxMsgs s q) : IsEmpty s ↔ q = [] := by
  rw [IsEmpty, h.head, ← List.length_eq_zero_iff]
  constructor
  · intro heq
    by_contra hne
    have := (ringIndex_eq_start s.tail (Nat.pos_of_ne_zero hne) h.bound.le).mp heq
    exact absurd h.bound (by omega)
  · intro hzero
    rw [hzero, ringIndex_zero]

theorem bufferCount_eq (h : Holds maxMsgs s q) : bufferCount s = q.length := by
  have htail := s.tail.isLt
  have hhead := congrArg Fin.val h.head
  have hbound := h.bound
  simp only [ringIndex] at hhead
  rw [bufferCount, hhead]
  rcases Nat.lt_or_ge (s.tail.val + q.length) slots with hlt | hge
  · rw [Nat.mod_eq_of_lt hlt]
    have hsub : s.tail.val + q.length + slots - s.tail.val = q.length + slots := by omega
    rw [hsub, Nat.add_mod_right, Nat.mod_eq_of_lt hbound]
  · have hmod : (s.tail.val + q.length) % slots = s.tail.val + q.length - slots := by
      rw [Nat.mod_eq_sub_mod hge, Nat.mod_eq_of_lt (by omega)]
    have hsub : s.tail.val + q.length - slots + slots - s.tail.val = q.length := by omega
    rw [hmod, hsub, Nat.mod_eq_of_lt hbound]

theorem holds_init (h : Init s) : Holds maxMsgs s [] := by
  obtain ⟨hhead, htail, -, hsent, hreceived, hcounter⟩ := h
  refine ⟨?_, rfl, s.head.pos, by rw [hsent, hreceived]; rfl, by rw [hsent]; rfl, ?_, by omega⟩
  · rw [List.length_nil, ringIndex_zero]
    exact Fin.ext (hhead.trans htail.symm)
  · rw [hcounter, hsent]
    rfl

theorem holds_send (h : Holds maxMsgs s q) (hstep : Send maxMsgs s t) :
    Holds maxMsgs t (q ++ [s.msgCounter]) := by
  obtain ⟨hroom, hlimit, rfl⟩ := hstep
  have hbound := h.bound
  have hfull : q.length + 1 ≠ slots := fun heq => hroom ((isFull_iff h).mpr heq)
  refine ⟨?_, ?_, ?_, ?_, ?_, ?_, ?_⟩
  · simp only [List.length_append, List.length_singleton, h.head, ringIndex_add]
  · simp only [List.length_append, List.length_singleton]
    rw [window_append, h.head, window_update _ le_rfl hbound, h.contents, Function.update_self]
  · simp only [List.length_append, List.length_singleton]
    omega
  · rw [h.conserved, List.append_assoc]
  · simp only [List.length_append, List.length_singleton]
    rw [List.range'_1_concat, ← h.numbered, h.counter, Nat.add_comm]
  · simp only [List.length_append, List.length_singleton, h.counter]
  · have := h.limit
    simp only
    omega

theorem holds_recv (h : Holds maxMsgs s q) (hstep : Recv s t) :
    ∃ x rest, q = x :: rest ∧ Holds maxMsgs t rest := by
  obtain ⟨hmore, rfl⟩ := hstep
  cases q with
  | nil => exact absurd ((isEmpty_iff h).mpr rfl) hmore
  | cons x rest =>
    have hhead := h.head
    have hbound := h.bound
    have hcontents := h.contents
    have hconserved := h.conserved
    simp only [List.length_cons] at hhead hbound
    rw [List.length_cons, window_cons, List.cons.injEq] at hcontents
    obtain ⟨rfl, hrest⟩ := hcontents
    refine ⟨_, rest, rfl, ?_, ?_, by omega, ?_, h.numbered, h.counter, h.limit⟩
    · simp only
      rw [hhead, ringIndex_add, Nat.add_comm]
    · have hclear : window (Function.update s.buffer (ringIndex (ringIndex s.tail 1) (slots - 1)) empty)
          (ringIndex s.tail 1) rest.length = window s.buffer (ringIndex s.tail 1) rest.length :=
        window_update empty (by omega) (by omega)
      have hturn : ringIndex (ringIndex s.tail 1) (slots - 1) = s.tail := by
        rw [ringIndex_add]
        exact (ringIndex_eq_start s.tail (by omega) (by omega)).mpr (by omega)
      rw [hturn, hrest] at hclear
      exact hclear
    · rw [hconserved, List.append_assoc]
      rfl

theorem holds_next (h : Holds maxMsgs s q) (hstep : (spec slots maxMsgs).next s t) :
    ∃ q', Holds maxMsgs t q' := by
  rcases hstep with hsend | ⟨-, rfl⟩ | hrecv | ⟨-, rfl⟩
  · exact ⟨_, holds_send h hsend⟩
  · exact ⟨q, h⟩
  · obtain ⟨-, rest, -, hrest⟩ := holds_recv h hrecv
    exact ⟨rest, hrest⟩
  · exact ⟨q, h⟩

end

theorem holds_reached {s : State slots} (h : Reached (spec slots maxMsgs) s) :
    ∃ q, Holds maxMsgs s q := by
  induction h with
  | init h0 => exact ⟨[], holds_init h0⟩
  | step _ hstep ih =>
    obtain ⟨q, hq⟩ := ih
    exact holds_next hq hstep

/-! ## Progress of the consumer -/

section

variable {s t : State slots} {b : ℕ → State slots}

/-- A receive is enabled as long as there is a message. -/
theorem recv_enabled (h : ¬ IsEmpty s) : Enabled Recv s := by
  refine ⟨_, ⟨h, rfl⟩, fun heq => ?_⟩
  have hlength := congrArg (fun u : State slots => u.received.length) heq
  simp at hlength

theorem recv_received (h : Recv s t) : t.received.length = s.received.length + 1 := by
  obtain ⟨-, rfl⟩ := h
  simp

/-- No step takes a message back. -/
theorem next_mono (hstep : (spec slots maxMsgs).next s t) :
    s.sent.length ≤ t.sent.length ∧ s.received.length ≤ t.received.length := by
  rcases hstep with ⟨-, -, rfl⟩ | ⟨-, rfl⟩ | ⟨-, rfl⟩ | ⟨-, rfl⟩ <;> simp

/-- The consumer has not yet received message `i`, which was sent. -/
def Pending (maxMsgs i : ℕ) (s : State slots) : Prop :=
  Reached (spec slots maxMsgs) s ∧ i ≤ s.sent.length ∧ s.received.length < i

theorem pending_more {i : ℕ} (h : Pending maxMsgs i s) : ¬ IsEmpty s := by
  obtain ⟨hreached, hsent, hreceived⟩ := h
  obtain ⟨q, hq⟩ := holds_reached hreached
  rw [isEmpty_iff hq]
  rintro rfl
  have hlength := congrArg List.length hq.conserved
  simp only [List.append_nil] at hlength
  omega

theorem pending_next {i : ℕ} (h : Pending maxMsgs i s) (hstep : (spec slots maxMsgs).next s t) :
    Pending maxMsgs i t ∨ i ≤ t.received.length := by
  obtain ⟨hreached, hsent, -⟩ := h
  have hmono := next_mono hstep
  rcases Nat.lt_or_ge t.received.length i with hlt | hge
  · exact .inl ⟨hreached.step hstep, hsent.trans hmono.1, hlt⟩
  · exact .inr hge

theorem eventual_delivery (hb : FairBehaviour maxMsgs b) (i : ℕ) :
    LeadsTo (fun s => i ≤ s.sent.length) (fun s => i ≤ s.received.length) b := by
  have hpending : LeadsTo (Pending maxMsgs i) (fun s => i ≤ s.received.length) b := by
    refine leadsTo_of_descent hb.behaves hb.recv (fun s => i - s.received.length) ?_ ?_
      fun s hs => recv_enabled (pending_more hs)
    · intro s t hs hstep
      rcases pending_next hs hstep with ht | hdone
      · exact .inl ⟨ht, Nat.sub_le_sub_left (next_mono hstep).2 i⟩
      · exact .inr hdone
    · intro s t hs hrecv
      rcases pending_next hs (.inr (.inr (.inl hrecv))) with ht | hdone
      · have hmore := recv_received hrecv
        have hleft := hs.2.2
        exact .inl ⟨ht, by omega⟩
      · exact .inr hdone
  intro n hn
  rcases Nat.lt_or_ge (b n).received.length i with hlt | hge
  · exact hpending n ⟨hb.behaves.reached n, hn, hlt⟩
  · exact ⟨n, le_rfl, hge⟩

/-- Sends still possible count twice, since each of them adds a message to receive. -/
def workLeft (maxMsgs : ℕ) (s : State slots) : ℕ :=
  2 * (maxMsgs + 1 - s.msgCounter) + (s.sent.length - s.received.length)

theorem workLeft_next (hs : Reached (spec slots maxMsgs) s)
    (hstep : (spec slots maxMsgs).next s t) : workLeft maxMsgs t ≤ workLeft maxMsgs s := by
  rcases hstep with ⟨-, hlimit, rfl⟩ | ⟨-, rfl⟩ | ⟨-, rfl⟩ | ⟨-, rfl⟩
  · simp only [workLeft, List.length_append, List.length_singleton]
    omega
  · rfl
  · simp only [workLeft, List.length_append, List.length_singleton]
    omega
  · rfl

theorem workLeft_recv (hs : Reached (spec slots maxMsgs) s) (hrecv : Recv s t) :
    workLeft maxMsgs t < workLeft maxMsgs s := by
  obtain ⟨q, hq⟩ := holds_reached hs
  have hmore : s.received.length < s.sent.length := by
    have hlength := congrArg List.length hq.conserved
    have hne : q ≠ [] := fun hnil => hrecv.1 ((isEmpty_iff hq).mpr hnil)
    have hpos := List.length_pos_iff.mpr hne
    rw [List.length_append] at hlength
    omega
  obtain ⟨-, rfl⟩ := hrecv
  simp only [workLeft, List.length_append, List.length_singleton]
  omega

theorem consumer_progress (hb : FairBehaviour maxMsgs b) :
    LeadsTo (fun s => ¬ IsEmpty s) IsEmpty b := by
  apply LeadsTo.under hb.behaves.reached
  refine leadsTo_of_descent hb.behaves hb.recv (workLeft maxMsgs) ?_ ?_
    fun s hs => recv_enabled hs.2
  · rintro s t ⟨hs, -⟩ hstep
    by_cases hempty : IsEmpty t
    · exact .inr hempty
    · exact .inl ⟨⟨hs.step hstep, hempty⟩, workLeft_next hs hstep⟩
  · rintro s t ⟨hs, -⟩ hrecv
    by_cases hempty : IsEmpty t
    · exact .inr hempty
    · exact .inl ⟨⟨hs.step (.inr (.inr (.inl hrecv))), hempty⟩, workLeft_recv hs hrecv⟩

end

/-- With any number of slots and messages: the buffer holds exactly the messages in between, never
as many as there are slots; what was received is a prefix of what was sent; and under weak fairness
every message that is sent is received, and the buffer runs empty again and again. -/
theorem spec_properties {b : ℕ → State slots} (hb : FairBehaviour maxMsgs b) :
    (∀ n, bufferCount (b n) = (b n).sent.length - (b n).received.length ∧
      bufferCount (b n) < slots ∧ (b n).received <+: (b n).sent) ∧
    (∀ i, LeadsTo (fun s => i ≤ s.sent.length) (fun s => i ≤ s.received.length) b) ∧
    LeadsTo (fun s => ¬ IsEmpty s) IsEmpty b := by
  refine ⟨fun n => ?_, eventual_delivery hb, consumer_progress hb⟩
  obtain ⟨q, hq⟩ := holds_reached (hb.behaves.reached n)
  have hcount := bufferCount_eq hq
  refine ⟨?_, hcount ▸ hq.bound, q, hq.conserved.symm⟩
  rw [hcount, hq.conserved, List.length_append, Nat.add_sub_cancel_left]

def firstState : State 2 := ⟨0, 0, fun _ => empty, [], [], 1⟩

def sentState : State 2 := ⟨1, 0, Function.update (fun _ => empty) 0 1, [1], [], 2⟩

def doneState : State 2 :=
  ⟨1, 1, Function.update (Function.update (fun _ => empty) 0 1) 0 empty, [1], [1], 2⟩

/-- One message through two slots. -/
theorem one_message : ∃ b : ℕ → State 2, FairBehaviour 1 b ∧ ∃ k, (b k).received = [1] ∧
    LeadsTo (fun s => ¬ IsEmpty s) IsEmpty b := by
  have hb : FairBehaviour 1 (settle [firstState, sentState] doneState) := by
    refine ⟨settle_behaves ⟨rfl, rfl, fun _ => rfl, rfl, rfl, rfl⟩ ?_,
      settle_weaklyFair ?_, settle_weaklyFair ?_⟩
    · have hroom : ¬ IsFull firstState := by
        rw [IsFull]
        decide
      have hmore : ¬ IsEmpty sentState := by
        rw [IsEmpty]
        decide
      exact .cons_cons (.inl ⟨hroom, by decide, rfl⟩)
        (.cons_cons (.inr (.inr (.inl ⟨hmore, rfl⟩))) (.singleton _))
    · rintro ⟨t, ⟨-, hlimit, -⟩, -⟩
      exact absurd hlimit (by decide)
    · rintro ⟨t, ⟨hmore, -⟩, -⟩
      exact hmore rfl
  exact ⟨_, hb, 2, rfl, (spec_properties hb).2.2⟩

/-! ## The channel of the kernel -/

section

open KernelIpcChannel KernelIpcLinearization LabelledRefinement

/-- The two shared indices after an operation returned with this result. -/
def advance : Option ChannelEvent → SlotIndex × SlotIndex → SlotIndex × SlotIndex
  | some (.enqueue _), (head, tail) => (nextIndex head, tail)
  | some (.dequeue _), (head, tail) => (head, nextIndex tail)
  | _, indices => indices

theorem move_indices {s t : Endpoints} {label : Option ChannelEvent} {m : Move} {q : List IpcMessage}
    (h : Represents s q) (hs : move s m = some (label, t)) :
    (t.channel.head, t.channel.tail) = advance label (s.channel.head, s.channel.tail) := by
  have hproducer := h.producer
  have hconsumer := h.consumer
  cases m with
  | send msg | recv =>
    simp only [move] at hs
    split at hs <;> cases hs
    rfl
  | producer =>
    simp only [move, producerStep] at hs
    split at hs
    · cases hs
    · split at hs <;> cases hs <;> rfl
    · cases hs
      rfl
    · rename_i hp
      rw [hp] at hproducer
      cases hs
      rw [hproducer.1]
      rfl
  | consumer =>
    simp only [move, consumerStep] at hs
    split at hs
    · cases hs
    · split at hs <;> cases hs <;> rfl
    · cases hs
      rfl
    · rename_i hc
      rw [hc] at hconsumer
      cases hs
      rw [hconsumer.1]
      rfl

def sentCount (es : List ChannelEvent) : ℕ := (es.filterMap QueueEvent.sent).length

def receivedCount (es : List ChannelEvent) : ℕ := (es.filterMap QueueEvent.received).length

theorem sentCount_append (es : List ChannelEvent) (e : ChannelEvent) :
    sentCount (es ++ [e]) = sentCount es + sentCount [e] := by
  rw [sentCount, List.filterMap_append, List.length_append]
  rfl

theorem receivedCount_append (es : List ChannelEvent) (e : ChannelEvent) :
    receivedCount (es ++ [e]) = receivedCount es + receivedCount [e] := by
  rw [receivedCount, List.filterMap_append, List.length_append]
  rfl

/-- The specification stands where the channel does. -/
structure StandsAt (maxMsgs : ℕ) (es : List ChannelEvent) (s : Endpoints)
    (t : State ipcChannelSlots) : Prop where
  reached : Reached (spec ipcChannelSlots maxMsgs) t
  head : t.head = s.channel.head
  tail : t.tail = s.channel.tail
  sent : t.sent.length = sentCount es
  received : t.received.length = receivedCount es

section

variable {es : List ChannelEvent} {s s' : Endpoints} {t : State ipcChannelSlots}
  {q : List IpcMessage} {e : ChannelEvent}

theorem standsAt_moved {label : Option ChannelEvent} (h : StandsAt maxMsgs es s t)
    (hr : Represents s q) {m : Move} (hs : move s m = some (label, s')) :
    (s'.channel.head, s'.channel.tail) = advance label (t.head, t.tail) := by
  rw [h.head, h.tail]
  exact move_indices hr hs

theorem standsAt_visible (h : StandsAt maxMsgs es s t) (hr : Represents s q) {q' : List IpcMessage}
    (hstep : FifoStep capacity q e q') {m : Move} (hs : move s m = some (some e, s'))
    (hmax : sentCount (es ++ [e]) ≤ maxMsgs) : ∃ t', StandsAt maxMsgs (es ++ [e]) s' t' := by
  have hmoved := standsAt_moved h hr hs
  have hsent := h.sent
  have hreceived := h.received
  rw [sentCount_append] at hmax
  obtain ⟨hhead, htail⟩ := Prod.mk.inj hmoved
  cases hstep with
  | @enqueue _ x hlt =>
    obtain ⟨ids, hids⟩ := holds_reached h.reached
    have hroom : ¬ IsFull t := by
      rw [IsFull, h.head, h.tail, ← nextIndex_eq, full_iff hr]
      exact hlt.ne
    have hlimit : t.msgCounter ≤ maxMsgs := by
      rw [hids.counter, hsent]
      exact hmax
    refine ⟨_, h.reached.step (.inl ⟨hroom, hlimit, rfl⟩), ?_, htail.symm, ?_, ?_⟩
    · have hnext : s'.channel.head = nextIndex t.head := hhead
      exact (hnext.trans (nextIndex_eq _)).symm
    · rw [sentCount_append, List.length_append, hsent]
      rfl
    · rw [receivedCount_append, hreceived]
      rfl
  | dequeue =>
    have hmore : ¬ IsEmpty t := by
      rw [IsEmpty, h.head, h.tail]
      intro heq
      have hzero := (empty_iff hr).mp heq.symm
      cases hzero
    refine ⟨_, h.reached.step (.inr (.inr (.inl ⟨hmore, rfl⟩))), hhead.symm, ?_, ?_, ?_⟩
    · have hnext : s'.channel.tail = nextIndex t.tail := htail
      exact (hnext.trans (nextIndex_eq _)).symm
    · rw [sentCount_append, hsent]
      rfl
    · rw [receivedCount_append, List.length_append, hreceived]
      rfl
  | full hfull =>
    have hisFull : IsFull t := by
      rw [IsFull, h.head, h.tail, ← nextIndex_eq, full_iff hr]
      exact hfull
    refine ⟨t, h.reached.step (.inr (.inl ⟨hisFull, rfl⟩)), hhead.symm, htail.symm, ?_, ?_⟩
    · rw [sentCount_append, hsent]
      rfl
    · rw [receivedCount_append, hreceived]
      rfl
  | empty =>
    have hisEmpty : IsEmpty t := by
      rw [IsEmpty, h.head, h.tail]
      exact ((empty_iff hr).mpr rfl).symm
    refine ⟨t, h.reached.step (.inr (.inr (.inr ⟨hisEmpty, rfl⟩))), hhead.symm, htail.symm, ?_, ?_⟩
    · rw [sentCount_append, hsent]
      rfl
    · rw [receivedCount_append, hreceived]
      rfl

end

theorem standsAt_initial : StandsAt maxMsgs [] spsc.initial
    ⟨SpscChannel.new.head, SpscChannel.new.tail, fun _ => empty, [], [], 1⟩ :=
  ⟨.init ⟨rfl, rfl, fun _ => rfl, rfl, rfl, rfl⟩, rfl, rfl, rfl, rfl⟩

theorem run_standsAt {es : List ChannelEvent} {s : Endpoints} (h : Run spsc es s)
    (hmax : sentCount es ≤ maxMsgs) : ∃ t, StandsAt maxMsgs es s t := by
  induction h with
  | start => exact ⟨_, standsAt_initial⟩
  | @internal es s s' hrun hs ih =>
    obtain ⟨t, ht⟩ := ih hmax
    obtain ⟨q, -, hr⟩ := spsc_simulation.run hrun
    obtain ⟨m, hm⟩ := hs
    obtain ⟨hhead, htail⟩ := Prod.mk.inj (standsAt_moved ht hr hm)
    exact ⟨t, ht.reached, hhead.symm, htail.symm, ht.sent, ht.received⟩
  | @visible es s s' e hrun hs ih =>
    have hbefore : sentCount es ≤ maxMsgs := by
      rw [sentCount_append] at hmax
      omega
    obtain ⟨t, ht⟩ := ih hbefore
    obtain ⟨q, -, hr⟩ := spsc_simulation.run hrun
    obtain ⟨m, hm⟩ := hs
    rcases move_simulates hr hm with ⟨hnone, -⟩ | ⟨e', q', he, hstep, -⟩
    · cases hnone
    · cases he
      exact standsAt_visible ht hr hstep hm hmax

theorem window_getElem? {α : Type*} {n : ℕ} (buffer : Fin n → α) (start : Fin n) {k count : ℕ}
    (hk : k < count) : (window buffer start count)[k]? = some (buffer (ringIndex start k)) := by
  simp [window, hk]

/-- Every interleaving of the accesses of a producer and a consumer refines the specification: its
indices are those of the channel, it has sent and received as many messages, and the slots in use
hold the messages whose numbers it keeps there. -/
theorem spsc_refines {es : List ChannelEvent} {s : Endpoints} (h : Run spsc es s)
    (hmax : sentCount es ≤ maxMsgs) : ∃ t, StandsAt maxMsgs es s t ∧ ∀ k < bufferCount t,
      (es.filterMap QueueEvent.sent)[t.buffer (ringIndex t.tail k) - 1]? =
        some (s.channel.slots (ringIndex t.tail k)) := by
  obtain ⟨t, ht⟩ := run_standsAt h hmax
  obtain ⟨q, hfifo, hr⟩ := spsc_simulation.run h
  obtain ⟨ids, hids⟩ := holds_reached ht.reached
  refine ⟨t, ht, fun k hk => ?_⟩
  rw [bufferCount_eq hids] at hk
  have hconserved := fifo_conserves hfifo
  have hsent := ht.sent
  have hreceived := ht.received
  have hspec := congrArg List.length hids.conserved
  have hcode := congrArg List.length hconserved
  simp only [sentCount, receivedCount, List.length_append] at hspec hcode hsent hreceived
  have hnumber : t.buffer (ringIndex t.tail k) = t.received.length + k + 1 := by
    have hslot := window_getElem? t.buffer t.tail hk
    rw [hids.contents] at hslot
    have hat : t.sent[t.received.length + k]? = some (t.buffer (ringIndex t.tail k)) := by
      rw [hids.conserved, List.getElem?_append_right (Nat.le_add_right _ _),
        Nat.add_sub_cancel_left]
      exact hslot
    rw [hids.numbered, List.getElem?_range' (by omega)] at hat
    have hvalue := Option.some.inj hat
    omega
  have hk' : k < q.length := by omega
  have hslot := window_getElem? s.channel.slots s.channel.tail hk'
  rw [hr.contents] at hslot
  rw [hnumber, Nat.add_sub_cancel, hconserved, hreceived,
    List.getElem?_append_right (Nat.le_add_right _ _), Nat.add_sub_cancel_left, hslot, ht.tail]

/-- A receive that overlaps a send. -/
theorem overlap_refines : ∃ s t, Run spsc [.empty, .enqueue .zeroed] s ∧
    StandsAt 1 [.empty, .enqueue .zeroed] s t ∧ bufferCount t = 1 := by
  have hx : ∃ s, execute spsc.initial [.send .zeroed, .recv, .producer, .producer, .consumer,
      .producer] = some ([.empty, .enqueue .zeroed], s) := ⟨_, rfl⟩
  obtain ⟨s, hs⟩ := hx
  have hrun : Run spsc _ s := execute_run .start hs
  have hone : sentCount [.empty, .enqueue .zeroed] ≤ 1 := by decide
  obtain ⟨t, ht, -⟩ := spsc_refines hrun hone
  obtain ⟨ids, hids⟩ := holds_reached ht.reached
  refine ⟨s, t, hrun, ht, ?_⟩
  have hlength := congrArg List.length hids.conserved
  rw [List.length_append, ht.sent, ht.received] at hlength
  rw [bufferCount_eq hids]
  exact (Nat.zero_add _).symm.trans hlength.symm

end

end TlaIpc
