import Sipahi.KernelIpcChannel
import Sipahi.ShiftRegister

/-!
# What the CRC-32 of messages and records detects

Messages and records are 64 bytes, the last four of them the CRC of the sixty in front. Bits are
numbered in the order in which the register takes them: bytes in order, least significant bit
first.
-/
namespace KernelCrc

open KernelBlackbox KernelIpcChannel ShiftRegister

def crcPolynomial : BitVec 32 := 0xEDB88320#32

def byteBits (b : UInt8) : List Bool := List.ofFn fun i : Fin 8 => b.toBitVec.getLsbD i

def messageBits (bytes : List UInt8) : List Bool := bytes.flatMap byteBits

/-- Bit `i` of a byte string. -/
def messageBit (bytes : List UInt8) (i : ℕ) : Bool :=
  (bytes.getD (i / 8) 0).toBitVec.getLsbD (i % 8)

def messageBytes (m : IpcMessage) : List UInt8 := List.ofFn m.data

/-- The `repr(C)` image of a record on a little-endian hart. -/
def recordBytes (r : BlackboxRecord) : List UInt8 := r.header ++ le32 r.crc

/-- The array lengths of the record type. -/
structure RecordLayout (r : BlackboxRecord) : Prop where
  magic : r.magic.length = 4
  pad : r.pad.length = 2
  data : r.data.length = blackboxDataSize

/-- The second string is the first with a nonempty set of its 512 bits flipped, all of them
inside 32 consecutive positions. -/
def BurstError (bytes received : List UInt8) : Prop :=
  (∃ start, start + 32 ≤ 512 ∧ ∀ i, i < 512 → messageBit bytes i ≠ messageBit received i →
    start ≤ i ∧ i < start + 32) ∧
  ∃ i, i < 512 ∧ messageBit bytes i ≠ messageBit received i

/-! ## The loop as a register -/

theorem crcPolynomial_top : crcPolynomial.getLsbD (32 - 1) = true := by decide

theorem crcBit_toBitVec (c : UInt32) : (crcBit c).toBitVec = step crcPolynomial c.toBitVec := by
  have hlow : c &&& 1 ≠ 0 ↔ c.toBitVec.getLsbD 0 = true := by
    rw [Ne, ← UInt32.toBitVec_inj, UInt32.toBitVec_and]
    have h : c.toBitVec &&& 1#32 = BitVec.setWidth 32 (BitVec.ofBool (c.toBitVec.getLsbD 0)) :=
      BitVec.and_one_eq_setWidth_ofBool_getLsbD
    cases hb : c.toBitVec.getLsbD 0 <;> rw [hb] at h
    · simp [h]
    · simp [h]
  rw [crcBit, step]
  by_cases h : c.toBitVec.getLsbD 0 = true
  · rw [if_pos (hlow.mpr h), if_pos h]
    simp [crcPolynomial]
  · rw [if_neg (fun hc => h (hlow.mp hc)), if_neg h]
    simp

theorem crcBit_iterate_toBitVec (n : ℕ) (c : UInt32) :
    (crcBit^[n] c).toBitVec = (step crcPolynomial)^[n] c.toBitVec := by
  induction n generalizing c with
  | zero => rfl
  | succ n ih => rw [Function.iterate_succ_apply, Function.iterate_succ_apply, ih, crcBit_toBitVec]

theorem crcByte_toBitVec (c : UInt32) (b : UInt8) :
    (crcByte c b).toBitVec = feedAll crcPolynomial c.toBitVec (byteBits b) := by
  rw [feedAll_eq_word _ _ (by simp [byteBits]), byteBits, word_ofFn, List.length_ofFn, crcByte,
    crcBit_iterate_toBitVec, UInt32.toBitVec_xor, UInt8.toBitVec_toUInt32]

theorem crcBytes_toBitVec (c : UInt32) (bytes : List UInt8) :
    (bytes.foldl crcByte c).toBitVec = feedAll crcPolynomial c.toBitVec (messageBits bytes) := by
  induction bytes generalizing c with
  | nil => rfl
  | cons b bytes ih =>
    rw [List.foldl_cons, ih, crcByte_toBitVec, ← feedAll_append]
    rfl

/-! ## Bits of byte strings -/

theorem byteBits_length (b : UInt8) : (byteBits b).length = 8 := by simp [byteBits]

theorem messageBits_length (bytes : List UInt8) :
    (messageBits bytes).length = 8 * bytes.length := by
  induction bytes with
  | nil => rfl
  | cons b bytes ih =>
    rw [messageBits, List.flatMap_cons, List.length_append, byteBits_length, List.length_cons]
    rw [messageBits] at ih
    omega

theorem messageBits_append (a b : List UInt8) :
    messageBits (a ++ b) = messageBits a ++ messageBits b := by
  simp [messageBits]

theorem byteBits_injective : Function.Injective byteBits := by
  intro a b h
  apply UInt8.toBitVec_inj.mp
  apply BitVec.eq_of_getLsbD_eq
  intro i hi
  have hf := congrFun (List.ofFn_injective h) ⟨i, hi⟩
  exact hf

theorem messageBits_injective {a b : List UInt8} (hlen : a.length = b.length)
    (h : messageBits a = messageBits b) : a = b := by
  induction a generalizing b with
  | nil => exact (List.eq_nil_of_length_eq_zero hlen.symm).symm
  | cons x a ih =>
    cases b with
    | nil => cases hlen
    | cons y b =>
      have hsplit := List.append_inj h (by rw [byteBits_length, byteBits_length])
      rw [byteBits_injective hsplit.1, ih (Nat.succ.inj hlen) hsplit.2]

theorem messageBits_getElem? (bytes : List UInt8) {i : ℕ} (hi : i < 8 * bytes.length) :
    (messageBits bytes)[i]? = some (messageBit bytes i) := by
  induction bytes generalizing i with
  | nil => simp at hi
  | cons b bytes ih =>
    rw [messageBits, List.flatMap_cons]
    by_cases hlow : i < 8
    · rw [List.getElem?_append_left (by rwa [byteBits_length])]
      have hdiv : i / 8 = 0 := by omega
      have hmod : i % 8 = i := by omega
      rw [byteBits, List.getElem?_ofFn, dif_pos hlow, messageBit, hdiv, hmod]
      rfl
    · rw [List.getElem?_append_right (by rw [byteBits_length]; omega), byteBits_length]
      rw [List.length_cons] at hi
      have hdiv : i / 8 = (i - 8) / 8 + 1 := by omega
      have hmod : (i - 8) % 8 = i % 8 := by omega
      have htail := ih (i := i - 8) (by omega)
      rw [messageBits] at htail
      rw [htail]
      simp [messageBit, hdiv, hmod]

theorem word_le32 (x : UInt32) : (word (messageBits (le32 x)) : BitVec 32) = x.toBitVec := by
  apply BitVec.eq_of_getLsbD_eq
  intro i hi
  rw [word_getLsbD _ i hi, messageBits_getElem? _ (by simpa [le32] using hi)]
  have hbyte : i / 8 = 0 ∨ i / 8 = 1 ∨ i / 8 = 2 ∨ i / 8 = 3 := by omega
  have hlt : i % 8 < 8 := Nat.mod_lt _ (by decide)
  rcases hbyte with h | h | h | h
  · have hi' : i % 8 = i := by omega
    simp [messageBit, le32, h, hi', show i < 8 by omega]
  · have hi' : 8 + i % 8 = i := by omega
    simp [messageBit, le32, h, hlt, hi']
  · have hi' : 16 + i % 8 = i := by omega
    simp [messageBit, le32, h, hlt, hi']
  · have hi' : 24 + i % 8 = i := by omega
    simp [messageBit, le32, h, hlt, hi']

/-! ## Codewords -/

/-- Payload and trailer form a codeword exactly if the whole string leaves the residue. -/
theorem trailer_iff {payload trailer : List UInt8} (hlen : trailer.length = 4) :
    trailer = le32 (crc32 payload) ↔
      feedAll crcPolynomial (BitVec.allOnes 32) (messageBits (payload ++ trailer)) =
        (step crcPolynomial)^[32] (BitVec.allOnes 32) := by
  have hpayload : feedAll crcPolynomial (BitVec.allOnes 32) (messageBits payload) =
      (payload.foldl crcByte 0xFFFFFFFF).toBitVec := (crcBytes_toBitVec _ _).symm
  have hbits : (messageBits trailer).length = 32 := by rw [messageBits_length, hlen]
  rw [messageBits_append, feedAll_append, hpayload, residue_iff crcPolynomial_top _ hbits]
  have hcrc : (crc32 payload).toBitVec = ~~~(payload.foldl crcByte 0xFFFFFFFF).toBitVec := by
    rw [crc32, UInt32.toBitVec_not]
  rw [← hcrc, ← word_le32]
  constructor
  · intro h
    rw [← h]
  · intro h
    apply messageBits_injective (by rw [hlen]; rfl)
    exact word_injective (by rw [hbits, messageBits_length]; rfl) (Nat.le_of_eq hbits) h

theorem burst_residue {bytes received : List UInt8} (hb : bytes.length = 64)
    (hr : received.length = 64) (h : BurstError bytes received) (c : BitVec 32) :
    feedAll crcPolynomial c (messageBits bytes) ≠ feedAll crcPolynomial c (messageBits received) := by
  obtain ⟨⟨start, -, hwindow⟩, i, hi, hdiff⟩ := h
  have hlb := messageBits_length bytes
  have hlr := messageBits_length received
  apply burst_detected crcPolynomial_top c (by rw [hlb, hlr, hb, hr]) start
  · intro j hj
    by_cases hj' : j < 512
    · rw [messageBits_getElem? _ (by omega), messageBits_getElem? _ (by omega)] at hj
      exact hwindow j hj' fun he => hj (congrArg some he)
    · rw [List.getElem?_eq_none (by omega), List.getElem?_eq_none (by omega)] at hj
      exact absurd rfl hj
  · intro heq
    have hbit := congrArg (fun l : List Bool => l[i]?) heq
    simp only [messageBits_getElem? bytes (by omega : i < 8 * bytes.length),
      messageBits_getElem? received (by omega : i < 8 * received.length)] at hbit
    exact hdiff (Option.some.inj hbit)

theorem messageBytes_split (m : IpcMessage) :
    messageBytes m = m.payload ++ (messageBytes m).drop ipcPayloadSize :=
  (List.take_append_drop _ _).symm

theorem messageTrailer_length (m : IpcMessage) :
    ((messageBytes m).drop ipcPayloadSize).length = 4 := by
  rw [List.length_drop, messageBytes, List.length_ofFn]
  rfl

theorem verifyCrc_iff (m : IpcMessage) :
    m.verifyCrc = true ↔ feedAll crcPolynomial (BitVec.allOnes 32) (messageBits (messageBytes m)) =
      (step crcPolynomial)^[32] (BitVec.allOnes 32) := by
  rw [messageBytes_split m, ← trailer_iff (messageTrailer_length m), IpcMessage.verifyCrc,
    beq_iff_eq]
  rfl

theorem recordVerifyCrc_iff (r : BlackboxRecord) :
    r.verifyCrc = true ↔ feedAll crcPolynomial (BitVec.allOnes 32) (messageBits (recordBytes r)) =
      (step crcPolynomial)^[32] (BitVec.allOnes 32) := by
  have hle : le32 r.crc = le32 (crc32 r.header) ↔ r.crc = crc32 r.header := by
    constructor
    · intro h
      apply UInt32.toBitVec_inj.mp
      rw [← word_le32, ← word_le32, h]
    · exact congrArg le32
  rw [recordBytes, ← trailer_iff rfl, hle, BlackboxRecord.verifyCrc, beq_iff_eq]

theorem recordBytes_length {r : BlackboxRecord} (h : RecordLayout r) :
    (recordBytes r).length = 64 := by
  simp [recordBytes, BlackboxRecord.header, le16, le32, h.magic, h.pad, h.data, blackboxDataSize]

theorem setCrc_verifyCrc (m : IpcMessage) : m.setCrc.verifyCrc = true := by
  have hpayload : m.setCrc.payload = m.payload := by
    apply List.ext_getElem?
    intro i
    by_cases hi : i < ipcPayloadSize
    · have hlt : i < ipcMsgSize := Nat.lt_trans hi (by decide)
      have hnot : ¬ ipcPayloadSize ≤ i := by omega
      simp [IpcMessage.payload, IpcMessage.setCrc, hi, hlt, hnot]
    · simp [IpcMessage.payload, hi]
  rw [IpcMessage.verifyCrc, hpayload, beq_iff_eq]
  rfl

theorem recordSetCrc_verifyCrc (r : BlackboxRecord) : r.setCrc.verifyCrc = true := by
  rw [BlackboxRecord.verifyCrc, beq_iff_eq]
  rfl

theorem message_burst_detected {m received : IpcMessage} (h : m.verifyCrc = true)
    (hb : BurstError (messageBytes m) (messageBytes received)) : received.verifyCrc = false := by
  rw [← Bool.not_eq_true, verifyCrc_iff]
  intro hr
  have hlen : ∀ x : IpcMessage, (messageBytes x).length = 64 := fun x => List.length_ofFn
  exact burst_residue (hlen m) (hlen received) hb _ (((verifyCrc_iff m).mp h).trans hr.symm)

theorem record_burst_detected {r received : BlackboxRecord} (hl : RecordLayout r)
    (hl' : RecordLayout received) (h : r.verifyCrc = true)
    (hb : BurstError (recordBytes r) (recordBytes received)) : received.verifyCrc = false := by
  rw [← Bool.not_eq_true, recordVerifyCrc_iff]
  intro hr
  exact burst_residue (recordBytes_length hl) (recordBytes_length hl') hb _
    (((recordVerifyCrc_iff r).mp h).trans hr.symm)

/-- Setting the CRC makes it verify, and a verified message or record with a burst of flipped
bits in at most 32 consecutive positions does not verify any more. -/
theorem crc_detects_bursts :
    (∀ m : IpcMessage, m.setCrc.verifyCrc = true) ∧
    (∀ r : BlackboxRecord, r.setCrc.verifyCrc = true) ∧
    (∀ m received : IpcMessage, m.verifyCrc = true →
      BurstError (messageBytes m) (messageBytes received) → received.verifyCrc = false) ∧
    ∀ r received : BlackboxRecord, RecordLayout r → RecordLayout received → r.verifyCrc = true →
      BurstError (recordBytes r) (recordBytes received) → received.verifyCrc = false := by
  refine ⟨setCrc_verifyCrc, recordSetCrc_verifyCrc, ?_, ?_⟩
  · intro m received h hb
    exact message_burst_detected h hb
  · intro r received hl hl' h hb
    exact record_burst_detected hl hl' h hb

/-- The message that arrives when the first bit of `m` is flipped. -/
def firstBitFlipped (m : IpcMessage) : IpcMessage :=
  ⟨Function.update m.data ⟨0, by decide⟩ (m.data ⟨0, by decide⟩ ^^^ 1)⟩

theorem firstBitFlipped_burst (m : IpcMessage) :
    BurstError (messageBytes m) (messageBytes (firstBitFlipped m)) := by
  have hbyte : ∀ x : IpcMessage, ∀ k (hk : k < ipcMsgSize),
      (messageBytes x).getD k 0 = x.data ⟨k, hk⟩ := by
    intro x k hk
    rw [messageBytes, List.getD_eq_getElem?_getD, List.getElem?_ofFn, dif_pos hk]
    rfl
  refine ⟨⟨0, by decide, ?_⟩, 0, by decide, ?_⟩
  · intro i hi hne
    by_contra hout
    apply hne
    have hk : i / 8 < ipcMsgSize := by
      rw [ipcMsgSize]
      omega
    have hzero : i / 8 ≠ 0 := by omega
    rw [messageBit, messageBit, hbyte m _ hk, hbyte _ _ hk]
    simp [firstBitFlipped, hzero]
  · rw [messageBit, messageBit, Nat.zero_div, hbyte m 0 (by decide), hbyte _ 0 (by decide)]
    simp [firstBitFlipped]

theorem crc_detects_first_bit :
    IpcMessage.zeroed.setCrc.verifyCrc = true ∧
      (firstBitFlipped IpcMessage.zeroed.setCrc).verifyCrc = false :=
  ⟨crc_detects_bursts.1 _, crc_detects_bursts.2.2.1 _ _ (crc_detects_bursts.1 _)
    (firstBitFlipped_burst _)⟩

end KernelCrc
