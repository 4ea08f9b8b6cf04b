import Sipahi.GuardedExecution
import Sipahi.KernelTypes
import Sipahi.LittleEndian
import Sipahi.Uleb128
import Mathlib.Data.List.Basic

/-!
# The `.stack_sizes` section

Per function eight address bytes and the frame size in ULEB128, as `sntm-stack` reads them.
-/
namespace SntmStackSizes

open GuardedExecution KernelTypes LittleEndian Uleb128

/-- The errors of these functions. -/
inductive ElfError where
  | parse (text : String)
  | ulebOverflow
  deriving DecidableEq, Repr

def readU64 (buf : List UInt8) (off : ℕ) : UInt64 := UInt64.ofNat (ofLeBytes ((buf.drop off).take 8))

/-- The loop of `read_uleb128`. -/
def uleb128Loop (buf : List UInt8) (value shift cursor : ℕ) : Except ElfError (UInt32 × ℕ) :=
  match buf[cursor]? with
  | none => .error (.parse "ULEB128 truncated")
  | some byte =>
    let value := value ||| ((byte.toNat &&& 0x7F) <<< shift)
    if u32Max < value then .error .ulebOverflow
    else if byte.toNat &&& 0x80 = 0 then .ok (UInt32.ofNat value, cursor + 1)
    else if 35 ≤ shift + 7 then .error (.parse "ULEB128 too long")
    else uleb128Loop buf value (shift + 7) (cursor + 1)
termination_by 35 - shift

def readUleb128 (buf : List UInt8) (cursor : ℕ) : Except ElfError (UInt32 × ℕ) :=
  uleb128Loop buf 0 0 cursor

theorem uleb128Loop_advances {buf : List UInt8} {value shift cursor next : ℕ} {size : UInt32}
    (h : uleb128Loop buf value shift cursor = .ok (size, next)) : cursor < next := by
  fun_induction uleb128Loop buf value shift cursor with
  | case1 | case2 | case4 => cases h
  | case3 =>
    cases h
    exact Nat.lt_succ_self _
  | case5 _ _ _ _ _ _ _ _ _ ih => exact Nat.lt_of_succ_lt (ih h)

/-- The loop of `parse_stack_sizes`. -/
def stackSizesLoop (data : List UInt8) (cursor : ℕ) : Except ElfError (List (UInt64 × UInt32)) :=
  if cursor < data.length then
    if data.length < cursor + 8 then
      .error (.parse s!".stack_sizes truncated address at offset {cursor}")
    else
      match h : readUleb128 data (cursor + 8) with
      | .error e => .error e
      | .ok (size, next) =>
        have : cursor + 8 < next := uleb128Loop_advances h
        do
          let out ← stackSizesLoop data next
          .ok ((readU64 data cursor, size) :: out)
  else .ok []
termination_by data.length - cursor
decreasing_by omega

def parseStackSizes (data : List UInt8) : Except ElfError (List (UInt64 × UInt32)) :=
  stackSizesLoop data 0

/-! ## The format -/

/-- Eight address bytes and one to five bytes of a number, none of it above 32 bits. -/
structure Record (bytes : List UInt8) (addr : UInt64) (size : UInt32) : Prop where
  split : ∃ address number, bytes = address ++ number ∧ address.length = 8 ∧
    ofLeBytes address = addr.toNat ∧ IsNumber number ∧ number.length ≤ 5 ∧
      value number = size.toNat

inductive Records : List UInt8 → List (UInt64 × UInt32) → Prop
  | nil : Records [] []
  | cons {bytes rest : List UInt8} {addr : UInt64} {size : UInt32} {l : List (UInt64 × UInt32)}
      (first : Record bytes addr size) (others : Records rest l) :
      Records (bytes ++ rest) ((addr, size) :: l)

def encodeRecord (p : UInt64 × UInt32) : List UInt8 := toLeBytes 8 p.1.toNat ++ encode p.2.toNat

def encodeRecords (l : List (UInt64 × UInt32)) : List UInt8 := l.flatMap encodeRecord

/-! ## The number -/

theorem isNumber_prefix {number rest : List UInt8} {b : UInt8} (h : IsNumber number)
    (hleads : number <+: b :: rest) :
    ∃ tail, number = b :: tail ∧ tail <+: rest ∧
      ((b.toNat < 128 ∧ tail = []) ∨ (128 ≤ b.toNat ∧ IsNumber tail)) := by
  rcases List.prefix_cons_iff.mp hleads with rfl | ⟨tail, rfl, htail⟩
  · exact h.elim
  · exact ⟨tail, rfl, htail, h⟩

theorem ofNat_eq_iff {n : ℕ} {size : UInt32} (h : n ≤ u32Max) :
    UInt32.ofNat n = size ↔ n = size.toNat := by
  have hlt : n < 2 ^ 32 := Nat.lt_succ_of_le h
  rw [← UInt32.toNat_inj, UInt32.toNat_ofNat', Nat.mod_eq_of_lt hlt]

theorem drop_of_getElem? {buf : List UInt8} {cursor : ℕ} {b : UInt8} (h : buf[cursor]? = some b) :
    buf.drop cursor = b :: buf.drop (cursor + 1) := by
  obtain ⟨hlt, rfl⟩ := List.getElem?_eq_some_iff.mp h
  exact List.drop_eq_getElem_cons hlt

theorem or_payload {v shift : ℕ} (hv : v < 2 ^ shift) (b : UInt8) :
    v ||| ((b.toNat &&& 0x7F) <<< shift) = v + 2 ^ shift * (b.toNat % 128) := by
  rw [payload_eq, or_shiftLeft hv]

/-- The loop reads a number at the cursor whose bits fit behind those it has. -/
theorem uleb128Loop_ok_iff {buf : List UInt8} {v shift j cursor next : ℕ} {size : UInt32}
    (hshift : shift = 7 * j) (hj : j < 5) (hv : v < 2 ^ shift) :
    uleb128Loop buf v shift cursor = .ok (size, next) ↔
      ∃ number, number <+: buf.drop cursor ∧ IsNumber number ∧ number.length + j ≤ 5 ∧
        v + 2 ^ shift * value number = size.toNat ∧ next = cursor + number.length := by
  have hsize : size.toNat ≤ u32Max := Nat.le_of_lt_succ size.toNat_lt
  fun_induction uleb128Loop buf v shift cursor generalizing j with
  | case1 v shift cursor hnone =>
    have hend : buf.drop cursor = [] := List.drop_eq_nil_iff.mpr (List.getElem?_eq_none_iff.mp hnone)
    rw [hend]
    constructor
    · intro h
      cases h
    · rintro ⟨number, hleads, hnumber, -⟩
      obtain rfl := List.prefix_nil.mp hleads
      exact hnumber.elim
  | case2 v shift cursor b hb v' =>
    rename_i hover
    have hv' : v' = v + 2 ^ shift * (b.toNat % 128) := or_payload hv b
    rw [drop_of_getElem? hb]
    constructor
    · intro h
      cases h
    · rintro ⟨number, hleads, hnumber, -, hvalue, -⟩
      obtain ⟨tail, rfl, -⟩ := isNumber_prefix hnumber hleads
      rw [value, Nat.mul_add] at hvalue
      omega
  | case3 v shift cursor b hb v' hover =>
    rename_i hlast
    have hv' : v' = v + 2 ^ shift * (b.toNat % 128) := or_payload hv b
    rw [highBit_eq_zero] at hlast
    rw [drop_of_getElem? hb, Except.ok.injEq, Prod.mk.injEq, ofNat_eq_iff (Nat.not_lt.mp hover)]
    constructor
    · rintro ⟨hvalue, rfl⟩
      refine ⟨[b], List.prefix_append [b] _, Or.inl ⟨hlast, rfl⟩, ?_, ?_, rfl⟩
      · simp only [List.length_singleton]
        omega
      · rw [value, value, Nat.mul_zero, Nat.add_zero, ← hv', hvalue]
    · rintro ⟨number, hleads, hnumber, -, hvalue, hnext⟩
      obtain ⟨tail, rfl, -, ⟨-, rfl⟩ | ⟨hmore, -⟩⟩ := isNumber_prefix hnumber hleads
      · rw [value, value, Nat.mul_zero, Nat.add_zero, ← hv'] at hvalue
        exact ⟨hvalue, hnext.symm⟩
      · omega
  | case4 v shift cursor b hb v' hover hmore =>
    rename_i hlong
    rw [highBit_eq_zero] at hmore
    rw [drop_of_getElem? hb]
    constructor
    · intro h
      cases h
    · rintro ⟨number, hleads, hnumber, hlength, -⟩
      obtain ⟨tail, rfl, -, ⟨hlast, -⟩ | ⟨-, htail⟩⟩ := isNumber_prefix hnumber hleads
      · exact absurd hlast hmore
      · have hpos : 0 < tail.length := by
          apply List.length_pos_of_ne_nil
          rintro rfl
          exact htail.elim
        simp only [List.length_cons] at hlength
        omega
  | case5 v shift cursor b hb v' hover hmore hshort =>
    rename_i ih
    have hv' : v' = v + 2 ^ shift * (b.toNat % 128) := or_payload hv b
    have hpow : 2 ^ (shift + 7) = 2 ^ shift * 128 := by rw [Nat.pow_add]
    have hfits : v' < 2 ^ (shift + 7) := by
      have hle : 2 ^ shift * (b.toNat % 128) ≤ 2 ^ shift * 127 := Nat.mul_le_mul_left _ (by omega)
      omega
    rw [highBit_eq_zero] at hmore
    apply (ih (j := j + 1) (by omega) (by omega) hfits).trans
    rw [drop_of_getElem? hb]
    constructor
    · rintro ⟨tail, hleads, htail, hlength, hvalue, hnext⟩
      refine ⟨b :: tail, (List.prefix_cons_inj b).mpr hleads, Or.inr ⟨by omega, htail⟩, ?_, ?_, ?_⟩
      · simp only [List.length_cons]
        omega
      · rw [value, Nat.mul_add, ← Nat.mul_assoc, ← hpow, ← Nat.add_assoc, ← hv', hvalue]
      · simp only [List.length_cons, hnext]
        omega
    · rintro ⟨number, hleads, hnumber, hlength, hvalue, hnext⟩
      obtain ⟨tail, rfl, htail, ⟨hlast, -⟩ | ⟨-, hrest⟩⟩ := isNumber_prefix hnumber hleads
      · exact absurd hlast hmore
      · simp only [List.length_cons] at hlength hnext
        rw [value, Nat.mul_add, ← Nat.mul_assoc, ← hpow, ← Nat.add_assoc, ← hv'] at hvalue
        exact ⟨tail, htail, hrest, by omega, hvalue, by omega⟩

theorem readUleb128_ok_iff {buf : List UInt8} {cursor next : ℕ} {size : UInt32} :
    readUleb128 buf cursor = .ok (size, next) ↔
      ∃ number, number <+: buf.drop cursor ∧ IsNumber number ∧ number.length ≤ 5 ∧
        value number = size.toNat ∧ next = cursor + number.length := by
  rw [readUleb128, uleb128Loop_ok_iff (j := 0) rfl (by decide) (by decide)]
  simp

/-! ## The records -/

theorem readU64_eq_iff {buf : List UInt8} {off : ℕ} {addr : UInt64} (h : off + 8 ≤ buf.length) :
    readU64 buf off = addr ↔ ofLeBytes ((buf.drop off).take 8) = addr.toNat := by
  have hlength : ((buf.drop off).take 8).length = 8 := by
    simp only [List.length_take, List.length_drop]
    omega
  have hlt : ofLeBytes ((buf.drop off).take 8) < 2 ^ 64 := by
    have hbytes := ofLeBytes_lt ((buf.drop off).take 8)
    rw [hlength] at hbytes
    exact hbytes
  rw [readU64, ← UInt64.toNat_inj, UInt64.toNat_ofNat', Nat.mod_eq_of_lt hlt]

/-- What the two readers find where a record stands. -/
theorem Record.read {data front rest : List UInt8} {cursor : ℕ} {addr : UInt64} {size : UInt32}
    (h : Record front addr size) (hdata : data.drop cursor = front ++ rest) :
    cursor + 8 ≤ data.length ∧ readU64 data cursor = addr ∧
      readUleb128 data (cursor + 8) = .ok (size, cursor + front.length) := by
  obtain ⟨address, number, rfl, haddress, haddr, hnumber, hlength, hvalue⟩ := h.split
  rw [List.append_assoc] at hdata
  have hfits : cursor + 8 ≤ data.length := by
    have hlengths := congrArg List.length hdata
    simp only [List.length_drop, List.length_append] at hlengths
    omega
  refine ⟨hfits, ?_, ?_⟩
  · rw [readU64_eq_iff hfits, hdata, ← haddress, List.take_left, haddr]
  · rw [readUleb128_ok_iff]
    refine ⟨number, ?_, hnumber, hlength, hvalue, ?_⟩
    · rw [← List.drop_drop, hdata, ← haddress, List.drop_left]
      exact List.prefix_append number rest
    · simp [haddress, Nat.add_assoc]

/-- Bytes at the cursor that both readers accept are a record. -/
theorem record_of_read {data : List UInt8} {cursor next : ℕ} {size : UInt32}
    (hfits : cursor + 8 ≤ data.length)
    (h : readUleb128 data (cursor + 8) = .ok (size, next)) :
    ∃ front, data.drop cursor = front ++ data.drop next ∧
      Record front (readU64 data cursor) size := by
  obtain ⟨number, hleads, hnumber, hlength, hvalue, rfl⟩ := readUleb128_ok_iff.mp h
  have haddress : ((data.drop cursor).take 8).length = 8 := by
    simp only [List.length_take, List.length_drop]
    omega
  refine ⟨(data.drop cursor).take 8 ++ number, ?_, ⟨_, number, rfl, haddress,
    (readU64_eq_iff hfits).mp rfl, hnumber, hlength, hvalue⟩⟩
  rw [List.append_assoc, ← List.drop_drop, List.prefix_iff_eq_append.mp hleads, ← List.drop_drop,
    List.take_append_drop]

theorem Records.split {data : List UInt8} {l : List (UInt64 × UInt32)} (h : Records data l)
    (hdata : data ≠ []) : ∃ front rest addr size others, data = front ++ rest ∧
      l = (addr, size) :: others ∧ Record front addr size ∧ Records rest others := by
  cases h with
  | nil => exact absurd rfl hdata
  | cons first others => exact ⟨_, _, _, _, _, rfl, rfl, first, others⟩

theorem records_nil {l : List (UInt64 × UInt32)} : Records [] l ↔ l = [] := by
  constructor
  · generalize hdata : ([] : List UInt8) = data
    intro h
    cases h with
    | nil => rfl
    | cons first others =>
      obtain ⟨address, number, rfl, haddress, -⟩ := first.split
      have hlengths := congrArg List.length hdata
      simp only [List.length_append, List.length_nil] at hlengths
      omega
  · rintro rfl
    exact .nil

/-- From the cursor on the bytes are the records that the loop returns. -/
theorem stackSizesLoop_ok_iff {data : List UInt8} {cursor : ℕ} {l : List (UInt64 × UInt32)} :
    stackSizesLoop data cursor = .ok l ↔ Records (data.drop cursor) l := by
  fun_induction stackSizesLoop data cursor generalizing l with
  | case1 cursor hmore hshort =>
    constructor
    · intro h
      cases h
    · intro h
      obtain ⟨front, rest, addr, size, others, hdata, -, hrecord, -⟩ :=
        h.split (List.drop_eq_nil_iff.not.mpr (Nat.not_le.mpr hmore))
      exact absurd (hrecord.read hdata).1 (Nat.not_le.mpr hshort)
  | case2 cursor hmore hlong e herror =>
    constructor
    · intro h
      cases h
    · intro h
      obtain ⟨front, rest, addr, size, others, hdata, -, hrecord, -⟩ :=
        h.split (List.drop_eq_nil_iff.not.mpr (Nat.not_le.mpr hmore))
      rw [(hrecord.read hdata).2.2] at herror
      cases herror
  | case3 cursor hmore hlong size next hnumber hnext ih =>
    constructor
    · intro h
      obtain ⟨out, hout, hl⟩ := bind_eq_ok.mp h
      cases hl
      obtain ⟨front, hdata, hrecord⟩ := record_of_read (Nat.not_lt.mp hlong) hnumber
      rw [hdata]
      exact .cons hrecord (ih.mp hout)
    · intro h
      obtain ⟨front, rest, addr, size', others, hdata, rfl, hrecord, hothers⟩ :=
        h.split (List.drop_eq_nil_iff.not.mpr (Nat.not_le.mpr hmore))
      obtain ⟨-, haddr, hread⟩ := hrecord.read hdata
      rw [hnumber, Except.ok.injEq, Prod.mk.injEq] at hread
      obtain ⟨rfl, rfl⟩ := hread
      subst haddr
      have hrest : data.drop (cursor + front.length) = rest := by
        rw [← List.drop_drop, hdata, List.drop_left]
      simp only [hrest] at ih
      exact bind_eq_ok.mpr ⟨others, ih.mpr hothers, rfl⟩
  | case4 cursor hend =>
    rw [List.drop_eq_nil_of_le (Nat.not_lt.mp hend), records_nil, Except.ok.injEq, eq_comm]

theorem records_encode (l : List (UInt64 × UInt32)) : Records (encodeRecords l) l := by
  induction l with
  | nil => exact .nil
  | cons p l ih =>
    refine .cons ⟨toLeBytes 8 p.1.toNat, encode p.2.toNat, rfl, length_toLeBytes 8 _, ?_,
      isNumber_encode _, ?_, value_encode _⟩ ih
    · rw [ofLeBytes_toLeBytes]
      exact Nat.mod_eq_of_lt p.1.toNat_lt
    · have hlt : p.2.toNat < 128 ^ (4 + 1) := p.2.toNat_lt.trans (by decide)
      exact length_encode_le hlt

/-- What was encoded is read back, and what is read is a sequence of records from the first byte
to the last. -/
theorem stack_sizes_round_trip :
    (∀ l, parseStackSizes (encodeRecords l) = .ok l) ∧
    ∀ data l, parseStackSizes data = .ok l ↔ Records data l := by
  have hiff : ∀ data l, parseStackSizes data = .ok l ↔ Records data l :=
    fun _ _ => stackSizesLoop_ok_iff
  constructor
  · intro l
    exact (hiff _ _).mpr (records_encode l)
  · exact hiff

end SntmStackSizes
