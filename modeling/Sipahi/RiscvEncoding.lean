import Mathlib.Algebra.Order.Ring.Int
import Mathlib.Algebra.Order.Ring.Nat

/-!
# RV64 instruction encodings

Fields and mnemonics of 32-bit instructions and of the compressed ones, as far as they concern
privilege, floating point and control transfer. An instruction is a natural number below `2 ^ 32`
or `2 ^ 16`.
-/
namespace RiscvEncoding

inductive Instr where
  | compressed (raw : ℕ)
  | word (raw : ℕ)
  deriving DecidableEq, Repr

/-- Bits `lo` to `lo + width - 1`. -/
def field (raw lo width : ℕ) : ℕ := raw / 2 ^ lo % 2 ^ width

def opcode (raw : ℕ) : ℕ := field raw 0 7
def rd (raw : ℕ) : ℕ := field raw 7 5
def funct3 (raw : ℕ) : ℕ := field raw 12 3
def rs1 (raw : ℕ) : ℕ := field raw 15 5
def funct7 (raw : ℕ) : ℕ := field raw 25 7
def funct12 (raw : ℕ) : ℕ := field raw 20 12

/-- The two low bits of a compressed instruction, and its three high bits. -/
def quadrant (raw : ℕ) : ℕ := field raw 0 2
def compressedFunct3 (raw : ℕ) : ℕ := field raw 13 3

def opSystem : ℕ := 0x73
def opOpFp : ℕ := 0x53
def opLoadFp : ℕ := 0x07
def opStoreFp : ℕ := 0x27
def opMadd : ℕ := 0x43
def opMsub : ℕ := 0x47
def opNmsub : ℕ := 0x4B
def opNmadd : ℕ := 0x4F
def opAuipc : ℕ := 0x17
def opJalr : ℕ := 0x67
def opJal : ℕ := 0x6F

theorem funct7_eq (raw : ℕ) : funct7 raw = funct12 raw / 2 ^ 5 := by
  simp only [funct7, funct12, field]
  omega

/-- `ebreak`, `uret`, `sret`, `mret` and `wfi` differ in the immediate only. -/
def IsTrapOp (imm raw : ℕ) : Prop :=
  opcode raw = opSystem ∧ funct3 raw = 0 ∧ rd raw = 0 ∧ rs1 raw = 0 ∧ funct12 raw = imm

def IsEbreak (raw : ℕ) : Prop := IsTrapOp 0x001 raw
def IsUret (raw : ℕ) : Prop := IsTrapOp 0x002 raw
def IsSret (raw : ℕ) : Prop := IsTrapOp 0x102 raw
def IsMret (raw : ℕ) : Prop := IsTrapOp 0x302 raw
def IsWfi (raw : ℕ) : Prop := IsTrapOp 0x105 raw

def IsSfenceVma (raw : ℕ) : Prop :=
  opcode raw = opSystem ∧ funct3 raw = 0 ∧ rd raw = 0 ∧ funct7 raw = 0x09

/-- `csrrw`, `csrrs`, `csrrc` and their immediate forms. -/
def IsCsr (raw : ℕ) : Prop := opcode raw = opSystem ∧ funct3 raw ≠ 0 ∧ funct3 raw ≠ 4

def IsFusedMultiplyAdd (raw : ℕ) : Prop :=
  opcode raw = opMadd ∨ opcode raw = opMsub ∨ opcode raw = opNmsub ∨ opcode raw = opNmadd

/-- The other F and D instructions. -/
def IsFloat (raw : ℕ) : Prop :=
  opcode raw = opOpFp ∨ opcode raw = opLoadFp ∨ opcode raw = opStoreFp

def IsCEbreak (raw : ℕ) : Prop := raw = 0x9002

/-- `c.fld`, `c.fsd`, `c.fldsp` and `c.fsdsp`. -/
def IsCompressedDouble (raw : ℕ) : Prop :=
  (quadrant raw = 0 ∨ quadrant raw = 2) ∧
    (compressedFunct3 raw = 1 ∨ compressedFunct3 raw = 5)

/-! ## Direct control transfers -/

/-- Two's complement reading of a value of this width. -/
def signed (width value : ℕ) : ℤ :=
  if value < 2 ^ (width - 1) then value else (value : ℤ) - 2 ^ width

def jalOffset (raw : ℕ) : ℤ :=
  signed 21 (field raw 31 1 * 2 ^ 20 + field raw 12 8 * 2 ^ 12 + field raw 20 1 * 2 ^ 11 +
    field raw 21 10 * 2)

def cjOffset (raw : ℕ) : ℤ :=
  signed 12 (field raw 12 1 * 2 ^ 11 + field raw 8 1 * 2 ^ 10 + field raw 9 2 * 2 ^ 8 +
    field raw 6 1 * 2 ^ 7 + field raw 7 1 * 2 ^ 6 + field raw 2 1 * 2 ^ 5 +
    field raw 11 1 * 2 ^ 4 + field raw 3 3 * 2)

def auipcOffset (raw : ℕ) : ℤ := signed 20 (field raw 12 20) * 2 ^ 12

def jalrOffset (raw : ℕ) : ℤ := signed 12 (funct12 raw)

/-- Addresses wrap at 64 bits and bit zero of a target is cleared. -/
def jumpTarget (pc : ℕ) (offset : ℤ) : ℕ := ((pc + offset) % 2 ^ 64).toNat / 2 * 2

def IsCJ (raw : ℕ) : Prop := quadrant raw = 1 ∧ compressedFunct3 raw = 5

def IsJalr (raw : ℕ) : Prop := opcode raw = opJalr ∧ funct3 raw = 0

/-- `auipc` and the `jalr` that jumps relative to its result. -/
def IsCallPair (first second : ℕ) : Prop :=
  opcode first = opAuipc ∧ IsJalr second ∧ rd first ≠ 0 ∧ rd first = rs1 second

/-- A jump whose target the code itself fixes. -/
structure Transfer where
  pc : ℕ
  target : ℕ
  compressed : Bool
  deriving DecidableEq, Repr

instance (raw : ℕ) : Decidable (IsCJ raw) := inferInstanceAs (Decidable (_ ∧ _))

instance (raw : ℕ) : Decidable (IsJalr raw) := inferInstanceAs (Decidable (_ ∧ _))

instance (first second : ℕ) : Decidable (IsCallPair first second) :=
  inferInstanceAs (Decidable (_ ∧ _))

/-- The transfer of an instruction, given the one behind it. -/
def transferAt (pc : ℕ) (i : Instr) (next : Option (ℕ × Instr)) : Option Transfer :=
  match i with
  | .compressed raw => if IsCJ raw then some ⟨pc, jumpTarget pc (cjOffset raw), true⟩ else none
  | .word raw =>
    if opcode raw = opJal then some ⟨pc, jumpTarget pc (jalOffset raw), false⟩
    else match next with
      | some (_, .word second) =>
        if IsCallPair raw second then
          some ⟨pc, jumpTarget pc (auipcOffset raw + jalrOffset second), false⟩
        else none
      | _ => none

def transfers : List (ℕ × Instr) → List Transfer
  | [] => []
  | (pc, i) :: rest => (transferAt pc i rest.head?).toList ++ transfers rest

theorem transferAt_compressed {pc raw : ℕ} {next : Option (ℕ × Instr)} {t : Transfer}
    (h : transferAt pc (.compressed raw) next = some t) : t.compressed = true := by
  simp only [transferAt] at h
  split at h
  · cases h
    rfl
  · cases h

/-- A 32-bit instruction transfers control as a `jal` or as the first of a pair. -/
theorem transferAt_word {pc raw : ℕ} {next : Option (ℕ × Instr)} {t : Transfer}
    (h : transferAt pc (.word raw) next = some t) :
    (opcode raw = opJal ∧ t = ⟨pc, jumpTarget pc (jalOffset raw), false⟩) ∨
      ∃ pc' second, next = some (pc', .word second) ∧ IsCallPair raw second ∧
        t = ⟨pc, jumpTarget pc (auipcOffset raw + jalrOffset second), false⟩ := by
  simp only [transferAt] at h
  split at h
  · rename_i hjal
    cases h
    exact Or.inl ⟨hjal, rfl⟩
  · split at h
    · rename_i pc' second
      split at h
      · rename_i hcall
        cases h
        exact Or.inr ⟨pc', second, rfl, hcall, rfl⟩
      · cases h
    · cases h

/-! ## Linear sweep -/

def le16 (b0 b1 : UInt8) : ℕ := b0.toNat + 2 ^ 8 * b1.toNat

def le32 (b0 b1 b2 b3 : UInt8) : ℕ := le16 b0 b1 + 2 ^ 16 * le16 b2 b3

theorem le16_lt (b0 b1 : UInt8) : le16 b0 b1 < 2 ^ 16 := by
  have h0 : b0.toNat < 2 ^ 8 := b0.toNat_lt
  have h1 : b1.toNat < 2 ^ 8 := b1.toNat_lt
  rw [le16]
  omega

/-- The low bits of the first byte tell the length. -/
theorem le16_mod_four (b0 b1 : UInt8) : le16 b0 b1 % 4 = b0.toNat % 4 := by
  rw [le16]
  omega

/-- The instructions of a text with their addresses; a cut-off tail is dropped. -/
def sweep (base offset : ℕ) : List UInt8 → List (ℕ × Instr)
  | b0 :: b1 :: rest =>
    let pc := (base + offset) % 2 ^ 64
    if b0.toNat % 4 ≠ 3 then (pc, .compressed (le16 b0 b1)) :: sweep base (offset + 2) rest
    else match rest with
      | b2 :: b3 :: rest => (pc, .word (le32 b0 b1 b2 b3)) :: sweep base (offset + 4) rest
      | _ => []
  | _ => []

section

variable {base offset : ℕ} {b0 b1 b2 b3 : UInt8} {rest bytes : List UInt8}

theorem sweep_compressed (h : b0.toNat % 4 ≠ 3) :
    sweep base offset (b0 :: b1 :: rest) =
      ((base + offset) % 2 ^ 64, .compressed (le16 b0 b1)) :: sweep base (offset + 2) rest := by
  rw [sweep.eq_def]
  simp only [if_pos h]

theorem sweep_word (h : ¬ b0.toNat % 4 ≠ 3) :
    sweep base offset (b0 :: b1 :: b2 :: b3 :: rest) =
      ((base + offset) % 2 ^ 64, .word (le32 b0 b1 b2 b3)) :: sweep base (offset + 4) rest := by
  rw [sweep.eq_def]
  simp only [if_neg h]

theorem sweep_cut (h : ¬ b0.toNat % 4 ≠ 3) (hcut : ∀ b2 b3 tail, rest ≠ b2 :: b3 :: tail) :
    sweep base offset (b0 :: b1 :: rest) = [] := by
  rw [sweep.eq_def]
  simp only [if_neg h]

theorem sweep_short (h : ∀ b0 b1 tail, bytes ≠ b0 :: b1 :: tail) : sweep base offset bytes = [] := by
  rw [sweep.eq_def]
  split
  · rename_i b0 b1 tail
    exact absurd rfl (h b0 b1 tail)
  · rfl

/-- A word at the front has its four bytes at the front. -/
theorem sweep_head_word {pc raw : ℕ} (h : (sweep base offset bytes).head? = some (pc, .word raw)) :
    ∃ b0 b1 b2 b3 rest, bytes = b0 :: b1 :: b2 :: b3 :: rest ∧ raw = le32 b0 b1 b2 b3 := by
  rw [sweep.eq_def] at h
  split at h
  · rename_i b0 b1 rest
    dsimp only at h
    split at h
    · cases h
    · split at h
      · cases h
        exact ⟨_, _, _, _, _, rfl, rfl⟩
      · cases h
  · cases h

end

section Decidability

variable (imm raw : ℕ)

instance : Decidable (IsTrapOp imm raw) := inferInstanceAs (Decidable (_ ∧ _))
instance : Decidable (IsEbreak raw) := inferInstanceAs (Decidable (IsTrapOp _ _))
instance : Decidable (IsUret raw) := inferInstanceAs (Decidable (IsTrapOp _ _))
instance : Decidable (IsSret raw) := inferInstanceAs (Decidable (IsTrapOp _ _))
instance : Decidable (IsMret raw) := inferInstanceAs (Decidable (IsTrapOp _ _))
instance : Decidable (IsWfi raw) := inferInstanceAs (Decidable (IsTrapOp _ _))
instance : Decidable (IsSfenceVma raw) := inferInstanceAs (Decidable (_ ∧ _))
instance : Decidable (IsCsr raw) := inferInstanceAs (Decidable (_ ∧ _))
instance : Decidable (IsFusedMultiplyAdd raw) := inferInstanceAs (Decidable (_ ∨ _))
instance : Decidable (IsFloat raw) := inferInstanceAs (Decidable (_ ∨ _))
instance : Decidable (IsCEbreak raw) := inferInstanceAs (Decidable (_ = _))
instance : Decidable (IsCompressedDouble raw) := inferInstanceAs (Decidable (_ ∧ _))

end Decidability

end RiscvEncoding
