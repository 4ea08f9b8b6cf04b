import Sipahi.RiscvListing
import Sipahi.SntmManifest
import Mathlib.Tactic.IntervalCases

/-!
# The forbidden-opcode scan

`riscv-bin-verify` sweeps the text sections, decodes each instruction and reports the forbidden
ones. What its decoder does not know passes. Reading the ELF file is left to the `object` crate:
its sections are the input.
-/
namespace BinVerifyOpcodes

open SntmManifest RiscvEncoding RiscvListing

/-! ## The text sweep of `parse_elf` -/

/-- A section of the file; `data` is `none` when its bytes cannot be read. -/
structure ElfSection where
  name : String
  address : ℕ
  data : Option (List UInt8)

structure TextInstr where
  absAddr : ℕ
  raw32 : ℕ
  isRvc : Bool
  deriving DecidableEq, Repr

/-- A 32-bit instruction that the section cuts off is recorded with its low half. -/
def sweepText (baseAddr offset : ℕ) : List UInt8 → List TextInstr
  | b0 :: b1 :: rest =>
    let lo := le16 b0 b1
    let absAddr := (baseAddr + offset) % 2 ^ 64
    if lo % 4 ≠ 3 then ⟨absAddr, lo, true⟩ :: sweepText baseAddr (offset + 2) rest
    else match rest with
      | b2 :: b3 :: rest =>
        ⟨absAddr, lo + 2 ^ 16 * le16 b2 b3, false⟩ :: sweepText baseAddr (offset + 4) rest
      | _ => [⟨absAddr, lo, false⟩]
  | _ => []

def isTextSection (name : String) : Bool := name == ".text" || ".text.".isPrefixOf name

/-- `text_words`. -/
def textWords (sections : List ElfSection) : List TextInstr :=
  (sections.filter fun s => isTextSection s.name).flatMap fun s =>
    match s.data with
    | some data => sweepText s.address 0 data
    | none => []

/-! ## The decoder -/

inductive Op where
  | ecall | ebreak | csr | mret | sret | uret | wfi | sfenceVma | sfenceWInval
  | floatF | floatD | compressedFloat
  | jal (target : ℕ)
  | jalr | plain | unknown
  deriving DecidableEq, Repr

def decodeSystem (raw : ℕ) : Op :=
  if funct3 raw = 0 then
    if rs1 raw ≠ 0 ∨ rd raw ≠ 0 then .unknown
    else match funct12 raw with
      | 0x000 => .ecall
      | 0x001 => .ebreak
      | 0x102 => .sret
      | 0x202 => .uret
      | 0x302 => .mret
      | 0x105 => .wfi
      | imm =>
        if imm / 2 ^ 5 = 0x09 then .sfenceVma
        else if imm / 2 ^ 5 = 0x0C then .sfenceWInval
        else .unknown
  else match funct3 raw with
    | 1 | 2 | 3 | 5 | 6 | 7 => .csr
    | _ => .unknown

def decodeOpFp (raw : ℕ) : Op :=
  match funct7 raw % 4 with
  | 0 => .floatF
  | 1 => .floatD
  | _ => .floatF

def decodeLoadFp (raw : ℕ) : Op :=
  match funct3 raw with
  | 2 => .floatF
  | 3 => .floatD
  | _ => .floatF

def decodeStoreFp (raw : ℕ) : Op :=
  match funct3 raw with
  | 2 => .floatF
  | 3 => .floatD
  | _ => .floatF

/-- The immediate, its sign extension to 64 bits and the wrapping addition. -/
def decodeJalTarget (raw pc : ℕ) : ℕ :=
  let imm20 := field raw 31 1 * 2 ^ 20
  let imm := imm20 + field raw 12 8 * 2 ^ 12 + field raw 20 1 * 2 ^ 11 + field raw 21 10 * 2
  let extended := if imm20 ≠ 0 then imm + (2 ^ 64 - 2 ^ 21) else imm
  (pc + extended) % 2 ^ 64

def decode32 (raw pc : ℕ) : Op :=
  match opcode raw with
  | 0x73 => decodeSystem raw
  | 0x53 => decodeOpFp raw
  | 0x07 => decodeLoadFp raw
  | 0x27 => decodeStoreFp raw
  | 0x6F => .jal (decodeJalTarget raw pc)
  | 0x67 => .jalr
  | _ => .plain

def decodeRvc (raw : ℕ) : Op :=
  match quadrant raw, compressedFunct3 raw with
  | 0, 1 => .compressedFloat
  | 0, 5 => .compressedFloat
  | 2, 1 => .compressedFloat
  | 2, 5 => .compressedFloat
  | _, _ => .plain

/-! ## Its calls -/

/-- The unscrambled and extended immediate is the architectural one. -/
theorem decodeJalTarget_eq (raw pc : ℕ) :
    decodeJalTarget raw pc = immediateTarget pc (jalOffset raw) := by
  have h31 : field raw 31 1 < 2 := Nat.mod_lt _ (by decide)
  have h12 : field raw 12 8 < 2 ^ 8 := Nat.mod_lt _ (by decide)
  have h20 : field raw 20 1 < 2 := Nat.mod_lt _ (by decide)
  have h21 : field raw 21 10 < 2 ^ 10 := Nat.mod_lt _ (by decide)
  simp only [decodeJalTarget, immediateTarget, jalOffset, signed]
  by_cases hsign : field raw 31 1 = 0
  · rw [if_neg (by omega), if_pos (by omega)]
    omega
  · rw [if_pos (by omega), if_neg (by omega)]
    omega

theorem decodeRvc_ne_jal (raw target : ℕ) : decodeRvc raw ≠ .jal target := by
  unfold decodeRvc
  split <;> simp

theorem decodeSystem_ne_jal (raw target : ℕ) : decodeSystem raw ≠ .jal target := by
  intro h
  unfold decodeSystem at h
  split at h
  · split at h
    · cases h
    · split at h
      case h_7 =>
        split at h
        · cases h
        · split at h <;> cases h
      all_goals cases h
  · split at h <;> cases h

theorem decode32_jal {raw pc : ℕ} (h : opcode raw = opJal) :
    decode32 raw pc = .jal (decodeJalTarget raw pc) := by
  rw [opJal] at h
  simp only [decode32, h]

theorem decode32_ne_jal {raw pc : ℕ} (h : opcode raw ≠ opJal) (target : ℕ) :
    decode32 raw pc ≠ .jal target := by
  rw [opJal] at h
  unfold decode32
  split
  · exact decodeSystem_ne_jal raw target
  · unfold decodeOpFp
    split <;> simp
  · unfold decodeLoadFp
    split <;> simp
  · unfold decodeStoreFp
    split <;> simp
  · rename_i hop
    exact absurd hop h
  · simp
  · simp

/-! ## The scan -/

inductive Category where
  | privilegedOp | floatOp | forbiddenSection | wxViolation | relocation | regionBoundary
  | kernelRangeJal | parseError
  deriving DecidableEq, Repr

structure Violation where
  category : Category
  message : String
  deriving DecidableEq, Repr

/-- The category and the name under which an operation is reported; `none` passes. -/
def forbiddenName : Op → Option (Category × String)
  | .ecall | .plain | .jal _ | .jalr => none
  | .ebreak => some (.privilegedOp, "ebreak")
  | .csr => some (.privilegedOp, "csr*")
  | .mret => some (.privilegedOp, "mret")
  | .sret => some (.privilegedOp, "sret")
  | .uret => some (.privilegedOp, "uret")
  | .wfi => some (.privilegedOp, "wfi")
  | .sfenceVma => some (.privilegedOp, "sfence.vma")
  | .sfenceWInval => some (.privilegedOp, "sfence.w.inval")
  | .floatF => some (.floatOp, "F-extension op")
  | .floatD => some (.floatOp, "D-extension op")
  | .compressedFloat => some (.floatOp, "RVC FP op")
  | .unknown => none

def classify (op : Op) (addr : ℕ) (isRvc : Bool) : Option Violation :=
  let width := if isRvc then "16-bit" else "32-bit"
  (forbiddenName op).map fun (category, name) =>
    ⟨category, s!"{name} at 0x{hex addr} ({width})"⟩

def TextInstr.op (i : TextInstr) : Op :=
  if i.isRvc then decodeRvc (i.raw32 % 2 ^ 16) else decode32 i.raw32 i.absAddr

def scanForbiddenOpcodes (words : List TextInstr) : List Violation :=
  words.filterMap fun i => classify i.op i.absAddr i.isRvc

/-! ## What the scan should and does find -/

def TextInstr.instr (i : TextInstr) : Instr :=
  if i.isRvc then .compressed (i.raw32 % 2 ^ 16) else .word i.raw32

/-- Debugging, privileged and floating-point instructions. -/
def Forbidden : Instr → Prop
  | .compressed raw => IsCEbreak raw ∨ IsCompressedDouble raw
  | .word raw => IsEbreak raw ∨ IsCsr raw ∨ IsMret raw ∨ IsSret raw ∨ IsUret raw ∨ IsWfi raw ∨
      IsSfenceVma raw ∨ IsFloat raw ∨ IsFusedMultiplyAdd raw

/-- The forbidden instructions that the decoder takes for something else: `c.ebreak`, `uret`,
`sfence.vma` with an address register and the fused multiply-adds. -/
def Missed : Instr → Prop
  | .compressed raw => IsCEbreak raw
  | .word raw => IsUret raw ∨ (IsSfenceVma raw ∧ rs1 raw ≠ 0) ∨ IsFusedMultiplyAdd raw

instance : DecidablePred Forbidden
  | .compressed _ => inferInstanceAs (Decidable (_ ∨ _))
  | .word _ => inferInstanceAs (Decidable (_ ∨ _))

instance : DecidablePred Missed
  | .compressed raw => inferInstanceAs (Decidable (IsCEbreak raw))
  | .word _ => inferInstanceAs (Decidable (_ ∨ _))

theorem forbidden_of_missed {i : Instr} (h : Missed i) : Forbidden i := by
  cases i with
  | compressed raw => exact Or.inl h
  | word raw =>
    rcases h with h | h | h
    · exact Or.inr (Or.inr (Or.inr (Or.inr (Or.inl h))))
    · exact Or.inr (Or.inr (Or.inr (Or.inr (Or.inr (Or.inr (Or.inl h.1))))))
    · exact Or.inr (Or.inr (Or.inr (Or.inr (Or.inr (Or.inr (Or.inr (Or.inr h)))))))

/-- The operation is reported. -/
def Reported (op : Op) : Prop := (forbiddenName op).isSome

theorem decodeSystem_trapOp {raw imm : ℕ} (h : IsTrapOp imm raw)
    (himm : imm = 0x001 ∨ imm = 0x102 ∨ imm = 0x302 ∨ imm = 0x105) :
    Reported (decodeSystem raw) := by
  obtain ⟨-, hfunct3, hrd, hrs1, hfunct12⟩ := h
  rw [decodeSystem, if_pos hfunct3, if_neg (by simp [hrd, hrs1]), hfunct12]
  rcases himm with rfl | rfl | rfl | rfl <;> rfl

theorem decodeSystem_sfenceVma {raw : ℕ} (h : IsSfenceVma raw) (hrs1 : rs1 raw = 0) :
    Reported (decodeSystem raw) := by
  obtain ⟨-, hfunct3, hrd, hfunct7⟩ := h
  rw [funct7_eq] at hfunct7
  rw [decodeSystem, if_pos hfunct3, if_neg (by simp [hrd, hrs1])]
  split
  case h_7 => rw [if_pos hfunct7]; rfl
  all_goals simp_all

theorem decodeSystem_csr {raw : ℕ} (h : IsCsr raw) : Reported (decodeSystem raw) := by
  obtain ⟨-, hzero, hfour⟩ := h
  have hlt : funct3 raw < 8 := Nat.mod_lt _ (by decide)
  rw [decodeSystem, if_neg hzero]
  generalize funct3 raw = f at *
  interval_cases f <;> first | rfl | contradiction

theorem decode32_float {raw pc : ℕ} (h : IsFloat raw) : Reported (decode32 raw pc) := by
  rcases h with h | h | h
  · simp only [decode32, h, opOpFp, decodeOpFp]
    split <;> rfl
  · simp only [decode32, h, opLoadFp, decodeLoadFp]
    split <;> rfl
  · simp only [decode32, h, opStoreFp, decodeStoreFp]
    split <;> rfl

theorem decode32_system {raw pc : ℕ} (h : opcode raw = opSystem) :
    decode32 raw pc = decodeSystem raw := by
  simp only [decode32, h, opSystem]

/-- Every forbidden instruction is reported or one of the missed ones. -/
theorem decode32_forbidden {raw pc : ℕ} (h : Forbidden (.word raw)) :
    Reported (decode32 raw pc) ∨ Missed (.word raw) := by
  have hsystem : opcode raw = opSystem → Reported (decodeSystem raw) → Reported (decode32 raw pc) :=
    fun hop hr => by rwa [decode32_system hop]
  rcases h with h | h | h | h | h | h | h | h | h
  · exact Or.inl (hsystem h.1 (decodeSystem_trapOp h (by simp)))
  · exact Or.inl (hsystem h.1 (decodeSystem_csr h))
  · exact Or.inl (hsystem h.1 (decodeSystem_trapOp h (by simp)))
  · exact Or.inl (hsystem h.1 (decodeSystem_trapOp h (by simp)))
  · exact Or.inr (Or.inl h)
  · exact Or.inl (hsystem h.1 (decodeSystem_trapOp h (by simp)))
  · by_cases hrs1 : rs1 raw = 0
    · exact Or.inl (hsystem h.1 (decodeSystem_sfenceVma h hrs1))
    · exact Or.inr (Or.inr (Or.inl ⟨h, hrs1⟩))
  · exact Or.inl (decode32_float h)
  · exact Or.inr (Or.inr (Or.inr h))

theorem decodeRvc_forbidden {raw : ℕ} (h : Forbidden (.compressed raw)) :
    Reported (decodeRvc raw) ∨ Missed (.compressed raw) := by
  rcases h with h | ⟨hq, hf⟩
  · exact Or.inr h
  · left
    rcases hq with hq | hq <;> rcases hf with hf | hf <;> simp only [decodeRvc, hq, hf] <;> rfl

theorem quiet_of_scan {words : List TextInstr} (h : scanForbiddenOpcodes words = [])
    {i : TextInstr} (hi : i ∈ words) : ¬ Reported i.op := by
  rw [scanForbiddenOpcodes, List.filterMap_eq_nil_iff] at h
  have hnone := h i hi
  rw [classify, Option.map_eq_none_iff] at hnone
  rw [Reported, hnone]
  decide

theorem missed_of_quiet {i : TextInstr} (hquiet : ¬ Reported i.op) (h : Forbidden i.instr) :
    Missed i.instr := by
  rw [TextInstr.op] at hquiet
  rw [TextInstr.instr] at h ⊢
  split at hquiet
  · rename_i hrvc
    rw [if_pos hrvc] at h ⊢
    exact (decodeRvc_forbidden h).resolve_left hquiet
  · rename_i hword
    rw [if_neg hword] at h ⊢
    exact (decode32_forbidden h).resolve_left hquiet

/-- A text without reports is free of forbidden instructions exactly when it is free of the missed
ones. -/
theorem scan_sound_iff (sections : List ElfSection)
    (hscan : scanForbiddenOpcodes (textWords sections) = []) :
    (∀ i ∈ textWords sections, ¬ Forbidden i.instr) ↔
      ∀ i ∈ textWords sections, ¬ Missed i.instr := by
  constructor
  · intro hclean i hi hmissed
    exact hclean i hi (forbidden_of_missed hmissed)
  · intro hnone i hi hforbidden
    exact hnone i hi (missed_of_quiet (quiet_of_scan hscan hi) hforbidden)

/-- `ecall` and `ret`. -/
def ecallRet : List ElfSection :=
  [⟨".text", 0x80600000, some [0x73, 0x00, 0x00, 0x00, 0x82, 0x80]⟩]

theorem ecallRet_clean : scanForbiddenOpcodes (textWords ecallRet) = [] ∧
    ∀ i ∈ textWords ecallRet, ¬ Forbidden i.instr := by
  have hscan : scanForbiddenOpcodes (textWords ecallRet) = [] := by decide
  exact ⟨hscan, (scan_sound_iff ecallRet hscan).mpr (by decide)⟩

/-- `c.ebreak`, `uret`, `sfence.vma ra, zero` and `fmadd.s`. -/
def unseenOps : List ElfSection :=
  [⟨".text", 0x80600000, some [0x02, 0x90, 0x73, 0x00, 0x20, 0x00, 0x73, 0x80, 0x00, 0x12,
    0x43, 0x00, 0x00, 0x00]⟩]

theorem unseen_ops_pass : ¬ ∀ sections, scanForbiddenOpcodes (textWords sections) = [] →
    ∀ i ∈ textWords sections, ¬ Forbidden i.instr := by
  intro hall
  have hforbidden : ∀ i ∈ textWords unseenOps, Forbidden i.instr := by decide
  exact hall unseenOps (by decide) ⟨0x80600000, 0x9002, true⟩ (by decide)
    (hforbidden _ (by decide))

end BinVerifyOpcodes
