import Sipahi.RiscvEncoding

/-!
# The control-flow scanner of the stack analyser

`scan_control_flow` collects direct edges and indirect jumps of a text in one pass. A `c.j` edge
keeps the placeholder offset of `decode_rvc_direct`.
-/
namespace SntmControlFlow

open RiscvEncoding

structure DirectEdge where
  fromOff : ℕ
  target : ℕ
  link : ℕ
  deriving DecidableEq, Repr

inductive IndirectKind where
  | jalr32 (rd rs1 : ℕ)
  | jr32Tail (rs1 : ℕ)
  | cJalr (rs1 : ℕ)
  | cJrTail (rs1 : ℕ)
  deriving DecidableEq, Repr

structure IndirectCall where
  offset : ℕ
  kind : IndirectKind
  deriving DecidableEq, Repr

/-- `wrapping_add` of a sign-extended immediate. -/
def wrappingOffset (pc : ℕ) (imm : ℤ) : ℕ := ((pc + imm) % 2 ^ 64).toNat

/-- `& !1`. -/
def clearBitZero (addr : ℕ) : ℕ := addr / 2 * 2

def decodeJalImm (raw : ℕ) : ℤ :=
  let imm20 := field raw 31 1
  let unsigned : ℕ := imm20 * 2 ^ 20 + field raw 12 8 * 2 ^ 12 + field raw 20 1 * 2 ^ 11 +
    field raw 21 10 * 2
  if imm20 ≠ 0 then (unsigned : ℤ) - 2 ^ 21 else unsigned

def decodeCjImm (raw : ℕ) : ℤ :=
  let b11 := field raw 12 1
  let unsigned : ℕ := b11 * 2 ^ 11 + field raw 8 1 * 2 ^ 10 + field raw 9 2 * 2 ^ 8 +
    field raw 6 1 * 2 ^ 7 + field raw 7 1 * 2 ^ 6 + field raw 2 1 * 2 ^ 5 +
    field raw 11 1 * 2 ^ 4 + field raw 3 3 * 2
  if b11 ≠ 0 then (unsigned : ℤ) - 2 ^ 12 else unsigned

def decodeRvcDirect (raw pc : ℕ) : Option DirectEdge :=
  if raw % 4 ≠ 1 then none
  else if field raw 13 3 ≠ 5 then none
  else some
    { fromOff := 0
      target := clearBitZero (wrappingOffset pc (decodeCjImm raw))
      link := 0 }

def decodeRvcIndirect (raw : ℕ) : Option IndirectKind :=
  if raw % 4 ≠ 2 then none
  else
    let rs1 := field raw 7 5
    if rs1 = 0 ∨ field raw 2 5 ≠ 0 then none
    else match field raw 12 4 with
      | 8 => if rs1 = 1 then none else some (.cJrTail rs1)
      | 9 => some (.cJalr rs1)
      | _ => none

/-- The vectors `directs` and `indirects`. -/
abbrev Found := List DirectEdge × List IndirectCall

def Found.direct (e : DirectEdge) (found : Found) : Found := (e :: found.1, found.2)

def Found.indirect (offset : ℕ) (kind : IndirectKind) (found : Found) : Found :=
  (found.1, ⟨offset, kind⟩ :: found.2)

def scanCompressed (raw pc : ℕ) (found : Found) : Found :=
  match decodeRvcDirect raw pc with
  | some direct => found.direct direct
  | none =>
    match decodeRvcIndirect raw with
    | some kind => found.indirect pc kind
    | none => found

/-- A `jalr` without its `auipc`; the plain return is allowed. -/
def scanJalr (raw pc : ℕ) (found : Found) : Found :=
  if rd raw = 0 ∧ rs1 raw = 1 then found
  else if rd raw = 0 then found.indirect pc (.jr32Tail (rs1 raw))
  else found.indirect pc (.jalr32 (rd raw) (rs1 raw))

/-- An instruction that is not part of a pair. -/
def scanWord (raw cursor pc : ℕ) (found : Found) : Found :=
  if opcode raw = 0x17 then found
  else if opcode raw = 0x67 ∧ funct3 raw = 0 then scanJalr raw pc found
  else if opcode raw = 0x6F then
    found.direct
      { fromOff := cursor
        target := clearBitZero (wrappingOffset pc (decodeJalImm raw))
        link := rd raw }
  else found

/-- `next` is the `jalr` of the `auipc` before it. -/
def resolvesPair (raw next : ℕ) : Bool :=
  opcode raw == 0x17 && opcode next == 0x67 && funct3 next == 0 && rd raw != 0 &&
    rd raw == rs1 next

def pairEdge (raw next cursor pc : ℕ) : DirectEdge where
  fromOff := cursor
  target := clearBitZero
    (wrappingOffset (wrappingOffset pc (signed 20 (field raw 12 20) * 2 ^ 12))
      (signed 12 (field next 20 12)))
  link := rd next

def scanFrom (textBase cursor : ℕ) : List UInt8 → Found
  | b0 :: b1 :: rest =>
    let pc := (textBase + cursor) % 2 ^ 64
    if b0.toNat % 4 ≠ 3 then
      scanCompressed (le16 b0 b1) pc (scanFrom textBase (cursor + 2) rest)
    else match rest with
      | b2 :: b3 :: rest =>
        let raw := le32 b0 b1 b2 b3
        match rest with
        | c0 :: c1 :: c2 :: c3 :: rest' =>
          let next := le32 c0 c1 c2 c3
          if resolvesPair raw next then
            (scanFrom textBase (cursor + 8) rest').direct (pairEdge raw next cursor pc)
          else scanWord raw cursor pc (scanFrom textBase (cursor + 4) (c0 :: c1 :: c2 :: c3 :: rest'))
        | rest => scanWord raw cursor pc (scanFrom textBase (cursor + 4) rest)
      | _ => ([], [])
  | _ => ([], [])

def scanControlFlow (textBase : ℕ) (bytes : List UInt8) : Found := scanFrom textBase 0 bytes

/-! ## Every transfer of a 32-bit instruction is found with its source -/

theorem decodeJalImm_eq (raw : ℕ) : decodeJalImm raw = jalOffset raw := by
  have h31 : field raw 31 1 < 2 := Nat.mod_lt _ (by decide)
  have h12 : field raw 12 8 < 2 ^ 8 := Nat.mod_lt _ (by decide)
  have h20 : field raw 20 1 < 2 := Nat.mod_lt _ (by decide)
  have h21 : field raw 21 10 < 2 ^ 10 := Nat.mod_lt _ (by decide)
  simp only [decodeJalImm, jalOffset, signed]
  by_cases hsign : field raw 31 1 = 0
  · rw [if_neg (by omega), if_pos (by omega)]
  · rw [if_pos hsign, if_neg (by omega)]

theorem wrappingOffset_add (pc : ℕ) (a b : ℤ) :
    wrappingOffset (wrappingOffset pc a) b = wrappingOffset pc (a + b) := by
  simp only [wrappingOffset]
  congr 1
  omega

theorem resolvesPair_iff {raw next : ℕ} : resolvesPair raw next = true ↔ IsCallPair raw next := by
  simp [resolvesPair, IsCallPair, IsJalr, opAuipc, opJalr, and_assoc]

theorem scanCompressed_directs {raw pc : ℕ} {found : Found} {d : DirectEdge} (h : d ∈ found.1) :
    d ∈ (scanCompressed raw pc found).1 := by
  rw [scanCompressed]
  split
  · exact List.mem_cons_of_mem _ h
  · split
    · exact h
    · exact h

theorem scanWord_directs {raw cursor pc : ℕ} {found : Found} {d : DirectEdge} (h : d ∈ found.1) :
    d ∈ (scanWord raw cursor pc found).1 := by
  rw [scanWord]
  split
  · exact h
  · split
    · rw [scanJalr]
      split
      · exact h
      · split
        · exact h
        · exact h
    · split
      · exact List.mem_cons_of_mem _ h
      · exact h

theorem scanWord_jal {raw cursor pc : ℕ} (found : Found) (h : opcode raw = opJal) :
    { fromOff := cursor, target := jumpTarget pc (jalOffset raw), link := rd raw } ∈
      (scanWord raw cursor pc found).1 := by
  rw [opJal] at h
  rw [scanWord, if_neg (by omega), if_neg (by omega), if_pos h, ← decodeJalImm_eq]
  exact List.mem_cons_self

theorem pairEdge_target (raw next cursor pc : ℕ) :
    (pairEdge raw next cursor pc).target =
      jumpTarget pc (auipcOffset raw + jalrOffset next) := by
  simp only [pairEdge, wrappingOffset_add]
  rfl

/-- The edge of a transfer. -/
def Finds (textBase : ℕ) (edges : List DirectEdge) (t : Transfer) : Prop :=
  ∃ d ∈ edges, (textBase + d.fromOff) % 2 ^ 64 = t.pc ∧ d.target = t.target

theorem Finds.mono {textBase : ℕ} {edges edges' : List DirectEdge} {t : Transfer}
    (h : Finds textBase edges t) (hsub : ∀ d ∈ edges, d ∈ edges') : Finds textBase edges' t := by
  obtain ⟨d, hd, ht⟩ := h
  exact ⟨d, hsub d hd, ht⟩

/-- The transfer of a word that is not the first half of a pair. -/
theorem scanWord_finds {textBase cursor raw : ℕ} {bytes : List UInt8} {found : Found}
    {t : Transfer} (hpair : ∀ c0 c1 c2 c3 rest, bytes = c0 :: c1 :: c2 :: c3 :: rest →
      ¬ resolvesPair raw (le32 c0 c1 c2 c3) = true)
    (h : transferAt ((textBase + cursor) % 2 ^ 64) (.word raw)
      (sweep textBase (cursor + 4) bytes).head? = some t) :
    Finds textBase (scanWord raw cursor ((textBase + cursor) % 2 ^ 64) found).1 t := by
  rcases transferAt_word h with ⟨hjal, rfl⟩ | ⟨pc, next, hnext, hcall, -⟩
  · exact ⟨_, scanWord_jal found hjal, rfl, rfl⟩
  · obtain ⟨c0, c1, c2, c3, rest, rfl, rfl⟩ := sweep_head_word hnext
    exact absurd (resolvesPair_iff.mpr hcall) (hpair c0 c1 c2 c3 rest rfl)

/-- A `jalr` at the front has no transfer of its own. -/
theorem transferAt_jalr {pc raw : ℕ} {next : Option (ℕ × Instr)} (h : opcode raw = opJalr) :
    transferAt pc (.word raw) next = none := by
  cases hnone : transferAt pc (.word raw) next with
  | none => rfl
  | some t =>
    rcases transferAt_word hnone with ⟨hjal, -⟩ | ⟨pc', second, -, hcall, -⟩
    · rw [hjal] at h
      cases h
    · rw [hcall.1] at h
      cases h

theorem scanFrom_finds {textBase cursor : ℕ} {bytes : List UInt8} {t : Transfer}
    (h : t ∈ transfers (sweep textBase cursor bytes)) (hword : t.compressed = false) :
    Finds textBase (scanFrom textBase cursor bytes).1 t := by
  fun_induction scanFrom textBase cursor bytes with
  | case1 cursor b0 b1 rest pc hshort ih =>
    rw [sweep_compressed hshort, transfers] at h
    rcases List.mem_append.mp h with h | h
    · have hshape := transferAt_compressed (Option.mem_toList.mp h)
      rw [hword] at hshape
      cases hshape
    · exact (ih h).mono fun d hd => scanCompressed_directs hd
  | case2 cursor b0 b1 pc hlong b2 b3 raw c0 c1 c2 c3 rest next hpair ih =>
    have hcall := resolvesPair_iff.mp hpair
    have hnext : ¬ c0.toNat % 4 ≠ 3 := by
      have hop := hcall.2.1.1
      simp only [opcode, field, opJalr, next, le32, le16] at hop
      omega
    rw [sweep_word hlong, transfers, sweep_word hnext] at h
    rcases List.mem_append.mp h with h | h
    · refine ⟨_, List.mem_cons_self, ?_⟩
      rcases transferAt_word (Option.mem_toList.mp h) with ⟨hjal, -⟩ | ⟨pc', second, hhead, -, rfl⟩
      · have hauipc := hcall.1
        rw [hjal] at hauipc
        cases hauipc
      · cases hhead
        exact ⟨rfl, pairEdge_target raw next cursor pc⟩
    · rw [transfers, transferAt_jalr hcall.2.1.1] at h
      exact (ih h).mono fun d hd => List.mem_cons_of_mem _ hd
  | case3 cursor b0 b1 pc hlong b2 b3 raw c0 c1 c2 c3 rest next hpair ih =>
    rw [sweep_word hlong, transfers] at h
    rcases List.mem_append.mp h with h | h
    · refine scanWord_finds ?_ (Option.mem_toList.mp h)
      intro d0 d1 d2 d3 rest' heq
      cases heq
      exact hpair
    · exact (ih h).mono fun d hd => scanWord_directs hd
  | case4 cursor b0 b1 pc hlong b2 b3 raw rest hshort ih =>
    rw [sweep_word hlong, transfers] at h
    rcases List.mem_append.mp h with h | h
    · refine scanWord_finds ?_ (Option.mem_toList.mp h)
      intro d0 d1 d2 d3 rest' heq
      exact absurd heq (hshort d0 d1 d2 d3 rest')
    · exact (ih h).mono fun d hd => scanWord_directs hd
  | case5 cursor b0 b1 rest hlong hshort =>
    rw [sweep.eq_def] at h
    simp only [if_neg hlong] at h
    cases h
  | case6 bytes cursor hshort =>
    rw [sweep.eq_def] at h
    split at h
    · rename_i b0 b1 rest
      exact absurd rfl (hshort b0 b1 rest)
    · cases h

end SntmControlFlow
