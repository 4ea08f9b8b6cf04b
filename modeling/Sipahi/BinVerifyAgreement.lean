import Sipahi.BinVerifyOpcodes
import Sipahi.SntmTransferScan

/-!
# Two readers of one text

The calls by `jal` that `riscv-bin-verify` decodes one instruction at a time, and those among the
edges of the stack analyser, which takes pairs of instructions in one step.
-/
namespace BinVerifyAgreement

open RiscvEncoding RiscvListing SntmControlFlow SntmTransferScan BinVerifyOpcodes

/-- The instruction is not cut off by the end of the text. -/
def Whole (limit : ℕ) (i : TextInstr) : Bool := i.isRvc || decide (i.absAddr + 4 ≤ limit)

/-- The address and the target of a `jal`. -/
def jalOf (i : TextInstr) : Option (ℕ × ℕ) :=
  match i.op with
  | .jal target => some (i.absAddr, target)
  | _ => none

def verifierJals (base : ℕ) (bytes : List UInt8) : List (ℕ × ℕ) :=
  ((sweepText base 0 bytes).filter (Whole (base + bytes.length))).filterMap jalOf

/-- The edges of the scan in their order, with the form each comes from. -/
def scannedEdges (base : ℕ) (bytes : List UInt8) : List (EdgeSource × DirectEdge) :=
  (textSites bytes).filterMap (edgeAt base fun _ => 0)

def analyserJals (base : ℕ) (bytes : List UInt8) : List (ℕ × ℕ) :=
  ((scannedEdges base bytes).filter fun e => e.1 == .jal).map fun e =>
    (base + e.2.fromOff, e.2.target)

/-! ## One instruction -/

/-- The call of an instruction at its address. -/
def jalAt (p : ℕ × Instr) : Option (ℕ × ℕ) :=
  match p.2 with
  | .compressed _ => none
  | .word raw =>
    if opcode raw = opJal then some (p.1, immediateTarget p.1 (jalOffset raw)) else none

theorem jalOf_eq (i : TextInstr) : jalOf i = jalAt (i.absAddr, i.instr) := by
  cases hrvc : i.isRvc with
  | true =>
    have hop : i.op = decodeRvc (i.raw32 % 2 ^ 16) := by rw [TextInstr.op, hrvc, if_pos rfl]
    have hne : ∀ target, i.op ≠ .jal target := by
      intro target
      rw [hop]
      exact decodeRvc_ne_jal _ target
    rw [TextInstr.instr, hrvc, if_pos rfl, jalOf]
    split
    · rename_i target h
      exact absurd h (hne target)
    · rfl
  | false =>
    have hop : i.op = decode32 i.raw32 i.absAddr := by simp [TextInstr.op, hrvc]
    have hinstr : i.instr = .word i.raw32 := by simp [TextInstr.instr, hrvc]
    rw [hinstr, jalOf, hop]
    by_cases hjal : opcode i.raw32 = opJal
    · rw [decode32_jal hjal, decodeJalTarget_eq, jalAt]
      simp only [if_pos hjal]
    · rw [jalAt]
      simp only [if_neg hjal]
      split
      · rename_i target h
        exact absurd h (decode32_ne_jal hjal target)
      · rfl

theorem edgeAt_jal (base : ℕ) (t : Site) :
    ((edgeAt base (fun _ => 0) t).filter fun e => e.1 == .jal).map
      (fun e => (base + e.2.fromOff, e.2.target)) = jalAt (base + t.offset, t.instr) := by
  cases hinstr : t.instr with
  | compressed raw =>
    by_cases hcj : IsCJ raw <;> simp [edgeAt, jalAt, hinstr, hcj]
  | word raw =>
    by_cases hjal : opcode raw = opJal
    · simp [edgeAt, jalAt, hinstr, hjal]
    · simp only [edgeAt, jalAt, hinstr, if_neg hjal]
      split
      · split <;> simp
      · simp

/-! ## The two sweeps -/

theorem sweepText_whole {base cursor limit : ℕ} {bytes : List UInt8}
    (hlimit : base + cursor + bytes.length = limit) (hfits : limit ≤ 2 ^ 64) :
    ((sweepText base cursor bytes).filter (Whole limit)).map (fun i => (i.absAddr, i.instr)) =
      sweep base cursor bytes := by
  fun_induction sweepText base cursor bytes with
  | case1 cursor b0 b1 rest lo absAddr hshort ih =>
    simp only [List.length_cons] at hlimit
    have hb0 : b0.toNat % 4 ≠ 3 := le16_mod_four b0 b1 ▸ hshort
    have hlo : lo % 2 ^ 16 = lo := Nat.mod_eq_of_lt (le16_lt b0 b1)
    have hwhole : Whole limit ⟨absAddr, lo, true⟩ = true := rfl
    rw [List.filter_cons_of_pos hwhole, List.map_cons, sweep_compressed hb0, ih (by omega),
      TextInstr.instr, if_pos rfl, hlo]
  | case2 cursor b0 b1 lo absAddr hlong b2 b3 rest ih =>
    simp only [List.length_cons] at hlimit
    have haddr : absAddr = base + cursor := Nat.mod_eq_of_lt (by omega)
    have hb0 : ¬ b0.toNat % 4 ≠ 3 := le16_mod_four b0 b1 ▸ hlong
    have hwhole : Whole limit ⟨absAddr, lo + 2 ^ 16 * le16 b2 b3, false⟩ = true := by
      simp only [Whole, Bool.false_or, decide_eq_true_eq]
      omega
    rw [List.filter_cons_of_pos hwhole, List.map_cons, sweep_word hb0, ih (by omega)]
    rfl
  | case3 cursor b0 b1 rest lo absAddr hlong hshort =>
    simp only [List.length_cons] at hlimit
    have haddr : absAddr = base + cursor := Nat.mod_eq_of_lt (by omega)
    have hb0 : ¬ b0.toNat % 4 ≠ 3 := le16_mod_four b0 b1 ▸ hlong
    have hlength : rest.length < 2 := by
      cases rest with
      | nil => simp
      | cons b2 rest =>
        cases rest with
        | nil => simp
        | cons b3 rest => exact absurd rfl (hshort b2 b3 rest)
    -- the cut-off word is what the filter leaves out
    have hcut : ¬ Whole limit ⟨absAddr, lo, false⟩ = true := by
      simp only [Whole, Bool.false_or, decide_eq_true_eq]
      omega
    rw [List.filter_cons_of_neg hcut, sweep_cut hb0 hshort]
    rfl
  | case4 bytes cursor hshort =>
    rw [sweep_short hshort]
    rfl

theorem verifierJals_eq {base : ℕ} {bytes : List UInt8} (hfits : base + bytes.length ≤ 2 ^ 64) :
    verifierJals base bytes = (sweep base 0 bytes).filterMap jalAt := by
  have hjal : jalOf = jalAt ∘ fun i : TextInstr => (i.absAddr, i.instr) := funext jalOf_eq
  rw [verifierJals, hjal, ← List.filterMap_map, sweepText_whole (by rw [Nat.add_zero]) hfits]

theorem sweep_eq_sites {base : ℕ} {bytes : List UInt8} (hfits : base + bytes.length ≤ 2 ^ 64) :
    sweep base 0 bytes = (textSites bytes).map fun t => (base + t.offset, t.instr) := by
  have hmap : (textSites bytes).map (fun t => ((base + t.offset) % 2 ^ 64, t.instr)) =
      ((textSites bytes).map fun t => (t.offset, t.instr)).map
        fun p => ((base + p.1) % 2 ^ 64, p.2) := by
    rw [List.map_map]
    rfl
  have hoffset : ∀ t ∈ textSites bytes,
      ((base + t.offset) % 2 ^ 64, t.instr) = (base + t.offset, t.instr) := by
    intro t ht
    have hmem : (t.offset, t.instr) ∈ listing 0 bytes := by
      rw [← sites_map none (listing 0 bytes)]
      exact List.mem_map_of_mem ht
    have hlt := listing_offset_lt hmem
    rw [Nat.mod_eq_of_lt (by omega)]
  rw [sweep_eq_listing, ← sites_map none (listing 0 bytes)]
  exact hmap.symm.trans (List.map_congr_left hoffset)

theorem analyserJals_eq {base : ℕ} {bytes : List UInt8} (hfits : base + bytes.length ≤ 2 ^ 64) :
    analyserJals base bytes = (sweep base 0 bytes).filterMap jalAt := by
  rw [sweep_eq_sites hfits, analyserJals, scannedEdges, List.filter_filterMap, List.map_filterMap,
    List.filterMap_map]
  exact List.filterMap_congr fun t _ => edgeAt_jal base t

/-- Both checkers see the same calls by `jal`. -/
theorem direct_calls_agree (base : ℕ) (bytes : List UInt8) (heven : base % 2 = 0)
    (hfits : base + bytes.length ≤ 2 ^ 64) :
    (scanControlFlow base bytes).1 = (scannedEdges base bytes).map Prod.snd ∧
      verifierJals base bytes = analyserJals base bytes := by
  constructor
  · have hscan : scanControlFlow base bytes = collect base none (listing 0 bytes) :=
      scanFrom_eq heven hfits
    rw [hscan]
    rfl
  · rw [verifierJals_eq hfits, analyserJals_eq hfits]

/-- A pair of AUIPC and JALR, a `jal` and half a word. -/
def pairThenJal : List UInt8 :=
  [0x97, 0x00, 0x00, 0x00, 0xE7, 0x80, 0x00, 0x00, 0xEF, 0xF0, 0x9F, 0xFF, 0x6F, 0x00]

theorem pairThenJal_agree :
    ((scanControlFlow 0x80600000 pairThenJal).1 =
        (scannedEdges 0x80600000 pairThenJal).map Prod.snd ∧
      verifierJals 0x80600000 pairThenJal = analyserJals 0x80600000 pairThenJal) ∧
    verifierJals 0x80600000 pairThenJal = [(0x80600008, 0x80600000)] :=
  ⟨direct_calls_agree 0x80600000 pairThenJal (by decide) (by decide), by decide +kernel⟩

end BinVerifyAgreement
