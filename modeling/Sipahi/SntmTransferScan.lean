import Sipahi.RiscvListing
import Sipahi.SntmControlFlow
import Mathlib.Data.List.Basic

/-!
# What the control-flow scanner reports of a text

Every direct jump and every jump through a register, instruction by instruction, against the two
lists of `scan_control_flow`.
-/
namespace SntmTransferScan

open RiscvEncoding RiscvListing SntmControlFlow

inductive EdgeSource where
  | jal | cj | pair
  deriving DecidableEq, Repr

/-- The edge of an instruction with the form it comes from; `place` gives the offset under which
that of a `c.j` is entered. -/
def edgeAt (base : ℕ) (place : ℕ → ℕ) (t : Site) : Option (EdgeSource × DirectEdge) :=
  match t.instr with
  | .compressed raw =>
    if IsCJ raw then
      some (.cj, ⟨place t.offset, immediateTarget (base + t.offset) (cjOffset raw), 0⟩)
    else none
  | .word raw =>
    if opcode raw = opJal then
      some (.jal, ⟨t.offset, immediateTarget (base + t.offset) (jalOffset raw), rd raw⟩)
    else match t.next with
      | some (.word second) =>
        if IsCallPair raw second then
          some (.pair,
            ⟨t.offset, jumpTarget (base + t.offset) (auipcOffset raw + jalrOffset second), rd second⟩)
        else none
      | _ => none

/-- The kind of a jump through a register that is neither a return nor half of a pair. -/
def indirectKind (isReturn : ℕ → Bool) (t : Site) : Option IndirectKind :=
  match t.instr with
  | .compressed raw =>
    if IsCJr raw ∧ ¬ IsCReturn raw then some (.cJrTail (compressedRs1 raw))
    else if IsCJalr raw then some (.cJalr (compressedRs1 raw))
    else none
  | .word raw =>
    if IsJalr raw ∧ ¬ EndsPair t.prev raw ∧ isReturn raw = false then
      some (if rd raw = 0 then .jr32Tail (rs1 raw) else .jalr32 (rd raw) (rs1 raw))
    else none

def indirectAt (base : ℕ) (isReturn : ℕ → Bool) (t : Site) : Option IndirectCall :=
  (indirectKind isReturn t).map fun kind => ⟨base + t.offset, kind⟩

def textSites (bytes : List UInt8) : List Site := sites none (listing 0 bytes)

/-- What the scanner takes for a return: the immediate is not looked at. -/
def looseReturn (raw : ℕ) : Bool := rd raw == 0 && rs1 raw == 1

/-! ## The scanner as a pass over the sites -/

/-- Both lists, site by site. -/
def collect (base : ℕ) (prev : Option Instr) (l : List (ℕ × Instr)) : Found :=
  (((sites prev l).filterMap (edgeAt base fun _ => 0)).map Prod.snd,
    (sites prev l).filterMap (indirectAt base looseReturn))

/-- The front of the text adds to what was found behind it. -/
def Found.add (edge : Option DirectEdge) (call : Option IndirectCall) (found : Found) : Found :=
  (edge.toList ++ found.1, call.toList ++ found.2)

theorem collect_cons (base : ℕ) (prev : Option Instr) (offset : ℕ) (i : Instr)
    (rest : List (ℕ × Instr)) :
    collect base prev ((offset, i) :: rest) = Found.add
      ((edgeAt base (fun _ => 0) ⟨offset, i, prev, rest.head?.map Prod.snd⟩).map Prod.snd)
      (indirectAt base looseReturn ⟨offset, i, prev, rest.head?.map Prod.snd⟩)
      (collect base (some i) rest) := by
  rw [collect, sites, List.filterMap_cons, List.filterMap_cons]
  cases edgeAt base (fun _ => 0) ⟨offset, i, prev, rest.head?.map Prod.snd⟩ <;>
    cases indirectAt base looseReturn ⟨offset, i, prev, rest.head?.map Prod.snd⟩ <;> rfl

/-- An instruction that no word behind it forms a pair with can be forgotten. -/
theorem collect_forget {base : ℕ} {prev : Option Instr} {l : List (ℕ × Instr)}
    (h : ∀ o raw, l.head? = some (o, .word raw) → ¬ EndsPair prev raw) :
    collect base prev l = collect base none l := by
  have hedges : (sites prev l).filterMap (edgeAt base fun _ => 0) =
      (sites none l).filterMap (edgeAt base fun _ => 0) :=
    filterMap_sites_prev fun _ _ _ _ => rfl
  have hcalls : (sites prev l).filterMap (indirectAt base looseReturn) =
      (sites none l).filterMap (indirectAt base looseReturn) := by
    apply filterMap_sites_prev
    intro o i next hhead
    cases i with
    | compressed raw => rfl
    | word raw =>
      have hpair : ¬ EndsPair prev raw := h o raw hhead
      have hnone : ¬ EndsPair none raw := by simp [EndsPair]
      simp only [indirectAt, indirectKind, hpair, hnone]
  rw [collect, collect, hedges, hcalls]

theorem collect_step {base : ℕ} {prev : Option Instr} {offset : ℕ} {i : Instr}
    {rest : List (ℕ × Instr)}
    (h : ∀ o raw, rest.head? = some (o, .word raw) → ¬ EndsPair (some i) raw) :
    collect base prev ((offset, i) :: rest) = Found.add
      ((edgeAt base (fun _ => 0) ⟨offset, i, prev, rest.head?.map Prod.snd⟩).map Prod.snd)
      (indirectAt base looseReturn ⟨offset, i, prev, rest.head?.map Prod.snd⟩)
      (collect base none rest) := by
  rw [collect_cons, collect_forget h]

theorem decodeCjImm_eq (raw : ℕ) : decodeCjImm raw = cjOffset raw := by
  have h12 : field raw 12 1 < 2 := Nat.mod_lt _ (by decide)
  have h8 : field raw 8 1 < 2 := Nat.mod_lt _ (by decide)
  have h9 : field raw 9 2 < 4 := Nat.mod_lt _ (by decide)
  have h6 : field raw 6 1 < 2 := Nat.mod_lt _ (by decide)
  have h7 : field raw 7 1 < 2 := Nat.mod_lt _ (by decide)
  have h2 : field raw 2 1 < 2 := Nat.mod_lt _ (by decide)
  have h11 : field raw 11 1 < 2 := Nat.mod_lt _ (by decide)
  have h3 : field raw 3 3 < 8 := Nat.mod_lt _ (by decide)
  simp only [decodeCjImm, cjOffset, signed]
  by_cases hsign : field raw 12 1 = 0
  · rw [if_neg (by omega), if_pos (by omega)]
  · rw [if_pos hsign, if_neg (by omega)]

theorem clearBitZero_target {pc : ℕ} {offset : ℤ} (hpc : pc % 2 = 0) (hoffset : offset % 2 = 0) :
    clearBitZero (wrappingOffset pc offset) = immediateTarget pc offset :=
  immediateTarget_even hpc hoffset

theorem quadrant_eq (raw : ℕ) : quadrant raw = raw % 4 := by
  simp [quadrant, field]

theorem decodeRvcDirect_eq {raw pc : ℕ} (hpc : pc % 2 = 0) :
    decodeRvcDirect raw pc =
      if IsCJ raw then some ⟨0, immediateTarget pc (cjOffset raw), 0⟩ else none := by
  have hcj : IsCJ raw ↔ raw % 4 = 1 ∧ field raw 13 3 = 5 := by
    rw [IsCJ, quadrant_eq, compressedFunct3]
  rw [decodeRvcDirect, decodeCjImm_eq, clearBitZero_target hpc (cjOffset_even raw)]
  by_cases hquadrant : raw % 4 = 1
  · by_cases hfunct : field raw 13 3 = 5
    · rw [if_neg (not_not.mpr hquadrant), if_neg (not_not.mpr hfunct), if_pos (hcj.mpr ⟨hquadrant, hfunct⟩)]
    · rw [if_neg (not_not.mpr hquadrant), if_pos hfunct, if_neg (fun h => hfunct (hcj.mp h).2)]
  · rw [if_pos hquadrant, if_neg (fun h => hquadrant (hcj.mp h).1)]

theorem decodeRvcIndirect_eq {raw : ℕ} {t : Site} (ht : t.instr = .compressed raw) :
    decodeRvcIndirect raw = indirectKind looseReturn t := by
  simp only [decodeRvcIndirect, indirectKind, ht, IsCJr, IsCJalr, IsCReturn, quadrant_eq, funct4,
    compressedRs1, compressedRs2]
  by_cases hquadrant : raw % 4 = 2
  · by_cases hregs : field raw 7 5 = 0 ∨ field raw 2 5 ≠ 0
    · have hshape : ¬ (field raw 7 5 ≠ 0 ∧ field raw 2 5 = 0) := by tauto
      simp [hquadrant, hregs, hshape]
    · have hshape : field raw 7 5 ≠ 0 ∧ field raw 2 5 = 0 := by tauto
      by_cases hjr : field raw 12 4 = 8
      · by_cases hret : field raw 7 5 = 1 <;> simp [hquadrant, hshape, hjr, hret]
      · by_cases hjalr : field raw 12 4 = 9
        · simp [hquadrant, hshape, hjalr]
        · simp [hquadrant, hshape, hjr, hjalr]
  · simp [hquadrant]

theorem scanCompressed_eq {base cursor raw : ℕ} (heven : (base + cursor) % 2 = 0) (found : Found)
    (prev next : Option Instr) :
    scanCompressed raw (base + cursor) found = Found.add
      ((edgeAt base (fun _ => 0) ⟨cursor, .compressed raw, prev, next⟩).map Prod.snd)
      (indirectAt base looseReturn ⟨cursor, .compressed raw, prev, next⟩) found := by
  have hkind : decodeRvcIndirect raw =
      indirectKind looseReturn ⟨cursor, .compressed raw, prev, next⟩ := decodeRvcIndirect_eq rfl
  by_cases hcj : IsCJ raw
  · -- the two forms differ in the quadrant
    have hnone : indirectKind looseReturn ⟨cursor, .compressed raw, prev, next⟩ = none := by
      have hquadrant := hcj.1
      simp [indirectKind, IsCJr, IsCJalr, hquadrant]
    rw [scanCompressed, decodeRvcDirect_eq heven, if_pos hcj, indirectAt, hnone, edgeAt]
    simp only [if_pos hcj]
    rfl
  · rw [scanCompressed, decodeRvcDirect_eq heven, if_neg hcj, hkind, indirectAt, edgeAt]
    simp only [if_neg hcj]
    cases indirectKind looseReturn ⟨cursor, .compressed raw, prev, next⟩ <;> rfl

theorem edgeAt_word_none {base offset raw : ℕ} {place : ℕ → ℕ} {prev next : Option Instr}
    (hjal : opcode raw ≠ opJal)
    (hpair : ∀ second, next = some (.word second) → ¬ IsCallPair raw second) :
    edgeAt base place ⟨offset, .word raw, prev, next⟩ = none := by
  simp only [edgeAt, if_neg hjal]
  split
  · rename_i second
    exact if_neg (hpair second rfl)
  · rfl

theorem indirectAt_word_none {base offset raw : ℕ} {isReturn : ℕ → Bool} {prev next : Option Instr}
    (h : ¬ IsJalr raw ∨ EndsPair prev raw ∨ isReturn raw = true) :
    indirectAt base isReturn ⟨offset, .word raw, prev, next⟩ = none := by
  have hnot : ¬ (IsJalr raw ∧ ¬ EndsPair prev raw ∧ isReturn raw = false) := by
    rintro ⟨hjalr, hpair, hreturn⟩
    rcases h with h | h | h
    · exact h hjalr
    · exact hpair h
    · rw [h] at hreturn
      cases hreturn
  simp only [indirectAt, indirectKind, if_neg hnot, Option.map_none]

theorem scanJalr_eq {base cursor raw : ℕ} (hjalr : IsJalr raw) (found : Found)
    (next : Option Instr) :
    scanJalr raw (base + cursor) found =
      Found.add none (indirectAt base looseReturn ⟨cursor, .word raw, none, next⟩) found := by
  by_cases hreturn : rd raw = 0 ∧ rs1 raw = 1
  · have hloose : looseReturn raw = true := by simp [looseReturn, hreturn]
    rw [scanJalr, if_pos hreturn, indirectAt_word_none (Or.inr (Or.inr hloose))]
    rfl
  · have hloose : looseReturn raw = false := by simpa [looseReturn] using hreturn
    have hsite : IsJalr raw ∧ ¬ EndsPair none raw ∧ looseReturn raw = false :=
      ⟨hjalr, by simp [EndsPair], hloose⟩
    rw [scanJalr, if_neg hreturn, indirectAt, indirectKind]
    simp only [if_pos hsite]
    split <;> rfl

/-- A word that forms no pair with the word behind it. -/
theorem scanWord_eq {base cursor raw : ℕ} (heven : (base + cursor) % 2 = 0) (found : Found)
    {next : Option Instr} (hpair : ∀ second, next = some (.word second) → ¬ IsCallPair raw second) :
    scanWord raw cursor (base + cursor) found = Found.add
      ((edgeAt base (fun _ => 0) ⟨cursor, .word raw, none, next⟩).map Prod.snd)
      (indirectAt base looseReturn ⟨cursor, .word raw, none, next⟩) found := by
  rw [scanWord]
  by_cases hjalr : IsJalr raw
  · obtain ⟨hop, hfunct⟩ := id hjalr
    rw [opJalr] at hop
    have hjal : opcode raw ≠ opJal := by
      rw [hop]
      decide
    rw [if_neg (by omega), if_pos ⟨hop, hfunct⟩, edgeAt_word_none hjal hpair, scanJalr_eq hjalr]
    rfl
  · have hshape : ¬ (opcode raw = 0x67 ∧ funct3 raw = 0) := hjalr
    rw [indirectAt_word_none (Or.inl hjalr), if_neg hshape]
    by_cases hjal : opcode raw = opJal
    · have hop : opcode raw = 0x6F := hjal
      rw [if_neg (by omega), if_pos hop, decodeJalImm_eq,
        clearBitZero_target heven (jalOffset_even raw), edgeAt]
      simp only [if_pos hjal]
      rfl
    · have hop : opcode raw ≠ 0x6F := hjal
      rw [edgeAt_word_none hjal hpair, if_neg hop, ite_self]
      rfl

theorem pairEdge_eq (base cursor raw second : ℕ) (prev : Option Instr)
    (hpair : IsCallPair raw second) :
    (edgeAt base (fun _ => 0) ⟨cursor, .word raw, prev, some (.word second)⟩).map Prod.snd =
      some (pairEdge raw second cursor (base + cursor)) := by
  have hjal : opcode raw ≠ opJal := by
    rw [hpair.1]
    decide
  simp only [edgeAt, if_neg hjal, if_pos hpair]
  rw [← pairEdge_target raw second cursor]
  rfl

theorem not_endsPair_compressed (raw second : ℕ) : ¬ EndsPair (some (.compressed raw)) second := by
  simp [EndsPair]

theorem endsPair_word {raw second : ℕ} : EndsPair (some (.word raw)) second ↔ IsCallPair raw second := by
  simp [EndsPair]

/-- A word in front of a text with which it forms no pair. -/
theorem collect_word {base cursor raw : ℕ} {bytes : List UInt8} (heven : (base + cursor) % 2 = 0)
    (hpair : ∀ c0 c1 c2 c3 rest, bytes = c0 :: c1 :: c2 :: c3 :: rest →
      ¬ IsCallPair raw (le32 c0 c1 c2 c3)) :
    collect base none ((cursor, .word raw) :: listing (cursor + 4) bytes) =
      scanWord raw cursor (base + cursor) (collect base none (listing (cursor + 4) bytes)) := by
  have hhead : ∀ o second, (listing (cursor + 4) bytes).head? = some (o, .word second) →
      ¬ IsCallPair raw second := by
    intro o second h
    obtain ⟨c0, c1, c2, c3, rest, heq, rfl⟩ := listing_head_word h
    exact hpair c0 c1 c2 c3 rest heq
  rw [collect_step, scanWord_eq heven]
  · intro second h
    obtain ⟨⟨o, i⟩, ho, hi⟩ := Option.map_eq_some_iff.mp h
    exact hhead o second (by rw [ho, ← hi])
  · intro o second h
    rw [endsPair_word]
    exact hhead o second h

theorem scanFrom_eq {base cursor : ℕ} {bytes : List UInt8} (heven : (base + cursor) % 2 = 0)
    (hfits : base + cursor + bytes.length ≤ 2 ^ 64) :
    scanFrom base cursor bytes = collect base none (listing cursor bytes) := by
  fun_induction scanFrom base cursor bytes with
  | case1 cursor b0 b1 rest pc hshort ih =>
    simp only [List.length_cons] at hfits
    have hpc : pc = base + cursor := Nat.mod_eq_of_lt (by omega)
    have hforget : ∀ o raw, (listing (cursor + 2) rest).head? = some (o, .word raw) →
        ¬ EndsPair (some (.compressed (le16 b0 b1))) raw :=
      fun _ raw _ => not_endsPair_compressed _ raw
    rw [listing_compressed hshort, collect_step hforget, hpc, ih (by omega) (by omega)]
    exact scanCompressed_eq heven _ none _
  | case2 cursor b0 b1 pc hlong b2 b3 raw c0 c1 c2 c3 rest next hpair ih =>
    simp only [List.length_cons] at hfits
    have hpc : pc = base + cursor := Nat.mod_eq_of_lt (by omega)
    have hcall : IsCallPair raw next := resolvesPair_iff.mp hpair
    have hnext : ¬ c0.toNat % 4 ≠ 3 := by
      have hop := hcall.2.1.1
      simp only [opcode, field, opJalr, next, le32, le16] at hop
      omega
    have hsecond : opcode next ≠ opJal := by
      rw [hcall.2.1.1]
      decide
    have hnot : ∀ second, ¬ IsCallPair next second := by
      intro second h
      have hop := hcall.2.1.1
      rw [h.1] at hop
      cases hop
    have hauipc : ¬ IsJalr raw := by
      intro h
      have hop := hcall.1
      rw [h.1] at hop
      cases hop
    have hforget : ∀ o second, (listing (cursor + 8) rest).head? = some (o, .word second) →
        ¬ EndsPair (some (.word next)) second := by
      intro o second _ hends
      exact hnot second (endsPair_word.mp hends)
    rw [listing_word hlong, listing_word hnext, collect_cons, collect_step hforget, List.head?_cons,
      Option.map_some, pairEdge_eq base cursor raw next none hcall,
      indirectAt_word_none (Or.inl hauipc), edgeAt_word_none hsecond (fun second _ => hnot second),
      indirectAt_word_none (Or.inr (Or.inl (endsPair_word.mpr hcall))), hpc,
      ih (by omega) (by omega)]
    rfl
  | case3 cursor b0 b1 pc hlong b2 b3 raw c0 c1 c2 c3 rest next hpair ih =>
    simp only [List.length_cons] at hfits ih
    have hpc : pc = base + cursor := Nat.mod_eq_of_lt (by omega)
    rw [listing_word hlong, hpc, ih (by omega) (by omega)]
    refine (collect_word heven ?_).symm
    intro d0 d1 d2 d3 rest' heq
    cases heq
    exact fun h => hpair (resolvesPair_iff.mpr h)
  | case4 cursor b0 b1 pc hlong b2 b3 raw rest hshort ih =>
    simp only [List.length_cons] at hfits
    have hpc : pc = base + cursor := Nat.mod_eq_of_lt (by omega)
    rw [listing_word hlong, hpc, ih (by omega) (by omega)]
    refine (collect_word heven ?_).symm
    intro d0 d1 d2 d3 rest' heq
    exact absurd heq (hshort d0 d1 d2 d3 rest')
  | case5 cursor b0 b1 rest hlong hshort =>
    have hnil : listing cursor (b0 :: b1 :: rest) = [] := by
      rw [listing.eq_def]
      simp only [if_neg hlong]
    rw [hnil]
    rfl
  | case6 bytes cursor hshort =>
    rw [listing_short hshort]
    rfl

/-! ## What should be reported -/

/-- The direct jumps, each with its own offset. -/
def directEdges (base : ℕ) (bytes : List UInt8) : List DirectEdge :=
  ((textSites bytes).filterMap (edgeAt base id)).map Prod.snd

/-- The jumps through registers but for pairs and plain returns. -/
def indirectCalls (base : ℕ) (bytes : List UInt8) : List IndirectCall :=
  (textSites bytes).filterMap (indirectAt base fun raw => decide (IsReturn raw))

section

variable {α β : Type*} {f g : α → Option β}

theorem length_filterMap_le {l : List α} (h : ∀ a ∈ l, (f a).isSome = true → (g a).isSome = true) :
    (l.filterMap f).length ≤ (l.filterMap g).length := by
  induction l with
  | nil => exact le_rfl
  | cons a l ih =>
    have hrest := ih fun b hb => h b (List.mem_cons_of_mem a hb)
    have hfirst := h a List.mem_cons_self
    rw [List.filterMap_cons, List.filterMap_cons]
    cases hf : f a with
    | none => cases g a <;> simp <;> omega
    | some b =>
      rw [hf] at hfirst
      obtain ⟨c, hc⟩ := Option.isSome_iff_exists.mp (hfirst rfl)
      simp [hc, hrest]

/-- A selection that takes no more than another takes the same when the results agree. -/
theorem filterMap_eq_iff {l : List α} (h : ∀ a ∈ l, (f a).isSome = true → (g a).isSome = true) :
    l.filterMap f = l.filterMap g ↔ ∀ a ∈ l, f a = g a := by
  constructor
  · intro heq
    induction l with
    | nil => simp
    | cons a l ih =>
      have hrest : ∀ b ∈ l, (f b).isSome = true → (g b).isSome = true :=
        fun b hb => h b (List.mem_cons_of_mem a hb)
      have hfirst := h a List.mem_cons_self
      have hle := length_filterMap_le hrest
      rw [List.filterMap_cons, List.filterMap_cons] at heq
      have hboth : f a = g a ∧ l.filterMap f = l.filterMap g := by
        cases hf : f a with
        | none =>
          cases hg : g a with
          | none => simpa [hf, hg] using heq
          | some c =>
            rw [hf, hg] at heq
            have hlength := congrArg List.length heq
            simp only [List.length_cons] at hlength
            omega
        | some b =>
          rw [hf] at hfirst
          obtain ⟨c, hc⟩ := Option.isSome_iff_exists.mp (hfirst rfl)
          rw [hf, hc] at heq
          obtain ⟨rfl, htail⟩ := List.cons.inj heq
          exact ⟨hc.symm, htail⟩
      intro b hb
      rcases List.mem_cons.mp hb with rfl | hb
      · exact hboth.1
      · exact ih hrest hboth.2 b hb
  · intro hall
    exact List.filterMap_congr hall

end

/-- A `c.j` that is not at the start of the text. -/
def LateCJ (t : Site) : Prop :=
  match t.instr with
  | .compressed raw => IsCJ raw ∧ t.offset ≠ 0
  | .word _ => False

/-- `jalr x0, x1, imm` with an immediate that is not zero. -/
def IsOffsetReturn (raw : ℕ) : Prop :=
  IsJalr raw ∧ rd raw = 0 ∧ rs1 raw = 1 ∧ funct12 raw ≠ 0

/-- Such a jump on its own. -/
def LoneOffsetReturn (t : Site) : Prop :=
  match t.instr with
  | .compressed _ => False
  | .word raw => IsOffsetReturn raw ∧ ¬ EndsPair t.prev raw

instance (raw : ℕ) : Decidable (IsOffsetReturn raw) := inferInstanceAs (Decidable (_ ∧ _))

instance : DecidablePred LateCJ
  | ⟨_, .compressed _, _, _⟩ => inferInstanceAs (Decidable (_ ∧ _))
  | ⟨_, .word _, _, _⟩ => inferInstanceAs (Decidable False)

instance : DecidablePred LoneOffsetReturn
  | ⟨_, .compressed _, _, _⟩ => inferInstanceAs (Decidable False)
  | ⟨_, .word _, _, _⟩ => inferInstanceAs (Decidable (_ ∧ _))

/-- The placeholder is right for a `c.j` at the start of the text only. -/
theorem edgeAt_agrees {base : ℕ} (t : Site) :
    (edgeAt base (fun _ => 0) t).map Prod.snd = (edgeAt base id t).map Prod.snd ↔ ¬ LateCJ t := by
  cases hinstr : t.instr with
  | word raw => simp [edgeAt, LateCJ, hinstr]
  | compressed raw =>
    by_cases hcj : IsCJ raw
    · simp [edgeAt, LateCJ, hinstr, hcj, eq_comm]
    · simp [edgeAt, LateCJ, hinstr, hcj]

theorem edgeAt_isSome {base : ℕ} (place place' : ℕ → ℕ) (t : Site) :
    (edgeAt base place t).isSome = (edgeAt base place' t).isSome := by
  cases hinstr : t.instr with
  | word raw => simp [edgeAt, hinstr]
  | compressed raw =>
    by_cases hcj : IsCJ raw
    · simp [edgeAt, hinstr, hcj]
    · simp [edgeAt, hinstr, hcj]

theorem looseReturn_iff {raw : ℕ} (h : IsJalr raw) :
    looseReturn raw = true ↔ IsReturn raw ∨ IsOffsetReturn raw := by
  simp only [looseReturn, Bool.and_eq_true, beq_iff_eq, IsReturn, IsOffsetReturn]
  tauto

theorem indirectAt_agrees {base : ℕ} (t : Site) :
    indirectAt base looseReturn t = indirectAt base (fun raw => decide (IsReturn raw)) t ↔
      ¬ LoneOffsetReturn t := by
  cases hinstr : t.instr with
  | compressed raw => simp [indirectAt, indirectKind, LoneOffsetReturn, hinstr]
  | word raw =>
    by_cases hjalr : IsJalr raw
    · by_cases hpair : EndsPair t.prev raw
      · simp [indirectAt, indirectKind, LoneOffsetReturn, hinstr, hpair]
      · have hloose := looseReturn_iff hjalr
        by_cases hreturn : IsReturn raw
        · have hoffset : ¬ IsOffsetReturn raw := fun h => h.2.2.2 hreturn.2.2.2
          simp [indirectAt, indirectKind, LoneOffsetReturn, hinstr, hloose.mpr (Or.inl hreturn), hreturn,
            hoffset]
        · by_cases hoffset : IsOffsetReturn raw
          · simp [indirectAt, indirectKind, LoneOffsetReturn, hinstr, hjalr, hpair, hreturn, hoffset,
              hloose.mpr (Or.inr hoffset)]
          · have hnot : looseReturn raw = false := by
              rw [Bool.eq_false_iff, ne_eq, hloose]
              tauto
            simp [indirectAt, indirectKind, LoneOffsetReturn, hinstr, hnot, hreturn, hoffset]
    · have hoffset : ¬ IsOffsetReturn raw := fun h => hjalr h.1
      simp [indirectAt, indirectKind, LoneOffsetReturn, hinstr, hjalr, hoffset]

theorem indirectAt_isSome {base : ℕ} (t : Site) (h : (indirectAt base looseReturn t).isSome = true) :
    (indirectAt base (fun raw => decide (IsReturn raw)) t).isSome = true := by
  cases hinstr : t.instr with
  | compressed raw => simpa [indirectAt, indirectKind, hinstr] using h
  | word raw =>
    simp only [indirectAt, indirectKind, hinstr, Option.isSome_map] at h ⊢
    split at h
    · rename_i hfound
      obtain ⟨hjalr, hpair, hloose⟩ := hfound
      have hreturn : ¬ IsReturn raw := by
        intro hr
        rw [(looseReturn_iff hjalr).mpr (Or.inl hr)] at hloose
        cases hloose
      rw [if_pos ⟨hjalr, hpair, decide_eq_false hreturn⟩]
      rfl
    · cases h

/-- The scanner reports every transfer where it is when the text has no `c.j` behind its first
instruction and no lone `jalr x0, x1` with an offset. -/
theorem transfers_exact_iff (base : ℕ) (bytes : List UInt8) (heven : base % 2 = 0)
    (hfits : base + bytes.length ≤ 2 ^ 64) :
    scanControlFlow base bytes = (directEdges base bytes, indirectCalls base bytes) ↔
      (∀ t ∈ textSites bytes, ¬ LateCJ t) ∧ ∀ t ∈ textSites bytes, ¬ LoneOffsetReturn t := by
  have hscan : scanControlFlow base bytes = collect base none (listing 0 bytes) :=
    scanFrom_eq heven hfits
  rw [hscan, collect, Prod.mk.injEq]
  have hedges : ((textSites bytes).filterMap (edgeAt base fun _ => 0)).map Prod.snd =
      directEdges base bytes ↔ ∀ t ∈ textSites bytes, ¬ LateCJ t := by
    rw [directEdges, List.map_filterMap, List.map_filterMap, filterMap_eq_iff]
    · exact forall₂_congr fun t _ => edgeAt_agrees t
    · intro t _ h
      rw [Option.isSome_map] at h ⊢
      rw [← h]
      exact edgeAt_isSome _ _ t
  have hcalls : (textSites bytes).filterMap (indirectAt base looseReturn) =
      indirectCalls base bytes ↔ ∀ t ∈ textSites bytes, ¬ LoneOffsetReturn t := by
    rw [indirectCalls, filterMap_eq_iff fun t _ h => indirectAt_isSome t h]
    exact forall₂_congr fun t _ => indirectAt_agrees t
  exact and_congr hedges hcalls

/-- A `jal`, an indirect call and a return. -/
def callThenReturn : List UInt8 :=
  [0xEF, 0x00, 0x80, 0x00, 0xE7, 0x00, 0x05, 0x00, 0x67, 0x80, 0x00, 0x00]

theorem callThenReturn_exact : scanControlFlow 0x80600000 callThenReturn =
    (directEdges 0x80600000 callThenReturn, indirectCalls 0x80600000 callThenReturn) :=
  (transfers_exact_iff 0x80600000 callThenReturn (by decide) (by decide)).mpr
    ⟨by decide +kernel, by decide +kernel⟩

/-- `c.nop` and a `c.j` to itself; then `jalr x0, 4(x1)`. -/
def lateJump : List UInt8 := [0x01, 0x00, 0x01, 0xA0, 0x67, 0x80, 0x40, 0x00]

theorem late_jump_misplaced :
    directEdges 0x80600000 lateJump = [⟨2, 0x80600002, 0⟩] ∧
    indirectCalls 0x80600000 lateJump = [⟨0x80600004, .jr32Tail 1⟩] ∧
    scanControlFlow 0x80600000 lateJump = ([⟨0, 0x80600002, 0⟩], []) := by
  decide +kernel

end SntmTransferScan
