import Sipahi.RiscvEncoding

/-!
# Listings of RV64 texts

The instructions of a text with their offsets and their neighbours, and the jumps through
registers.
-/
namespace RiscvListing

open RiscvEncoding

/-- The instructions of a text with their offsets; a cut-off tail is dropped. -/
def listing (offset : ℕ) : List UInt8 → List (ℕ × Instr)
  | b0 :: b1 :: rest =>
    if b0.toNat % 4 ≠ 3 then (offset, .compressed (le16 b0 b1)) :: listing (offset + 2) rest
    else match rest with
      | b2 :: b3 :: rest => (offset, .word (le32 b0 b1 b2 b3)) :: listing (offset + 4) rest
      | _ => []
  | _ => []

/-- An instruction between the one in front of it and the one behind it. -/
structure Site where
  offset : ℕ
  instr : Instr
  prev : Option Instr
  next : Option Instr
  deriving DecidableEq, Repr

def sites : Option Instr → List (ℕ × Instr) → List Site
  | _, [] => []
  | prev, (offset, i) :: rest => ⟨offset, i, prev, rest.head?.map Prod.snd⟩ :: sites (some i) rest

theorem sites_map (prev : Option Instr) (l : List (ℕ × Instr)) :
    ((sites prev l).map fun t => (t.offset, t.instr)) = l := by
  induction l generalizing prev with
  | nil => rfl
  | cons p rest ih => rw [sites, List.map_cons, ih]

/-- Only the first site sees what stands in front of the list. -/
theorem filterMap_sites_prev {β : Type*} {f : Site → Option β} {prev : Option Instr}
    {l : List (ℕ × Instr)}
    (h : ∀ o i next, l.head? = some (o, i) → f ⟨o, i, prev, next⟩ = f ⟨o, i, none, next⟩) :
    (sites prev l).filterMap f = (sites none l).filterMap f := by
  cases l with
  | nil => rfl
  | cons p rest => rw [sites, sites, List.filterMap_cons, List.filterMap_cons, h p.1 p.2 _ rfl]

/-! ## Jumps through registers -/

def funct4 (raw : ℕ) : ℕ := field raw 12 4

/-- The register fields of a compressed instruction of this shape. -/
def compressedRs1 (raw : ℕ) : ℕ := field raw 7 5
def compressedRs2 (raw : ℕ) : ℕ := field raw 2 5

def IsCJr (raw : ℕ) : Prop :=
  quadrant raw = 2 ∧ funct4 raw = 8 ∧ compressedRs1 raw ≠ 0 ∧ compressedRs2 raw = 0

def IsCJalr (raw : ℕ) : Prop :=
  quadrant raw = 2 ∧ funct4 raw = 9 ∧ compressedRs1 raw ≠ 0 ∧ compressedRs2 raw = 0

/-- `jalr x0, x1, 0`. -/
def IsReturn (raw : ℕ) : Prop := IsJalr raw ∧ rd raw = 0 ∧ rs1 raw = 1 ∧ funct12 raw = 0

/-- `c.jr x1`. -/
def IsCReturn (raw : ℕ) : Prop := IsCJr raw ∧ compressedRs1 raw = 1

instance (raw : ℕ) : Decidable (IsCJr raw) := inferInstanceAs (Decidable (_ ∧ _))
instance (raw : ℕ) : Decidable (IsCJalr raw) := inferInstanceAs (Decidable (_ ∧ _))
instance (raw : ℕ) : Decidable (IsReturn raw) := inferInstanceAs (Decidable (_ ∧ _))
instance (raw : ℕ) : Decidable (IsCReturn raw) := inferInstanceAs (Decidable (_ ∧ _))

/-- The word is the second half of a pair with the instruction in front of it. -/
def EndsPair (prev : Option Instr) (raw : ℕ) : Prop :=
  ∃ first, prev = some (.word first) ∧ IsCallPair first raw

instance (prev : Option Instr) (raw : ℕ) : Decidable (EndsPair prev raw) :=
  match prev with
  | some (.word first) => decidable_of_iff (IsCallPair first raw) (by simp [EndsPair])
  | some (.compressed _) => isFalse (by simp [EndsPair])
  | none => isFalse (by simp [EndsPair])

/-- Where a jump by an immediate goes. -/
def immediateTarget (pc : ℕ) (offset : ℤ) : ℕ := ((pc + offset) % 2 ^ 64).toNat

/-- The target of an unconditional jump by an immediate, in either length. -/
def directTarget (pc : ℕ) : Instr → Option ℕ
  | .compressed raw => if IsCJ raw then some (immediateTarget pc (cjOffset raw)) else none
  | .word raw => if opcode raw = opJal then some (immediateTarget pc (jalOffset raw)) else none

theorem immediateTarget_even {pc : ℕ} {offset : ℤ} (hpc : pc % 2 = 0) (hoffset : offset % 2 = 0) :
    jumpTarget pc offset = immediateTarget pc offset := by
  rw [jumpTarget, immediateTarget]
  omega

theorem signed_even {width value : ℕ} (hwidth : 0 < width) (hvalue : value % 2 = 0) :
    signed width value % 2 = 0 := by
  obtain ⟨w, rfl⟩ := Nat.exists_eq_add_of_lt hwidth
  have hpow : (2 : ℤ) ^ (0 + w + 1) % 2 = 0 := by
    rw [pow_succ]
    omega
  rw [signed]
  split <;> omega

theorem jalOffset_even (raw : ℕ) : jalOffset raw % 2 = 0 :=
  signed_even (by omega) (by omega)

theorem cjOffset_even (raw : ℕ) : cjOffset raw % 2 = 0 :=
  signed_even (by omega) (by omega)

/-! ## The front of a listing -/

section

variable {offset : ℕ} {b0 b1 b2 b3 : UInt8} {rest bytes : List UInt8}

theorem listing_compressed (h : b0.toNat % 4 ≠ 3) :
    listing offset (b0 :: b1 :: rest) =
      (offset, .compressed (le16 b0 b1)) :: listing (offset + 2) rest := by
  rw [listing.eq_def]
  simp only [if_pos h]

theorem listing_word (h : ¬ b0.toNat % 4 ≠ 3) :
    listing offset (b0 :: b1 :: b2 :: b3 :: rest) =
      (offset, .word (le32 b0 b1 b2 b3)) :: listing (offset + 4) rest := by
  rw [listing.eq_def]
  simp only [if_neg h]

theorem listing_short (h : ∀ b0 b1 rest, bytes ≠ b0 :: b1 :: rest) : listing offset bytes = [] := by
  rw [listing.eq_def]
  split
  · rename_i b0 b1 rest
    exact absurd rfl (h b0 b1 rest)
  · rfl

/-- A word at the front has its four bytes at the front. -/
theorem listing_head_word {o raw : ℕ} (h : (listing offset bytes).head? = some (o, .word raw)) :
    ∃ b0 b1 b2 b3 rest, bytes = b0 :: b1 :: b2 :: b3 :: rest ∧ raw = le32 b0 b1 b2 b3 := by
  rw [listing.eq_def] at h
  split at h
  · rename_i b0 b1 rest
    split at h
    · cases h
    · split at h
      · cases h
        exact ⟨_, _, _, _, _, rfl, rfl⟩
      · cases h
  · cases h

theorem listing_offset_lt {o : ℕ} {i : Instr} (h : (o, i) ∈ listing offset bytes) :
    o < offset + bytes.length := by
  fun_induction listing offset bytes with
  | case1 offset b0 b1 rest hshort ih =>
    simp only [List.length_cons]
    rcases List.mem_cons.mp h with h | h
    · cases h
      omega
    · have hrest := ih h
      omega
  | case2 offset b0 b1 hlong b2 b3 rest ih =>
    simp only [List.length_cons]
    rcases List.mem_cons.mp h with h | h
    · cases h
      omega
    · have hrest := ih h
      omega
  | case3 | case4 => cases h

/-- The sweep is the listing with addresses in place of offsets. -/
theorem sweep_eq_listing (base offset : ℕ) (bytes : List UInt8) :
    sweep base offset bytes =
      (listing offset bytes).map fun p => ((base + p.1) % 2 ^ 64, p.2) := by
  fun_induction listing offset bytes with
  | case1 offset b0 b1 rest hshort ih => rw [sweep_compressed hshort, ih, List.map_cons]
  | case2 offset b0 b1 hlong b2 b3 rest ih => rw [sweep_word hlong, ih, List.map_cons]
  | case3 offset b0 b1 rest hlong hcut =>
    rw [sweep_cut hlong hcut]
    rfl
  | case4 bytes offset hshort =>
    rw [sweep_short hshort]
    rfl

end

end RiscvListing
