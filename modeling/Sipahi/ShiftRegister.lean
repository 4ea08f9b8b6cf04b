import Mathlib.Data.List.Basic
import Mathlib.Data.Bool.Basic
import Mathlib.Logic.Function.Iterate

/-!
# Reflected cyclic redundancy registers

A register of any width that takes message bits least significant first. When the feedback word
has its top bit, a step loses nothing, and as many bits as the register is wide are stored in it
without loss: two messages that differ only inside such a stretch leave different registers.
-/
namespace ShiftRegister

variable {w : ℕ}

/-- Shift right by one; a one that falls out is fed back. -/
def step (poly c : BitVec w) : BitVec w :=
  if c.getLsbD 0 then (c >>> 1) ^^^ poly else c >>> 1

def bit (b : Bool) : BitVec w := (BitVec.ofBool b).setWidth w

def feed (poly c : BitVec w) (b : Bool) : BitVec w := step poly (c ^^^ bit b)

def feedAll (poly c : BitVec w) (bits : List Bool) : BitVec w := bits.foldl (feed poly) c

/-- The word that holds these bits, the first one lowest. -/
def word : List Bool → BitVec w
  | [] => 0
  | b :: bits => (word bits <<< 1) ^^^ bit b

theorem feedAll_append (poly c : BitVec w) (a b : List Bool) :
    feedAll poly c (a ++ b) = feedAll poly (feedAll poly c a) b :=
  List.foldl_append

theorem step_xor (poly a b : BitVec w) : step poly (a ^^^ b) = step poly a ^^^ step poly b := by
  simp only [step]
  rw [BitVec.getLsbD_xor, BitVec.ushiftRight_xor_distrib]
  cases ha : a.getLsbD 0 <;> cases hb : b.getLsbD 0
  · simp
  · simp [BitVec.xor_assoc]
  · simp only [Bool.xor_false, if_true, Bool.false_eq_true, if_false]
    ac_rfl
  · have h : poly ^^^ (b >>> 1 ^^^ poly) = b >>> 1 := by
      rw [BitVec.xor_comm (b >>> 1), ← BitVec.xor_assoc, BitVec.xor_self, BitVec.zero_xor]
    simp [BitVec.xor_assoc, h]

theorem step_eq_zero {poly c : BitVec w} (hpoly : poly.getLsbD (w - 1) = true)
    (h : step poly c = 0) : c = 0 := by
  have hw : 0 < w := by
    by_contra hw
    simp [BitVec.getLsbD_of_ge poly (w - 1) (by omega)] at hpoly
  rw [step] at h
  split at h
  · -- the fed back word sets the top bit, which the shift has cleared
    have htop := congrArg (fun x : BitVec w => x.getLsbD (w - 1)) h
    simp only [BitVec.getLsbD_xor, BitVec.getLsbD_ushiftRight, hpoly] at htop
    rw [BitVec.getLsbD_of_ge c (1 + (w - 1)) (by omega)] at htop
    simp at htop
  · rename_i hlow
    apply BitVec.eq_of_getLsbD_eq
    intro i hi
    cases i with
    | zero => simpa using hlow
    | succ i =>
      have hbit := congrArg (fun x : BitVec w => x.getLsbD i) h
      simpa [BitVec.getLsbD_ushiftRight, Nat.add_comm] using hbit

theorem step_injective {poly : BitVec w} (hpoly : poly.getLsbD (w - 1) = true) :
    Function.Injective (step poly) := by
  intro a b h
  apply BitVec.xor_eq_zero_iff.mp
  apply step_eq_zero hpoly
  rw [step_xor, h, BitVec.xor_self]
  rfl

theorem feed_injective {poly : BitVec w} (hpoly : poly.getLsbD (w - 1) = true) (b : Bool) :
    Function.Injective fun c => feed poly c b := by
  intro x y h
  exact (BitVec.xor_left_inj (bit b)).mp (step_injective hpoly h)

theorem feedAll_injective {poly : BitVec w} (hpoly : poly.getLsbD (w - 1) = true)
    (bits : List Bool) : Function.Injective fun c => feedAll poly c bits := by
  induction bits with
  | nil => exact fun _ _ h => h
  | cons b bits ih => exact ih.comp (feed_injective hpoly b)

/-! ## A word's worth of bits -/

theorem bit_getLsbD (b : Bool) (i : ℕ) (hi : i < w) :
    (bit b : BitVec w).getLsbD i = (decide (i = 0) && b) := by
  cases b <;> simp [bit, hi]

theorem word_getLsbD (bits : List Bool) (i : ℕ) (hi : i < w) :
    (word bits : BitVec w).getLsbD i = (bits[i]?).getD false := by
  induction bits generalizing i with
  | nil => simp [word]
  | cons b bits ih =>
    rw [word, BitVec.getLsbD_xor, BitVec.getLsbD_shiftLeft, bit_getLsbD b i hi]
    cases i with
    | zero => simp
    | succ i => simp [hi, ih i (by omega)]

theorem word_injective {a b : List Bool} (hlen : a.length = b.length) (ha : a.length ≤ w)
    (h : (word a : BitVec w) = word b) : a = b := by
  apply List.ext_getElem hlen
  intro i hi hj
  have hbit := congrArg (fun x : BitVec w => x.getLsbD i) h
  simpa [word_getLsbD _ i (by omega : i < w), hi, hj] using hbit

theorem word_ofFn {n : ℕ} (x : BitVec n) :
    (word (List.ofFn fun i : Fin n => x.getLsbD i) : BitVec w) = x.setWidth w := by
  apply BitVec.eq_of_getLsbD_eq
  intro i hi
  rw [word_getLsbD _ i hi, BitVec.getLsbD_setWidth]
  by_cases hn : i < n
  · simp [hi, hn]
  · simp [hn, BitVec.getLsbD_of_ge x i (by omega)]

/-- A step undoes the shift of a word whose top bit is clear. -/
theorem step_shiftLeft (poly : BitVec w) {x : BitVec w} (hx : x.getLsbD (w - 1) = false) :
    step poly (x <<< 1) = x := by
  have hlow : (x <<< 1).getLsbD 0 = false := by simp [BitVec.getLsbD_shiftLeft]
  rw [step, if_neg (by simp [hlow])]
  apply BitVec.eq_of_getLsbD_eq
  intro i hi
  rw [BitVec.getLsbD_ushiftRight, BitVec.getLsbD_shiftLeft]
  by_cases htop : 1 + i < w
  · simp [htop]
  · obtain rfl : i = w - 1 := by omega
    simp [htop, hx]

/-- Bits fed one by one act as their word fed at once. -/
theorem feedAll_eq_word (poly c : BitVec w) {bits : List Bool} (hlen : bits.length ≤ w) :
    feedAll poly c bits = (step poly)^[bits.length] (c ^^^ word bits) := by
  induction bits generalizing c with
  | nil => simp [feedAll, word]
  | cons b bits ih =>
    have hle : bits.length < w := hlen
    have htop : (word bits : BitVec w).getLsbD (w - 1) = false := by
      rw [word_getLsbD _ _ (by omega), List.getElem?_eq_none (by omega)]
      rfl
    have hstep : feed poly c b ^^^ word bits = step poly (c ^^^ word (b :: bits)) := by
      rw [feed, word, BitVec.xor_comm (word bits <<< 1), ← BitVec.xor_assoc, step_xor poly (c ^^^ _),
        step_shiftLeft poly htop]
    calc feedAll poly c (b :: bits) = feedAll poly (feed poly c b) bits := rfl
      _ = (step poly)^[bits.length] (feed poly c b ^^^ word bits) := ih _ (Nat.le_of_lt hle)
      _ = (step poly)^[bits.length] (step poly (c ^^^ word (b :: bits))) := by rw [hstep]
      _ = (step poly)^[(b :: bits).length] (c ^^^ word (b :: bits)) := rfl

/-! ## Burst errors -/

theorem stretch_detected {poly : BitVec w} (hpoly : poly.getLsbD (w - 1) = true) (c : BitVec w)
    (before : List Bool) {a b : List Bool} (after : List Bool) (hlen : a.length = b.length)
    (ha : a.length ≤ w) (hne : a ≠ b) :
    feedAll poly c (before ++ a ++ after) ≠ feedAll poly c (before ++ b ++ after) := by
  intro h
  simp only [feedAll_append] at h
  have hs := feedAll_injective hpoly after h
  have hb : b.length ≤ w := hlen ▸ ha
  rw [feedAll_eq_word _ (feedAll poly c before) ha, feedAll_eq_word _ (feedAll poly c before) hb,
    hlen] at hs
  have hw := (step_injective hpoly).iterate b.length hs
  apply hne
  exact word_injective hlen ha ((BitVec.xor_right_inj _).mp hw)

/-- Two messages of one length that differ, and only inside `w` consecutive positions, leave
different registers. -/
theorem burst_detected {poly : BitVec w} (hpoly : poly.getLsbD (w - 1) = true) (c : BitVec w)
    {xs ys : List Bool} (hlen : xs.length = ys.length) (start : ℕ)
    (hburst : ∀ i, xs[i]? ≠ ys[i]? → start ≤ i ∧ i < start + w) (hne : xs ≠ ys) :
    feedAll poly c xs ≠ feedAll poly c ys := by
  have hagree : ∀ i, ¬ (start ≤ i ∧ i < start + w) → xs[i]? = ys[i]? := by
    intro i hi
    by_contra h
    exact hi (hburst i h)
  have hbefore : xs.take start = ys.take start := by
    apply List.ext_getElem?
    intro i
    by_cases hi : i < start
    · rw [List.getElem?_take_of_lt hi, List.getElem?_take_of_lt hi]
      exact hagree i (by omega)
    · rw [List.getElem?_eq_none (by simp; omega), List.getElem?_eq_none (by simp; omega)]
  have hafter : xs.drop (start + w) = ys.drop (start + w) := by
    apply List.ext_getElem?
    intro i
    simpa [List.getElem?_drop] using hagree (start + w + i) (by omega)
  have split : ∀ l : List Bool,
      l.take start ++ (l.drop start).take w ++ l.drop (start + w) = l := by
    intro l
    rw [List.append_assoc, ← List.drop_drop, List.take_append_drop, List.take_append_drop]
  rw [← split xs, ← split ys, hbefore, hafter]
  apply stretch_detected hpoly
  · simp [hlen]
  · rw [List.length_take]
    omega
  · intro h
    apply hne
    rw [← split xs, ← split ys, hbefore, hafter, h]

/-- A register followed by its own complement always ends in the same residue, and nothing else
does. -/
theorem residue_iff {poly : BitVec w} (hpoly : poly.getLsbD (w - 1) = true) (c : BitVec w)
    {bits : List Bool} (hlen : bits.length = w) :
    feedAll poly c bits = (step poly)^[w] (BitVec.allOnes w) ↔ word bits = ~~~c := by
  have hones : BitVec.allOnes w = c ^^^ ~~~c := by
    rw [← BitVec.xor_allOnes, ← BitVec.xor_assoc, BitVec.xor_self, BitVec.zero_xor]
  rw [feedAll_eq_word _ _ (Nat.le_of_eq hlen), hlen, ((step_injective hpoly).iterate w).eq_iff, hones,
    BitVec.xor_right_inj]

end ShiftRegister
