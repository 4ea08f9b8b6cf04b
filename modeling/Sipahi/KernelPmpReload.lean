import Sipahi.KernelPmp
import Mathlib.Data.List.FinRange
import Mathlib.Data.Nat.Bitwise

/-!
# Reloading the dynamic PMP entries

`reload_pmp_profile` register by register, and what the shadow check sees after any sequence of
switches between legacy and native tasks. The PMP registers are taken to read back what was
written.
-/
namespace KernelPmpReload

open KernelTypes KernelPmp

/-- A `PmpProfile` as it lies in memory: `regionCount` may be any byte. -/
structure ProfileImage where
  regionCount : ℕ
  regions : Fin 6 → Region

def ProfileImage.activeRegions (p : ProfileImage) : List Region :=
  (List.ofFn p.regions).take (min p.regionCount 6)

def ProfileImage.profile (p : ProfileImage) : PmpProfile where
  activeRegions := p.activeRegions
  length_le := by
    simp only [ProfileImage.activeRegions, List.length_take, List.length_ofFn]
    omega

/-- The loop variables of `reload_pmp_profile` and the registers it writes. -/
@[ext]
structure ReloadState where
  pmp : Pmp
  entry : ℕ
  newAddrs : Fin 8 → ℕ
  newCfg2 : ℕ

/-- Indices outside the dynamic entries write nothing. -/
def writePmpaddrDyn (p : Pmp) (idx val : ℕ) : Pmp :=
  { p with addr := fun i => if i.val = idx ∧ pmpDynamicStartEntry ≤ idx then val else p.addr i }

def accumulateCfg2 (cfg2 idx byte : ℕ) : ℕ := cfg2 ||| (byte <<< ((idx - pmpDynamicStartEntry) * 8))

/-- Fill the next entry. -/
def ReloadState.put (st : ReloadState) (addr byte : ℕ) : ReloadState where
  pmp := writePmpaddrDyn st.pmp st.entry addr
  entry := st.entry + 1
  newAddrs := fun j => if j.val = st.entry - pmpDynamicStartEntry then addr else st.newAddrs j
  newCfg2 := accumulateCfg2 st.newCfg2 st.entry byte

/-- One round of the loop; once the entries are used up the rest is skipped, the upper half of a
TOR pair included. -/
def reloadRegion (st : ReloadState) (r : Region) : ReloadState :=
  if st.entry < maxPmpEntries then
    match r.encoding with
    | .napot addr _ => st.put addr (permToCfg r.perm ||| pmpNapot)
    | .tor lo hi =>
      let st := st.put (lo >>> 2) 0
      if st.entry < maxPmpEntries then st.put (hi >>> 2) (permToCfg r.perm ||| pmpTor) else st
  else st

def zeroUnused (p : Pmp) (entry : ℕ) : Pmp :=
  (List.range' entry (maxPmpEntries - entry)).foldl (fun p idx => writePmpaddrDyn p idx 0) p

def reloadPmpProfile (p : Pmp) (profile : ProfileImage) : Pmp :=
  let st := profile.activeRegions.foldl reloadRegion
    ⟨{ p with cfg2 := 0 }, pmpDynamicStartEntry, fun _ => 0, 0⟩
  let p := zeroUnused st.pmp st.entry
  Pmp.updateDynamicPmpShadow { p with cfg2 := st.newCfg2 } st.newAddrs st.newCfg2

/-! ## The bytes of a configuration word -/

theorem testBit_foldl_or {α : Type} (f : α → ℕ) (l : List α) (start n : ℕ) :
    (l.foldl (fun acc i => acc ||| f i) start).testBit n =
      (start.testBit n || l.any fun i => (f i).testBit n) := by
  induction l generalizing start with
  | nil => simp
  | cons i l ih =>
    rw [List.foldl_cons, ih, Nat.testBit_or, List.any_cons, Bool.or_assoc]

theorem packPmpcfg_testBit (c : Fin 8 → ℕ) (n : ℕ) :
    (packPmpcfg c).testBit n = true ↔
      ∃ i : Fin 8, i.val * 8 ≤ n ∧ (c i).testBit (n - i.val * 8) = true := by
  rw [packPmpcfg, testBit_foldl_or (fun i : Fin 8 => c i <<< (i.val * 8))]
  simp

theorem packPmpcfg_update {c : Fin 8 → ℕ} {k : Fin 8} (hk : c k = 0) (byte : ℕ) :
    packPmpcfg (Function.update c k byte) = packPmpcfg c ||| byte <<< (k.val * 8) := by
  apply Nat.eq_of_testBit_eq
  intro n
  rw [Bool.eq_iff_iff, Nat.testBit_or, Bool.or_eq_true, packPmpcfg_testBit, packPmpcfg_testBit,
    Nat.testBit_shiftLeft, Bool.and_eq_true, decide_eq_true_eq]
  constructor
  · rintro ⟨i, hle, hbit⟩
    by_cases hi : i = k
    · subst i
      rw [Function.update_self] at hbit
      exact .inr ⟨hle, hbit⟩
    · rw [Function.update_of_ne hi] at hbit
      exact .inl ⟨i, hle, hbit⟩
  · rintro (⟨i, hle, hbit⟩ | ⟨hle, hbit⟩)
    · have hi : i ≠ k := by
        rintro rfl
        rw [hk, Nat.zero_testBit] at hbit
        cases hbit
      exact ⟨i, hle, by rwa [Function.update_of_ne hi]⟩
    · exact ⟨k, hle, by rwa [Function.update_self]⟩

/-! ## The loop fills the entries in order -/

/-- The loop state once these entries have been written. -/
def filled (p : Pmp) (done : List (ℕ × ℕ)) : ReloadState where
  pmp := { p with
    cfg2 := 0
    addr := fun i => if 8 ≤ i.val ∧ i.val < 8 + done.length then (done.getD (i.val - 8) (0, 0)).1
      else p.addr i }
  entry := 8 + done.length
  newAddrs := dynamicAddrs done
  newCfg2 := dynamicCfg2 done

theorem getD_append_singleton (done : List (ℕ × ℕ)) (x : ℕ × ℕ) (j : ℕ) :
    (done ++ [x]).getD j (0, 0) = if j = done.length then x else done.getD j (0, 0) := by
  rw [List.getD_eq_getElem?_getD, List.getD_eq_getElem?_getD]
  by_cases hlt : j < done.length
  · rw [List.getElem?_append_left hlt, if_neg (by omega)]
  · rw [List.getElem?_append_right (by omega)]
    by_cases heq : j = done.length
    · simp [heq]
    · rw [if_neg heq, List.getElem?_eq_none (by simp; omega), List.getElem?_eq_none (by omega)]

theorem dynamicCfg2_append {done : List (ℕ × ℕ)} (hlen : done.length < 8) (x : ℕ × ℕ) :
    dynamicCfg2 (done ++ [x]) = dynamicCfg2 done ||| x.2 <<< (done.length * 8) := by
  have hempty : (done.getD done.length (0, 0)).2 = 0 := by
    simp
  have hupdate : (fun i : Fin 8 => ((done ++ [x]).getD i.val (0, 0)).2) =
      Function.update (fun i : Fin 8 => (done.getD i.val (0, 0)).2) ⟨done.length, hlen⟩ x.2 := by
    funext i
    rw [getD_append_singleton]
    by_cases hi : i = ⟨done.length, hlen⟩
    · subst i
      simp
    · have hne : i.val ≠ done.length := fun h => hi (Fin.ext h)
      rw [if_neg hne, Function.update_of_ne hi]
  rw [dynamicCfg2, hupdate, packPmpcfg_update hempty, dynamicCfg2]

theorem filled_put (p : Pmp) {done : List (ℕ × ℕ)} (hlen : done.length < 8) (addr byte : ℕ) :
    (filled p done).put addr byte = filled p (done ++ [(addr, byte)]) := by
  have haddr : (fun i : Fin 16 => if i.val = 8 + done.length ∧ 8 ≤ 8 + done.length then addr
      else if 8 ≤ i.val ∧ i.val < 8 + done.length then (done.getD (i.val - 8) (0, 0)).1
      else p.addr i) = fun i : Fin 16 =>
      if 8 ≤ i.val ∧ i.val < 8 + (done ++ [(addr, byte)]).length then
        ((done ++ [(addr, byte)]).getD (i.val - 8) (0, 0)).1
      else p.addr i := by
    funext i
    rw [getD_append_singleton, List.length_append, List.length_singleton]
    by_cases hi : i.val = 8 + done.length
    · rw [if_pos (by omega), if_pos (by omega), if_pos (by omega)]
    · rw [if_neg (by omega)]
      by_cases hin : 8 ≤ i.val ∧ i.val < 8 + done.length
      · rw [if_pos hin, if_pos (by omega), if_neg (by omega)]
      · rw [if_neg hin, if_neg (by omega)]
  have hnew : (fun j : Fin 8 => if j.val = 8 + done.length - 8 then addr
      else dynamicAddrs done j) = dynamicAddrs (done ++ [(addr, byte)]) := by
    funext j
    rw [dynamicAddrs, dynamicAddrs, getD_append_singleton, Nat.add_sub_cancel_left]
    by_cases hj : j.val = done.length
    · rw [if_pos hj, if_pos hj]
    · rw [if_neg hj, if_neg hj]
  have hcfg : dynamicCfg2 done ||| byte <<< ((8 + done.length - 8) * 8) =
      dynamicCfg2 (done ++ [(addr, byte)]) := by
    rw [dynamicCfg2_append hlen, Nat.add_sub_cancel_left]
  have hentry : 8 + done.length + 1 = 8 + (done ++ [(addr, byte)]).length := by
    rw [List.length_append, List.length_singleton, Nat.add_assoc]
  apply ReloadState.ext
  · exact congrArg (fun addr => { p with cfg2 := 0, addr := addr }) haddr
  · exact hentry
  · exact hnew
  · exact hcfg

theorem reloadRegion_filled (p : Pmp) {done : List (ℕ × ℕ)} (hlen : done.length ≤ 8) (r : Region) :
    reloadRegion (filled p done) r = filled p ((done ++ r.entries).take 8) := by
  by_cases hfull : done.length = 8
  · have hskip : (filled p done).entry = 16 := by simp [filled, hfull]
    rw [reloadRegion, if_neg (by rw [hskip]; decide), List.take_append_of_le_length (by omega),
      List.take_of_length_le hlen]
  · have hentry : (filled p done).entry < maxPmpEntries := by
      simp only [filled, maxPmpEntries]
      omega
    rw [reloadRegion, if_pos hentry, Region.entries]
    cases r.encoding with
    | napot addr sizeLog2 =>
      dsimp only
      rw [filled_put p (by omega), List.take_of_length_le]
      simp only [List.length_append, List.length_singleton]
      omega
    | tor lo hi =>
      dsimp only
      rw [filled_put p (by omega)]
      by_cases hlast : done.length = 7
      · -- the pair does not fit: the upper half is dropped
        have hstop : ¬ (filled p (done ++ [(lo >>> 2, 0)])).entry < maxPmpEntries := by
          simp [filled, hlast, maxPmpEntries]
        rw [if_neg hstop]
        congr 1
        simp [List.take_append, hlast, List.take_of_length_le]
      · have hnext : (filled p (done ++ [(lo >>> 2, 0)])).entry < maxPmpEntries := by
          simp only [filled, maxPmpEntries, List.length_append, List.length_singleton]
          omega
        have hroom : (done ++ [(lo >>> 2, 0)]).length < 8 := by
          simp only [List.length_append, List.length_singleton]
          omega
        rw [if_pos hnext, filled_put p hroom, List.append_assoc, List.singleton_append,
          List.take_of_length_le]
        simp only [List.length_append, List.length_cons, List.length_nil]
        omega

theorem take_take_append {α : Type} (n : ℕ) (xs ys : List α) :
    (xs.take n ++ ys).take n = (xs ++ ys).take n := by
  by_cases hlong : n ≤ xs.length
  · rw [List.take_append_of_le_length (by rw [List.length_take]; omega),
      List.take_append_of_le_length hlong, List.take_take, Nat.min_self]
  · rw [List.take_of_length_le (l := xs) (by omega)]

theorem foldl_reloadRegion (p : Pmp) (regions : List Region) {done : List (ℕ × ℕ)}
    (hlen : done.length ≤ 8) :
    regions.foldl reloadRegion (filled p done) =
      filled p ((done ++ regions.flatMap Region.entries).take 8) := by
  induction regions generalizing done with
  | nil => simp [List.take_of_length_le hlen]
  | cons r regions ih =>
    have htake : ((done ++ r.entries).take 8).length ≤ 8 := by
      rw [List.length_take]
      omega
    rw [List.foldl_cons, reloadRegion_filled p hlen, ih htake, List.flatMap_cons,
      ← List.append_assoc, take_take_append]

theorem zeroRange (start n : ℕ) (p : Pmp) (hstart : 8 ≤ start) :
    (List.range' start n).foldl (fun p idx => writePmpaddrDyn p idx 0) p =
      { p with addr := fun i => if start ≤ i.val ∧ i.val < start + n then 0 else p.addr i } := by
  induction n generalizing start p with
  | zero =>
    have hnone : ∀ i : Fin 16, ¬ (start ≤ i.val ∧ i.val < start + 0) := by omega
    simp only [hnone, if_false, List.range'_zero, List.foldl_nil]
  | succ n ih =>
    rw [List.range'_succ, List.foldl_cons, ih (start + 1) _ (by omega)]
    congr 1
    funext i
    by_cases hi : i.val = start
    · simp [writePmpaddrDyn, hi, pmpDynamicStartEntry, hstart]
    · simp only [writePmpaddrDyn, hi, false_and, if_false]
      by_cases hin : start + 1 ≤ i.val ∧ i.val < start + 1 + n
      · rw [if_pos hin, if_pos (by omega)]
      · rw [if_neg hin, if_neg (by omega)]

theorem dynSlot_lt (i : Fin 16) : i.val - 8 < 8 := by omega

/-- The unused entries read zero, as the entries past the end of a list do. -/
theorem zeroUnused_filled (p : Pmp) (entries : List (ℕ × ℕ)) :
    zeroUnused (filled p entries).pmp (filled p entries).entry =
      { p with
        cfg2 := 0
        addr := fun i => if 8 ≤ i.val then dynamicAddrs entries ⟨i.val - 8, dynSlot_lt i⟩
          else p.addr i } := by
  have haddr : (fun i : Fin 16 =>
      if 8 + entries.length ≤ i.val ∧ i.val < 8 + entries.length + (16 - (8 + entries.length)) then 0
      else if 8 ≤ i.val ∧ i.val < 8 + entries.length then (entries.getD (i.val - 8) (0, 0)).1
      else p.addr i) = fun i : Fin 16 =>
      if 8 ≤ i.val then dynamicAddrs entries ⟨i.val - 8, dynSlot_lt i⟩ else p.addr i := by
    funext i
    have hlt : i.val < 16 := i.isLt
    by_cases hdyn : 8 ≤ i.val
    · rw [if_pos hdyn, dynamicAddrs]
      by_cases hused : i.val < 8 + entries.length
      · rw [if_neg (by omega), if_pos ⟨hdyn, hused⟩]
      · have hpast : entries[i.val - 8]? = none := List.getElem?_eq_none (by omega)
        rw [if_pos (by omega), List.getD_eq_getElem?_getD, hpast]
        rfl
    · rw [if_neg hdyn, if_neg (by omega), if_neg (by omega)]
  apply Eq.trans (zeroRange (8 + entries.length) _ _ (Nat.le_add_right 8 entries.length))
  exact congrArg (fun addr => { p with cfg2 := 0, addr := addr }) haddr

/-- The register-by-register loop leaves the registers and shadows that the profile describes. -/
theorem reloadPmpProfile_eq (p : Pmp) (profile : ProfileImage) :
    reloadPmpProfile p profile = p.reloadPmpProfile profile.profile := by
  have hstart : (⟨{ p with cfg2 := 0 }, pmpDynamicStartEntry, fun _ => 0, 0⟩ : ReloadState) =
      filled p [] := by
    have hnone : ∀ i : Fin 16, ¬ (8 ≤ i.val ∧ i.val < 8 + ([] : List (ℕ × ℕ)).length) := by
      simp
    apply ReloadState.ext
    · simp only [filled, hnone, if_false]
    · rfl
    · rfl
    · rfl
  have hloop : profile.activeRegions.foldl reloadRegion (filled p []) =
      filled p profile.profile.dynamicEntries := by
    rw [foldl_reloadRegion p _ (by simp), List.nil_append]
    rfl
  rw [reloadPmpProfile]
  simp only [hstart, hloop, zeroUnused_filled]
  rfl

/-! ## The shadow follows every switch -/

/-- What `verify_pmp_integrity` compares. -/
structure InSync (p : Pmp) : Prop where
  cfg0 : p.cfg0 = p.shadow
  addrs : ∀ i : Fin 8, p.addr ⟨i.val, by omega⟩ = p.shadowAddrs i
  cfg2 : p.cfg2 = p.shadowCfg2
  dynAddrs : ∀ i : Fin 8, p.addr ⟨8 + i.val, by omega⟩ = p.shadowDynAddrs i

theorem verifyPmpIntegrity_of_inSync {p : Pmp} (h : InSync p) : p.verifyPmpIntegrity = true := by
  simp [Pmp.verifyPmpIntegrity, h.cfg0, h.addrs, h.cfg2, h.dynAddrs]

/-- The registers that only boot writes. -/
def SameLocked (p q : Pmp) : Prop :=
  q.cfg0 = p.cfg0 ∧ ∀ i : Fin 16, i.val < 8 → q.addr i = p.addr i

theorem SameLocked.trans {p q r : Pmp} (h : SameLocked p q) (k : SameLocked q r) :
    SameLocked p r := by
  refine ⟨k.1.trans h.1, ?_⟩
  intro i hi
  rw [k.2 i hi, h.2 i hi]

/-- A switch as `schedule` makes it: to a legacy task by its stack, to a native one by its
profile. -/
inductive PmpSwitch where
  | legacy (pmpAddrNapot : ℕ)
  | native (profile : ProfileImage)

def applySwitch (p : Pmp) : PmpSwitch → Pmp
  | .legacy pmpAddrNapot =>
    (p.writePerTaskNapot pmpAddrNapot pmpNapotRw).updateTaskPmpShadow pmpAddrNapot pmpNapotRw
  | .native profile => reloadPmpProfile p profile

/-- The PMP registers as the hart comes up and the zeroed shadows. -/
def atReset (cfg0 cfg2 : ℕ) (addr : Fin 16 → ℕ) : Pmp :=
  { Pmp.reset with cfg0 := cfg0, cfg2 := cfg2, addr := addr }

theorem inSync_initPmp (b : SectionBounds) (cfg0 : ℕ) {addr : Fin 16 → ℕ} (haddr8 : addr 8 = 0) :
    InSync ((atReset cfg0 0 addr).initPmp b) := by
  refine ⟨rfl, ?_, rfl, ?_⟩
  · intro i
    simp [Pmp.initPmp]
  · intro i
    by_cases hi : i = 0
    · simpa [Pmp.initPmp, atReset, Pmp.reset, hi] using haddr8
    · simp [Pmp.initPmp, atReset, Pmp.reset, hi]

theorem inSync_applySwitch {p : Pmp} (h : InSync p) (w : PmpSwitch) : InSync (applySwitch p w) := by
  cases w with
  | legacy pmpAddrNapot =>
    refine ⟨h.cfg0, ?_, rfl, ?_⟩
    · intro i
      have hlow : ¬ i.val = 8 ∧ ¬ 8 < i.val := by omega
      simpa [applySwitch, Pmp.writePerTaskNapot, Pmp.updateTaskPmpShadow, hlow] using h.addrs i
    · intro i
      by_cases hi : i = 0
      · simp [applySwitch, Pmp.writePerTaskNapot, Pmp.updateTaskPmpShadow, hi]
      · simp [applySwitch, Pmp.writePerTaskNapot, Pmp.updateTaskPmpShadow, hi,
          Fin.pos_iff_ne_zero]
  | native profile =>
    rw [applySwitch, reloadPmpProfile_eq]
    refine ⟨h.cfg0, ?_, rfl, ?_⟩
    · intro i
      have hlow : ¬ 8 ≤ i.val := by omega
      simpa [Pmp.reloadPmpProfile, Pmp.updateDynamicPmpShadow, hlow] using h.addrs i
    · intro i
      simp [Pmp.reloadPmpProfile, Pmp.updateDynamicPmpShadow]

theorem sameLocked_applySwitch (p : Pmp) (w : PmpSwitch) : SameLocked p (applySwitch p w) := by
  cases w with
  | legacy pmpAddrNapot =>
    refine ⟨rfl, ?_⟩
    intro i hi
    have hlow : ¬ i.val = 8 ∧ ¬ 8 < i.val := by omega
    simp [applySwitch, Pmp.writePerTaskNapot, Pmp.updateTaskPmpShadow, hlow]
  | native profile =>
    rw [applySwitch, reloadPmpProfile_eq]
    refine ⟨rfl, ?_⟩
    intro i hi
    have hlow : ¬ 8 ≤ i.val := by omega
    simp [Pmp.reloadPmpProfile, Pmp.updateDynamicPmpShadow, hlow]

theorem applySwitches (switches : List PmpSwitch) {p : Pmp} (h : InSync p) :
    InSync (switches.foldl applySwitch p) ∧ SameLocked p (switches.foldl applySwitch p) := by
  induction switches generalizing p with
  | nil => exact ⟨h, rfl, fun _ _ => rfl⟩
  | cons w switches ih =>
    obtain ⟨hsync, hsame⟩ := ih (inSync_applySwitch h w)
    exact ⟨hsync, (sameLocked_applySwitch p w).trans hsame⟩

/-- Whatever the hart left in the other PMP registers, no sequence of switches makes the timer
tick see a mismatch or moves an entry that boot locked. -/
theorem integrity_check_never_false_alarm (b : SectionBounds) (cfg0 cfg2 : ℕ) (addr : Fin 16 → ℕ)
    (haddr8 : addr 8 = 0) (hcfg2 : cfg2 = 0) (switches : List PmpSwitch) :
    let final := switches.foldl applySwitch ((atReset cfg0 cfg2 addr).initPmp b)
    final.verifyPmpIntegrity = true ∧ final.cfg0 = packPmpcfg b.configs ∧
      ∀ i : Fin 8, final.addr ⟨i.val, by omega⟩ = b.addrs i >>> 2 := by
  subst hcfg2
  obtain ⟨hsync, hcfg0, haddrs⟩ := applySwitches switches (inSync_initPmp b cfg0 haddr8)
  refine ⟨verifyPmpIntegrity_of_inSync hsync, hcfg0, ?_⟩
  intro i
  rw [haddrs ⟨i.val, by omega⟩ i.isLt]
  simp [Pmp.initPmp]

/-- A native task whose TOR pairs overflow the entries, between two legacy ones. -/
theorem integrity_check_after_overflow :
    let crowded : ProfileImage := ⟨200, fun i => ⟨0, 0, .tor (i.val * 64) (i.val * 64 + 32), .RW⟩⟩
    let bounds : SectionBounds :=
      ⟨0x80000000, 0x80100000, 0x80100000, 0x80180000, 0x80180000, 0x80200000, false⟩
    let final := [.legacy 0x20180bff, .native crowded, .legacy 0x20182bff].foldl applySwitch
      ((atReset 0 0 fun _ => 0).initPmp bounds)
    final.verifyPmpIntegrity = true :=
  (integrity_check_never_false_alarm _ 0 0 (fun _ => 0) rfl rfl _).1

end KernelPmpReload
