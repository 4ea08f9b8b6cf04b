import Sipahi.ByteMemory
import Sipahi.KernelLoader
import Sipahi.KernelReference

/-!
# Loading a native task

The segments of a task go to its first three regions; the loader clears the fourth.
-/
namespace KernelLoading

open KernelPmp KernelState KernelLoader KernelReference ByteMemory

inductive LoadError where
  | profileNotFound
  | profileEmpty
  | textOverflow
  | rodataOverflow
  | dataOverflow
  | textNotSafe
  | rodataNotSafe
  | dataNotSafe
  deriving DecidableEq, Repr

structure NativeTaskSegments where
  text : List UInt8
  rodata : Option (List UInt8)
  data : Option (List UInt8)

/-- A failed load keeps what it has written so far. -/
abbrev Load := ExceptT LoadError (StateM Memory)

def zeroFill (buf : List UInt8) : List UInt8 := buf.map fun _ => 0

def copyBytes : List UInt8 → List UInt8 → List UInt8
  | [], dst => dst
  | _ :: _, [] => []
  | byte :: src, _ :: dst => byte :: copyBytes src dst

inductive BoundedCopyError where
  | boundedCopyError

def boundedCopy (src dst : List UInt8) : Except BoundedCopyError (List UInt8) :=
  if dst.length < src.length then .error .boundedCopyError else .ok (copyBytes src dst)

def fillRegion (r : Region) : Load Unit :=
  modify fun m => store m r.base (zeroFill (slice m r.base r.size))

def loadRegionZeroOnly (r : Region) (unsafeErr : LoadError) : Load Unit :=
  if isSafeLoadDst r.base r.size = false then throw unsafeErr else fillRegion r

def loadRegion (r : Region) (src : List UInt8) (overflowErr unsafeErr : LoadError) : Load Unit :=
  if isSafeLoadDst r.base r.size = false then throw unsafeErr
  else if r.size < src.length then throw overflowErr
  else do
    fillRegion r
    let m ← get
    match boundedCopy src (slice m r.base r.size) with
    | .ok dst => set (store m r.base dst)
    | .error _ => throw overflowErr

/-- Regions one and two: the task may have no such region, and the image no such segment. -/
def loadOptional (region : Option Region) (segment : Option (List UInt8))
    (overflowErr unsafeErr : LoadError) : Load Unit :=
  match region, segment with
  | none, _ => pure ()
  | some r, some src => loadRegion r src overflowErr unsafeErr
  | some r, none => loadRegionZeroOnly r unsafeErr

/-- Region three. Nothing is reported where it cannot be cleared. -/
def fillStack (region : Option Region) : Load Unit :=
  match region with
  | none => pure ()
  | some r => if isSafeLoadDst r.base r.size then fillRegion r else pure ()

def loadNativeTask (P : Platform) (taskId : ℕ) (segments : NativeTaskSegments) : Load Unit :=
  match P.getPmpProfile taskId with
  | none => throw .profileNotFound
  | some profile =>
    match profile.activeRegions with
    | [] => throw .profileEmpty
    | text :: regions => do
      loadRegion text segments.text .textOverflow .textNotSafe
      loadOptional regions[0]? segments.rodata .rodataOverflow .rodataNotSafe
      loadOptional regions[1]? segments.data .dataOverflow .dataNotSafe
      fillStack regions[2]?

/-! ## What a load writes -/

/-- The segment and zeros up to the end of the region. -/
def padded (r : Region) (src : List UInt8) : List UInt8 :=
  src ++ List.replicate (r.size - src.length) 0

theorem copyBytes_eq {src dst : List UInt8} (h : src.length ≤ dst.length) :
    copyBytes src dst = src ++ dst.drop src.length := by
  induction src generalizing dst with
  | nil => rfl
  | cons byte src ih =>
    cases dst with
    | nil => simp at h
    | cons old dst =>
      rw [List.length_cons, List.length_cons, Nat.add_le_add_iff_right] at h
      simp [copyBytes, ih h]

theorem zeroFill_eq (buf : List UInt8) : zeroFill buf = List.replicate buf.length 0 :=
  List.map_const' ..

theorem fillRegion_run (r : Region) (m : Memory) :
    (fillRegion r).run.run m = (.ok (), store m r.base (padded r [])) := by
  have hzero : zeroFill (slice m r.base r.size) = padded r [] := by
    simp [zeroFill_eq, padded]
  rw [← hzero]
  rfl

theorem ok_eq_iff {m m' : Memory} :
    ((.ok (), m) : Id (Except LoadError Unit × Memory)) = (.ok (), m') ↔ m' = m := by
  constructor
  · intro h
    exact (congrArg Prod.snd h).symm
  · rintro rfl
    rfl

/-- The loader takes the region and its segment. -/
structure Fits (r : Region) (src : List UInt8) : Prop where
  safe : isSafeLoadDst r.base r.size = true
  room : src.length ≤ r.size

theorem length_padded {r : Region} {src : List UInt8} (h : src.length ≤ r.size) :
    (padded r src).length = r.size := by
  rw [padded, List.length_append, List.length_replicate, Nat.add_sub_cancel' h]

theorem getD_padded (r : Region) (src : List UInt8) (k : ℕ) :
    (padded r src).getD k 0 = src.getD k 0 := by
  rw [padded]
  by_cases hk : k < src.length
  · rw [List.getD_append _ _ _ _ hk]
  · rw [List.getD_append_right _ _ _ _ (Nat.not_lt.mp hk), List.getD_eq_getElem?_getD,
      List.getElem?_getD_replicate_default_eq, List.getD_eq_default _ _ (Nat.not_lt.mp hk)]

theorem load_bind_ok {α β : Type} {x : Load α} {f : α → Load β} {m m' : Memory} {b : β} :
    (x >>= f).run.run m = (.ok b, m') ↔
      ∃ a mid, x.run.run m = (.ok a, mid) ∧ (f a).run.run mid = (.ok b, m') := by
  have hbind : (x >>= f).run.run m = match x.run.run m with
      | (.ok a, mid) => (f a).run.run mid
      | (.error e, mid) => (.error e, mid) := by
    rw [ExceptT.run_bind, StateT.run_bind]
    rcases x.run.run m with ⟨_ | _, _⟩ <;> rfl
  rw [hbind]
  constructor
  · intro h
    split at h
    · rename_i a mid heq
      exact ⟨a, mid, heq, h⟩
    · cases h
  · rintro ⟨a, mid, heq, h⟩
    rw [heq]
    exact h

theorem loadRegion_run {r : Region} {src : List UInt8} (h : Fits r src)
    (overflowErr unsafeErr : LoadError) (m : Memory) :
    (loadRegion r src overflowErr unsafeErr).run.run m = (.ok (), store m r.base (padded r src)) := by
  have hroom : ¬ r.size < src.length := Nat.not_lt.mpr h.room
  have hsafe : ¬ isSafeLoadDst r.base r.size = false := by
    rw [h.safe]
    exact Bool.noConfusion
  rw [loadRegion, if_neg hsafe, if_neg hroom, load_bind_ok]
  refine ⟨(), _, fillRegion_run r m, ?_⟩
  rw [load_bind_ok]
  refine ⟨_, _, rfl, ?_⟩
  have hzero : slice (store m r.base (padded r [])) r.base r.size = List.replicate r.size 0 := by
    have hfilled := slice_store m r.base (padded r [])
    rw [length_padded (Nat.zero_le _)] at hfilled
    rw [hfilled]
    simp [padded]
  have hcopy : boundedCopy src (List.replicate r.size 0) = .ok (padded r src) := by
    rw [boundedCopy, List.length_replicate, if_neg hroom, copyBytes_eq (by simpa using h.room)]
    simp [padded]
  have hsame : store (store m r.base (padded r [])) r.base (padded r src) =
      store m r.base (padded r src) := by
    apply store_store
    rw [length_padded h.room, length_padded (Nat.zero_le _)]
  rw [hzero, hcopy, ← hsame]
  rfl

theorem loadRegion_fits {r : Region} {src : List UInt8} {overflowErr unsafeErr : LoadError}
    {m m' : Memory} (h : (loadRegion r src overflowErr unsafeErr).run.run m = (.ok (), m')) :
    Fits r src := by
  unfold loadRegion at h
  split at h
  · cases h
  · rename_i hsafe
    split at h
    · cases h
    · rename_i hroom
      exact ⟨Bool.eq_true_of_not_eq_false hsafe, Nat.not_lt.mp hroom⟩

theorem loadRegion_ok {r : Region} {src : List UInt8} {overflowErr unsafeErr : LoadError}
    {m m' : Memory} {u : Unit} :
    (loadRegion r src overflowErr unsafeErr).run.run m = (.ok u, m') ↔
      Fits r src ∧ m' = store m r.base (padded r src) := by
  constructor
  · intro h
    have hfits := loadRegion_fits h
    rw [loadRegion_run hfits] at h
    exact ⟨hfits, (congrArg Prod.snd h).symm⟩
  · rintro ⟨hfits, rfl⟩
    exact loadRegion_run hfits ..

theorem loadRegionZeroOnly_ok {r : Region} {unsafeErr : LoadError} {m m' : Memory} {u : Unit} :
    (loadRegionZeroOnly r unsafeErr).run.run m = (.ok u, m') ↔
      Fits r [] ∧ m' = store m r.base (padded r []) := by
  unfold loadRegionZeroOnly
  split
  · rename_i hunsafe
    constructor
    · intro h
      cases h
    · rintro ⟨hfits, -⟩
      rw [hfits.safe] at hunsafe
      cases hunsafe
  · rename_i hsafe
    have hfits : Fits r [] := ⟨Bool.eq_true_of_not_eq_false hsafe, Nat.zero_le _⟩
    rw [fillRegion_run, ok_eq_iff]
    exact (and_iff_right hfits).symm

/-- A region without a segment is loaded as one with an empty segment. -/
theorem loadOptional_ok {region : Option Region} {segment : Option (List UInt8)}
    {overflowErr unsafeErr : LoadError} {m m' : Memory} {u : Unit} :
    (loadOptional region segment overflowErr unsafeErr).run.run m = (.ok u, m') ↔
      (∀ r, region = some r → Fits r (segment.getD [])) ∧
        m' = storeAll m (region.toList.map fun r => ⟨r.base, padded r (segment.getD [])⟩) := by
  cases region with
  | none =>
    constructor
    · intro h
      exact ⟨by simp, (congrArg Prod.snd h).symm⟩
    · rintro ⟨-, rfl⟩
      rfl
  | some r =>
    have hfits : (∀ r', some r = some r' → Fits r' (segment.getD [])) ↔
        Fits r (segment.getD []) := by simp
    rw [hfits]
    cases segment with
    | some src => exact loadRegion_ok
    | none => exact loadRegionZeroOnly_ok

theorem fillStack_ok {region : Option Region} {m m' : Memory} {u : Unit} :
    (fillStack region).run.run m = (.ok u, m') ↔
      m' = storeAll m ((region.toList.filter fun r => isSafeLoadDst r.base r.size).map
        fun r => ⟨r.base, padded r []⟩) := by
  cases region with
  | none =>
    exact ok_eq_iff
  | some r =>
    unfold fillStack
    dsimp only
    cases hsafe : isSafeLoadDst r.base r.size with
    | true =>
      rw [if_pos rfl, fillRegion_run, ok_eq_iff]
      simp [hsafe, storeAll]
    | false =>
      have hkeep : (pure () : Load Unit).run.run m = (.ok (), m) := rfl
      rw [if_neg Bool.noConfusion, hkeep, ok_eq_iff]
      simp [hsafe, storeAll]

def NativeTaskSegments.segment (s : NativeTaskSegments) : ℕ → List UInt8
  | 0 => s.text
  | 1 => s.rodata.getD []
  | 2 => s.data.getD []
  | _ => []

/-- Whether the loader writes region `i`. -/
def written (r : Region) (i : ℕ) : Bool :=
  decide (i < 3) || (i == 3 && isSafeLoadDst r.base r.size)

def NativeTaskSegments.area (s : NativeTaskSegments) (p : Region × ℕ) : Area :=
  ⟨p.1.base, padded p.1 (s.segment p.2)⟩

/-- Everything the loader writes. -/
def image (regions : List Region) (s : NativeTaskSegments) : List Area :=
  (regions.zipIdx.filter fun p => written p.1 p.2).map s.area

theorem image_cons (text : Region) (regions : List Region) (s : NativeTaskSegments) :
    image (text :: regions) s = [⟨text.base, padded text s.text⟩] ++
      (regions[0]?.toList.map fun r => ⟨r.base, padded r (s.rodata.getD [])⟩) ++
      (regions[1]?.toList.map fun r => ⟨r.base, padded r (s.data.getD [])⟩) ++
      ((regions[2]?.toList.filter fun r => isSafeLoadDst r.base r.size).map
        fun r => ⟨r.base, padded r []⟩) := by
  have hrest : ∀ (rest : List Region) (n : ℕ), 4 ≤ n →
      (rest.zipIdx n).filter (fun p => written p.1 p.2) = [] := by
    intro rest n hn
    rw [List.filter_eq_nil_iff]
    rintro ⟨r, i⟩ hr
    have hi : n ≤ i := List.le_snd_of_mem_zipIdx hr
    have hthree : ¬ i < 3 := by omega
    have hne : i ≠ 3 := by omega
    simp [written, hthree, hne]
  match regions with
  | [] => rfl
  | [_] => rfl
  | [_, _] => rfl
  | _ :: _ :: stack :: rest =>
    have hthree : written stack 3 = isSafeLoadDst stack.base stack.size := Bool.false_or _
    have hfirst : ∀ r i, i < 3 → written r i = true := by
      intro r i hi
      simp [written, hi]
    rw [image]
    simp only [List.zipIdx_cons, List.filter_cons, hrest rest _ (le_refl 4), Nat.reduceAdd, hthree,
      hfirst _ 0 (by omega), hfirst _ 1 (by omega), hfirst _ 2 (by omega)]
    cases hsafe : isSafeLoadDst stack.base stack.size <;>
      simp [hsafe, NativeTaskSegments.area, NativeTaskSegments.segment]

/-- A load succeeds when its first three regions take their segments; it then writes the image. -/
theorem loadNativeTask_ok {P : Platform} {taskId : ℕ} {profile : PmpProfile}
    (hprofile : P.getPmpProfile taskId = some profile) {s : NativeTaskSegments} {m m' : Memory} :
    (loadNativeTask P taskId s).run.run m = (.ok (), m') ↔ profile.activeRegions ≠ [] ∧
      (∀ i r, profile.activeRegions[i]? = some r → i < 3 → Fits r (s.segment i)) ∧
      m' = storeAll m (image profile.activeRegions s) := by
  unfold loadNativeTask
  rw [hprofile]
  dsimp only
  cases profile.activeRegions with
  | nil =>
    constructor
    · intro h
      cases h
    · rintro ⟨h, -⟩
      exact absurd rfl h
  | cons text regions =>
    rw [image_cons, storeAll_append, storeAll_append, storeAll_append]
    simp only [load_bind_ok, loadRegion_ok, loadOptional_ok, fillStack_ok]
    constructor
    · rintro ⟨-, -, ⟨htext, rfl⟩, -, -, ⟨hrodata, rfl⟩, -, -, ⟨hdata, rfl⟩, rfl⟩
      refine ⟨List.cons_ne_nil _ _, ?_, rfl⟩
      intro i r hr hi
      match i with
      | 0 =>
        obtain rfl : text = r := Option.some.inj hr
        exact htext
      | 1 => exact hrodata r hr
      | 2 => exact hdata r hr
    · rintro ⟨-, hfits, rfl⟩
      refine ⟨(), _, ⟨hfits 0 text rfl (by omega), rfl⟩, (), _, ⟨?_, rfl⟩, (), _, ⟨?_, rfl⟩, rfl⟩
      · intro r hr
        exact hfits 1 r hr (by omega)
      · intro r hr
        exact hfits 2 r hr (by omega)

/-! ## What a task finds -/

def Covers (r : Region) (a : ℕ) : Prop := r.base ≤ a ∧ a < r.base + r.size

/-- Every region holds its segment and zeros, and everything else is as it was. -/
structure Loaded (regions : List Region) (s : NativeTaskSegments) (m m' : Memory) : Prop where
  holds : ∀ i r, regions[i]? = some r → ∀ k < r.size, m' (r.base + k) = (s.segment i).getD k 0
  outside : ∀ a, (∀ r ∈ regions, ¬ Covers r a) → m' a = m a
  kernel : ∀ a, kernelBase ≤ a → a < kernelBase + kernelSize → m' a = m a

theorem mem_image {regions : List Region} {s : NativeTaskSegments} {area : Area} :
    area ∈ image regions s ↔
      ∃ i r, regions[i]? = some r ∧ written r i = true ∧ area = s.area (r, i) := by
  simp only [image, List.mem_map, List.mem_filter, Prod.exists, List.mk_mem_zipIdx_iff_getElem?]
  constructor
  · rintro ⟨r, i, ⟨hr, hw⟩, rfl⟩
    exact ⟨i, r, hr, hw, rfl⟩
  · rintro ⟨i, r, hr, hw, rfl⟩
    exact ⟨r, i, ⟨hr, hw⟩, rfl⟩

/-- What the loader writes of a region is the whole region, and outside the kernel. -/
theorem written_covers {regions : List Region} {s : NativeTaskSegments}
    (hfits : ∀ i r, regions[i]? = some r → i < 3 → Fits r (s.segment i)) {i : ℕ} {r : Region}
    (hr : regions[i]? = some r) (hw : written r i = true) :
    isSafeLoadDst r.base r.size = true ∧ (s.area (r, i)).bytes.length = r.size := by
  simp only [written, Bool.or_eq_true, Bool.and_eq_true, decide_eq_true_eq, beq_iff_eq] at hw
  rcases hw with hi | ⟨rfl, hsafe⟩
  · have h := hfits i r hr hi
    exact ⟨h.safe, length_padded h.room⟩
  · exact ⟨hsafe, length_padded (Nat.zero_le _)⟩

theorem area_covers {r : Region} {s : NativeTaskSegments} {i a : ℕ}
    (hlength : (s.area (r, i)).bytes.length = r.size) : (s.area (r, i)).Covers a ↔ Covers r a := by
  rw [Area.Covers, hlength]
  rfl

def Separate (r r' : Region) : Prop := ∀ a, Covers r a → ¬ Covers r' a

theorem separate_of_ne {regions : List Region} (h : regions.Pairwise Separate) {i j : ℕ}
    {r r' : Region} (hr : regions[i]? = some r) (hr' : regions[j]? = some r') (hne : i ≠ j) :
    Separate r r' := by
  obtain ⟨hi, rfl⟩ := List.getElem?_eq_some_iff.mp hr
  obtain ⟨hj, rfl⟩ := List.getElem?_eq_some_iff.mp hr'
  have hpair := List.pairwise_iff_getElem.mp h
  rcases Nat.lt_or_gt_of_ne hne with hlt | hgt
  · exact hpair i j hi hj hlt
  · intro a ha hb
    exact hpair j i hj hi hgt a hb ha

section

variable {regions : List Region} {s : NativeTaskSegments} {m : Memory}
  (hfits : ∀ i r, regions[i]? = some r → i < 3 → Fits r (s.segment i))
include hfits

theorem image_apart (h : regions.Pairwise Separate) :
    (image regions s).Pairwise Area.Apart := by
  have hfst : regions.zipIdx.Pairwise fun p q => Separate p.1 q.1 := by
    rw [← List.pairwise_map, List.zipIdx_map_fst]
    exact h
  rw [image, List.pairwise_map]
  apply (hfst.filter _).imp_of_mem
  rintro ⟨r, i⟩ ⟨r', j⟩ hp hq hsep a ha hb
  simp only [List.mem_filter, List.mk_mem_zipIdx_iff_getElem?] at hp hq
  rw [area_covers (written_covers hfits hp.1 hp.2).2] at ha
  rw [area_covers (written_covers hfits hq.1 hq.2).2] at hb
  exact hsep a ha hb

/-- A region is as its segment says when the loader writes it, and as it was when it does not. -/
theorem storeAll_image (h : regions.Pairwise Separate) {i k : ℕ} {r : Region}
    (hr : regions[i]? = some r) (hk : k < r.size) :
    storeAll m (image regions s) (r.base + k) =
      if written r i then (s.segment i).getD k 0 else m (r.base + k) := by
  have hcovered : Covers r (r.base + k) := ⟨Nat.le_add_right _ _, Nat.add_lt_add_left hk _⟩
  split
  · rename_i hw
    have hlength := (written_covers hfits hr hw).2
    have hmem : s.area (r, i) ∈ image regions s := mem_image.mpr ⟨i, r, hr, hw, rfl⟩
    exact (storeAll_inside (image_apart hfits h) hmem (by omega)).trans (getD_padded _ _ _)
  · rename_i hw
    apply storeAll_outside
    intro area harea ha
    obtain ⟨j, r', hr', hw', rfl⟩ := mem_image.mp harea
    rw [area_covers (written_covers hfits hr' hw').2] at ha
    have hne : i ≠ j := by
      rintro rfl
      obtain rfl : r = r' := Option.some.inj (hr.symm.trans hr')
      exact hw hw'
    exact separate_of_ne h hr hr' hne _ hcovered ha

theorem storeAll_image_outside {a : ℕ} (ha : ∀ r ∈ regions, ¬ Covers r a) :
    storeAll m (image regions s) a = m a := by
  apply storeAll_outside
  intro area harea hcovers
  obtain ⟨i, r, hr, hw, rfl⟩ := mem_image.mp harea
  rw [area_covers (written_covers hfits hr hw).2] at hcovers
  exact ha r (List.mem_of_getElem? hr) hcovers

theorem storeAll_image_kernel {a : ℕ} (hlo : kernelBase ≤ a) (hhi : a < kernelBase + kernelSize) :
    storeAll m (image regions s) a = m a := by
  apply storeAll_outside
  intro area harea hcovers
  obtain ⟨i, r, hr, hw, rfl⟩ := mem_image.mp harea
  obtain ⟨hsafe, hlength⟩ := written_covers hfits hr hw
  obtain ⟨hle, hlt⟩ := (area_covers hlength).mp hcovers
  have hsize : 0 < r.size := by omega
  have hapart := (isSafeLoadDst_iff hsize).mp hsafe
  omega

end

/-- A load initialises the whole task when no region but a fourth one outside the kernel stands
behind the first three; other bytes must have been zero before. -/
theorem load_initialises_iff {P : Platform} {taskId : ℕ} {profile : PmpProfile}
    (hprofile : P.getPmpProfile taskId = some profile)
    (hseparate : profile.activeRegions.Pairwise Separate) (s : NativeTaskSegments) (m : Memory) :
    (∀ m', (loadNativeTask P taskId s).run.run m = (.ok (), m') →
        Loaded profile.activeRegions s m m') ↔
      ((∀ i r, profile.activeRegions[i]? = some r → i < 3 → Fits r (s.segment i)) →
        ∀ i r, profile.activeRegions[i]? = some r → 3 ≤ i →
          (i = 3 ∧ isSafeLoadDst r.base r.size = true) ∨ ∀ a, Covers r a → m a = 0) := by
  constructor
  · intro h hfits i r hr hi
    by_cases hw : written r i = true
    · left
      simpa [written, Nat.not_lt.mpr hi] using hw
    · right
      intro a ha
      have hne : profile.activeRegions ≠ [] := List.ne_nil_of_mem (List.mem_of_getElem? hr)
      have hloaded := h _ ((loadNativeTask_ok hprofile).mpr ⟨hne, hfits, rfl⟩)
      obtain ⟨k, rfl⟩ := Nat.exists_eq_add_of_le ha.1
      have hk : k < r.size := Nat.lt_of_add_lt_add_left ha.2
      have hnil : s.segment i = [] := by
        match i, hi with
        | i + 3, _ => rfl
      have hheld := hloaded.holds i r hr k hk
      rw [storeAll_image hfits hseparate hr hk, if_neg hw, hnil] at hheld
      exact hheld
  · intro h m' hload
    obtain ⟨-, hfits, rfl⟩ := (loadNativeTask_ok hprofile).mp hload
    constructor
    · intro i r hr k hk
      rw [storeAll_image hfits hseparate hr hk]
      split
      · rfl
      · rename_i hw
        have hi : 3 ≤ i := by
          by_contra hlt
          exact hw (by simp [written, Nat.not_le.mp hlt])
        have hnil : s.segment i = [] := by
          match i, hi with
          | i + 3, _ => rfl
        rcases h hfits i r hr hi with ⟨rfl, hsafe⟩ | hzero
        · exact absurd (by simp [written, hsafe]) hw
        · rw [hnil]
          exact hzero _ ⟨Nat.le_add_right _ _, Nat.add_lt_add_left hk _⟩
    · intro a ha
      exact storeAll_image_outside hfits ha
    · intro a hlo hhi
      exact storeAll_image_kernel hfits hlo hhi

theorem separate_of_ordered {regions : List Region}
    (h : regions.Pairwise fun r r' => r.base + r.size ≤ r'.base) : regions.Pairwise Separate := by
  apply h.imp
  intro r r' hle a ha hb
  exact absurd (ha.2.trans_le hle) (Nat.not_lt.mpr hb.1)

/-- Task two of the manifest has four regions, the last of them its stack. -/
theorem hello_is_loaded :
    ∃ m', (loadNativeTask referencePlatform 2 ⟨[0x13], none, some [1]⟩).run.run (fun _ => 0xFF) =
        (.ok (), m') ∧
      Loaded (generatedPmpProfiles 2).activeRegions ⟨[0x13], none, some [1]⟩ (fun _ => 0xFF) m' := by
  have hprofile : referencePlatform.getPmpProfile 2 = some (generatedPmpProfiles 2) := rfl
  have hfits : ∀ i r, (generatedPmpProfiles 2).activeRegions[i]? = some r → i < 3 →
      Fits r (NativeTaskSegments.segment ⟨[0x13], none, some [1]⟩ i) := by
    intro i r hr hi
    obtain rfl | rfl | rfl : i = 0 ∨ i = 1 ∨ i = 2 := by omega
    all_goals
      obtain rfl := Option.some.inj hr
      exact ⟨by decide, by decide⟩
  have hrun := (loadNativeTask_ok (m := fun _ => 0xFF) hprofile).mpr ⟨by decide, hfits, rfl⟩
  refine ⟨_, hrun, (load_initialises_iff hprofile (separate_of_ordered (by decide)) _ _).mpr ?_ _
    hrun⟩
  intro _ i r hr hi
  have hlt := (List.getElem?_eq_some_iff.mp hr).1
  have hlength : (generatedPmpProfiles 2).activeRegions.length = 4 := rfl
  obtain rfl : i = 3 := by omega
  obtain rfl := Option.some.inj hr
  exact Or.inl ⟨rfl, by decide⟩

/-- A fifth region, which is then the stack of the task. -/
def fiveRegions : PmpProfile where
  activeRegions := (generatedPmpProfiles 2).activeRegions ++
    [napotRegion 0x80620000 0x1000 0x201881ff 12 .RW]
  length_le := by decide

def fiveRegionPlatform : Platform := { referencePlatform with pmpProfiles := fun _ => fiveRegions }

theorem fiveRegions_separate : fiveRegions.activeRegions.Pairwise Separate :=
  separate_of_ordered (by decide)

/-- The stack keeps what an earlier task or boot stage left there. -/
theorem fifth_region_keeps_bytes :
    ∃ m', (loadNativeTask fiveRegionPlatform 2 ⟨[0x13], none, none⟩).run.run (fun _ => 0xFF) =
        (.ok (), m') ∧
      ¬ Loaded fiveRegions.activeRegions ⟨[0x13], none, none⟩ (fun _ => 0xFF) m' := by
  have hfits : ∀ i r, fiveRegions.activeRegions[i]? = some r → i < 3 →
      Fits r (NativeTaskSegments.segment ⟨[0x13], none, none⟩ i) := by
    intro i r hr hi
    match i with
    | 0 | 1 | 2 =>
      obtain rfl := Option.some.inj hr
      exact ⟨by decide, by decide⟩
  refine ⟨_, (loadNativeTask_ok rfl).mpr ⟨by decide, hfits, rfl⟩, ?_⟩
  intro hloaded
  have hkept := storeAll_image (m := fun _ => 0xFF) (i := 4) (k := 0) hfits fiveRegions_separate rfl
    (by decide)
  have hzero := hloaded.holds 4 _ rfl 0 (by decide)
  exact absurd (hkept.symm.trans hzero) (by decide)

end KernelLoading
