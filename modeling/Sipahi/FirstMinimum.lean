import Mathlib.Order.Lattice
import Mathlib.Data.List.Induction

/-!
# Best-so-far scans

A scan keeps the first eligible element whose key is smaller than every key kept before, and
starts with a key that only smaller ones can replace.
-/
namespace FirstMinimum

variable {ι κ : Type*} [LinearOrder κ]

def scanStep (eligible : ι → Bool) (key : ι → κ) (acc : Option ι × κ) (i : ι) : Option ι × κ :=
  if eligible i = true ∧ key i < acc.2 then (some i, key i) else acc

def scan (eligible : ι → Bool) (key : ι → κ) (top : κ) (l : List ι) : Option ι × κ :=
  l.foldl (scanStep eligible key) (none, top)

/-- What the scan knows after the elements of `seen`. -/
def IsBest (eligible : ι → Bool) (key : ι → κ) (top : κ) (seen : List ι) : Option ι × κ → Prop
  | (none, k) => k = top ∧ ∀ i ∈ seen, eligible i = true → top ≤ key i
  | (some i, k) => i ∈ seen ∧ eligible i = true ∧ k = key i ∧ key i < top ∧
      ∀ j ∈ seen, eligible j = true → key i ≤ key j

variable {eligible : ι → Bool} {key : ι → κ} {top : κ}

theorem isBest_step {seen : List ι} {acc : Option ι × κ} (h : IsBest eligible key top seen acc)
    (i : ι) : IsBest eligible key top (seen ++ [i]) (scanStep eligible key acc i) := by
  obtain ⟨best, k⟩ := acc
  unfold scanStep
  by_cases hi : eligible i = true ∧ key i < k
  · rw [if_pos hi]
    cases best with
    | none =>
      obtain ⟨rfl, hall⟩ := h
      refine ⟨by simp, hi.1, rfl, hi.2, ?_⟩
      intro j hj he
      rcases List.mem_append.mp hj with hj | hj
      · exact hi.2.le.trans (hall j hj he)
      · rw [List.mem_singleton.mp hj]
    | some b =>
      obtain ⟨-, -, rfl, htop, hall⟩ := h
      refine ⟨by simp, hi.1, rfl, hi.2.trans htop, ?_⟩
      intro j hj he
      rcases List.mem_append.mp hj with hj | hj
      · exact hi.2.le.trans (hall j hj he)
      · rw [List.mem_singleton.mp hj]
  · rw [if_neg hi]
    have hlast : eligible i = true → k ≤ key i := fun he => not_lt.mp fun hk => hi ⟨he, hk⟩
    cases best with
    | none =>
      obtain ⟨rfl, hall⟩ := h
      refine ⟨rfl, fun j hj he => ?_⟩
      rcases List.mem_append.mp hj with hj | hj
      · exact hall j hj he
      · rw [List.mem_singleton.mp hj] at he ⊢
        exact hlast he
    | some b =>
      obtain ⟨hmem, hb, rfl, htop, hall⟩ := h
      refine ⟨List.mem_append_left _ hmem, hb, rfl, htop, fun j hj he => ?_⟩
      rcases List.mem_append.mp hj with hj | hj
      · exact hall j hj he
      · rw [List.mem_singleton.mp hj] at he ⊢
        exact hlast he

theorem scan_isBest (l : List ι) : IsBest eligible key top l (scan eligible key top l) := by
  induction l using List.reverseRecOn with
  | nil => exact ⟨rfl, by simp⟩
  | append_singleton l i ih =>
    simp only [scan, List.foldl_append, List.foldl_cons, List.foldl_nil]
    exact isBest_step ih i

theorem scan_some {l : List ι} {i : ι} (h : (scan eligible key top l).1 = some i) :
    i ∈ l ∧ eligible i = true ∧ ∀ j ∈ l, eligible j = true → key i ≤ key j := by
  have hb : IsBest eligible key top l (scan eligible key top l) := scan_isBest l
  rcases hs : scan eligible key top l with ⟨best, k⟩
  rw [hs] at h hb
  cases h
  exact ⟨hb.1, hb.2.1, hb.2.2.2.2⟩

theorem scan_none {l : List ι} (h : (scan eligible key top l).1 = none) :
    ∀ i ∈ l, eligible i = true → top ≤ key i := by
  have hb : IsBest eligible key top l (scan eligible key top l) := scan_isBest l
  rcases hs : scan eligible key top l with ⟨best, k⟩
  rw [hs] at h hb
  cases h
  exact hb.2

/-- The scan of a longer list continues the scan of its first part. -/
theorem scan_append_singleton (l : List ι) (i : ι) :
    scan eligible key top (l ++ [i]) = scanStep eligible key (scan eligible key top l) i := by
  simp [scan, List.foldl_append]

/-- Every eligible element in front of the result has a larger key. -/
theorem scan_leftmost {l : List ι} {i : ι} (h : (scan eligible key top l).1 = some i) :
    ∃ before after, l = before ++ i :: after ∧
      ∀ j ∈ before, eligible j = true → key i < key j := by
  induction l using List.reverseRecOn generalizing i with
  | nil => cases h
  | append_singleton l a ih =>
    rw [scan_append_singleton, scanStep] at h
    split at h
    · rename_i ha
      cases h
      refine ⟨l, [], rfl, fun j hj he => ?_⟩
      -- the key kept so far bounds every eligible key before the new element
      have hb : IsBest eligible key top l (scan eligible key top l) := scan_isBest l
      rcases hs : scan eligible key top l with ⟨best, k⟩
      rw [hs] at hb ha
      cases best with
      | none =>
        obtain ⟨rfl, hall⟩ := hb
        exact ha.2.trans_le (hall j hj he)
      | some b =>
        obtain ⟨-, -, rfl, -, hall⟩ := hb
        exact ha.2.trans_le (hall j hj he)
    · obtain ⟨before, after, hl, hmin⟩ := ih h
      exact ⟨before, after ++ [a], by simp [hl], hmin⟩

/-- When every eligible key is below the initial one, something is found as soon as something is
eligible. -/
theorem scan_exists_iff {l : List ι} (htop : ∀ i ∈ l, eligible i = true → key i < top) :
    (∃ i, (scan eligible key top l).1 = some i) ↔ ∃ i ∈ l, eligible i = true := by
  constructor
  · rintro ⟨i, hi⟩
    obtain ⟨hmem, he, -⟩ := scan_some hi
    exact ⟨i, hmem, he⟩
  · rintro ⟨i, hmem, he⟩
    cases hs : (scan eligible key top l).1 with
    | some b => exact ⟨b, rfl⟩
    | none => exact absurd (htop i hmem he) (not_lt.mpr (scan_none hs i hmem he))

theorem scan_map {ι' : Type*} (f : ι' → ι) (l : List ι') :
    (scan eligible key top (l.map f)).1 =
        (scan (fun i => eligible (f i)) (fun i => key (f i)) top l).1.map f ∧
      (scan eligible key top (l.map f)).2 =
        (scan (fun i => eligible (f i)) (fun i => key (f i)) top l).2 := by
  induction l using List.reverseRecOn with
  | nil => exact ⟨rfl, rfl⟩
  | append_singleton l i ih =>
    rw [List.map_append, List.map_singleton, scan_append_singleton, scan_append_singleton]
    simp only [scanStep, ih.2]
    split
    · exact ⟨rfl, rfl⟩
    · exact ih

theorem scan_congr {eligible' : ι → Bool} {key' : ι → κ} {l : List ι}
    (he : ∀ i ∈ l, eligible i = eligible' i) (hk : ∀ i ∈ l, key i = key' i) :
    scan eligible key top l = scan eligible' key' top l := by
  induction l using List.reverseRecOn with
  | nil => rfl
  | append_singleton l i ih =>
    have hl := ih (fun j hj => he j (List.mem_append_left _ hj))
      fun j hj => hk j (List.mem_append_left _ hj)
    rw [scan_append_singleton, scan_append_singleton, hl, scanStep, scanStep]
    rw [he i (by simp), hk i (by simp)]

/-- A condition may be tested in front of the scan or by it. -/
theorem scan_filter (p : ι → Bool) (l : List ι) :
    scan eligible key top (l.filter p) = scan (fun i => p i && eligible i) key top l := by
  simp only [scan, List.foldl_filter]
  congr 1
  funext acc i
  by_cases hp : p i = true
  · simp [scanStep, hp]
  · simp [scanStep, hp]

/-! ## A sentinel in place of an option -/

def sentinelStep (eligible : ι → Bool) (key : ι → κ) (acc : ι × κ) (i : ι) : ι × κ :=
  if eligible i = true ∧ key i < acc.2 then (i, key i) else acc

/-- The same scan with an arbitrary element where nothing was found. -/
def sentinelScan (eligible : ι → Bool) (key : ι → κ) (start : ι) (top : κ) (l : List ι) : ι × κ :=
  l.foldl (sentinelStep eligible key) (start, top)

theorem sentinelScan_agrees (start : ι) (l : List ι) :
    (sentinelScan eligible key start top l).2 = (scan eligible key top l).2 ∧
      ∀ i, (scan eligible key top l).1 = some i →
        (sentinelScan eligible key start top l).1 = i := by
  induction l using List.reverseRecOn with
  | nil => exact ⟨rfl, fun i h => by cases h⟩
  | append_singleton l a ih =>
    have hstep : sentinelScan eligible key start top (l ++ [a]) =
        sentinelStep eligible key (sentinelScan eligible key start top l) a := by
      simp [sentinelScan, List.foldl_append]
    rw [hstep, scan_append_singleton, sentinelStep, scanStep, ih.1]
    split
    · exact ⟨rfl, fun i h => by simpa using h⟩
    · exact ih

/-- Nothing was found exactly when the key is still the initial one. -/
theorem sentinelScan_eq (start : ι) (l : List ι) :
    (if (sentinelScan eligible key start top l).2 = top then none
      else some (sentinelScan eligible key start top l).1) = (scan eligible key top l).1 := by
  obtain ⟨hkey, hfound⟩ :
      (sentinelScan eligible key start top l).2 = (scan eligible key top l).2 ∧
        ∀ i, (scan eligible key top l).1 = some i →
          (sentinelScan eligible key start top l).1 = i := sentinelScan_agrees start l
  have hb : IsBest eligible key top l (scan eligible key top l) := scan_isBest l
  rw [hkey]
  rcases hs : scan eligible key top l with ⟨best, k⟩
  rw [hs] at hb hfound
  cases best with
  | none =>
    obtain ⟨rfl, -⟩ := hb
    simp
  | some b =>
    obtain ⟨-, -, rfl, hlt, -⟩ := hb
    rw [if_neg hlt.ne, hfound b rfl]

end FirstMinimum
