import Sipahi.CycleSearch
import Sipahi.KeyedScan
import Sipahi.SntmControlFlow
import Sipahi.SntmManifest
import Mathlib.Algebra.Order.BigOperators.Group.List
import Mathlib.Algebra.BigOperators.Group.List.Basic
import Mathlib.Data.List.Sort
import Mathlib.Data.List.Chain

/-!
# The stack analyser

`analyze` sums all frames and fails on an indirect jump or on recursion. The sum bounds the stack
of every chain of calls if the call graph it searches is the one of the text.
-/
namespace SntmStackAnalysis

open KernelTypes KeyedScan CycleSearch RiscvEncoding SntmControlFlow SntmManifest Relation

def unknownSentinel : ℕ := 0xFFFFFFFF

/-- `frames` are the addresses and sizes in `.stack_sizes`, `directCalls` the offsets and targets
of the call relocations. -/
structure ElfStackInfo where
  frames : List (ℕ × ℕ)
  symbols : List (ℕ × String)
  directCalls : List (ℕ × ℕ)
  textBase : ℕ
  textBytes : List UInt8

structure Frame where
  addr : ℕ
  name : String
  size : ℕ
  deriving DecidableEq, Repr

inductive FailReason where
  | indirectCallDetected | recursionDetected | stackSizesMissing | symbolResolveFailed
  deriving DecidableEq, Repr

inductive Status where
  | pass
  | fail (reason : FailReason)
  deriving DecidableEq, Repr

structure AnalysisReport where
  frames : List Frame
  indirectCalls : List IndirectCall
  recursionCycle : Option (List String)
  directCallEdges : ℕ
  sumOfFrames : ℕ
  status : Status
  maxStackBytes : ℕ
  deriving DecidableEq, Repr

/-- The name of the first symbol at the address. -/
def frameName (symbols : List (ℕ × String)) (addr : ℕ) : String :=
  match symbols.find? fun s => s.1 == addr with
  | some s => s.2
  | none => s!"fn_0x{hex addr}"

def joinFramesWithSymbols (elf : ElfStackInfo) : List Frame :=
  (elf.frames.map fun (addr, size) => ⟨addr, frameName elf.symbols addr, size⟩).insertionSort
    fun a b => a.addr ≤ b.addr

section CallGraph

variable {n : ℕ} (starts : Fin n → ℕ)

def enclosingRound (addr : ℕ) (best : Option (Fin n)) (i : Fin n) : Option (Fin n) :=
  if starts i ≤ addr then
    match best with
    | none => some i
    | some b => if starts b < starts i then some i else some b
  else best

/-- The function with the closest start at or below the address. -/
def enclosingFunction (addr : ℕ) : Option (Fin n) :=
  (List.finRange n).foldl (enclosingRound starts addr) none

def addrToIdx : ℕ → Option (Fin n) := table starts id (List.finRange n)

/-- An edge without a function at either end is dropped. -/
def addEdge (adj : Fin n → List (Fin n)) (edge : ℕ × ℕ) : Fin n → List (Fin n) :=
  match enclosingFunction starts edge.1, addrToIdx starts edge.2 with
  | some f, some t => if t ∈ adj f then adj else Function.update adj f (adj f ++ [t])
  | _, _ => adj

def adjacency (edges : List (ℕ × ℕ)) : Fin n → List (Fin n) :=
  edges.foldl (addEdge starts) fun _ => []

end CallGraph

def detectCycle (directEdges : List (ℕ × ℕ)) (frames : List Frame) : Option (List String) :=
  if frames.isEmpty then none
  else
    let adj := adjacency (fun i => (frames.get i).addr) directEdges
    match search adj frames.length (List.finRange frames.length) fun _ => .white with
    | .cycle nodes => some (nodes.map fun i => (frames.get i).name)
    | .done _ | .exhausted => none

/-- Edges of the scan, then edges of the relocations. -/
def mergedDirects (elf : ElfStackInfo) : List (ℕ × ℕ) :=
  ((scanControlFlow elf.textBase elf.textBytes).1.map fun e =>
    ((elf.textBase + e.fromOff) % 2 ^ 64, e.target)) ++
    elf.directCalls.map fun (fromOff, target) => ((elf.textBase + fromOff) % 2 ^ 64, target)

/-- The order in which the reasons are tried. -/
def analysisStatus (indirectCalls : List IndirectCall) (cycle : Option (List String))
    (frames : List Frame) : Status :=
  if !indirectCalls.isEmpty then .fail .indirectCallDetected
  else if cycle.isSome then .fail .recursionDetected
  else if frames.isEmpty then .fail .stackSizesMissing
  else .pass

def maxStackOf (status : Status) (sumOfFrames : ℕ) : ℕ :=
  match status with
  | .pass => if u32Max < sumOfFrames then u32Max else sumOfFrames
  | .fail _ => unknownSentinel

def analyze (elf : ElfStackInfo) : AnalysisReport :=
  let frames := joinFramesWithSymbols elf
  let indirectCalls := (scanControlFlow elf.textBase elf.textBytes).2
  let directs := mergedDirects elf
  let cycle := detectCycle directs frames
  let sumOfFrames := (frames.map Frame.size).sum % 2 ^ 64
  let status := analysisStatus indirectCalls cycle frames
  { frames := frames
    indirectCalls := indirectCalls
    recursionCycle := cycle
    directCallEdges := directs.length
    sumOfFrames := sumOfFrames
    status := status
    maxStackBytes := maxStackOf status sumOfFrames }

/-! ## The call graph of the scan -/

section CallGraph

variable {n : ℕ} {starts : Fin n → ℕ}

/-- The best of the functions seen so far. -/
def BestSoFar (starts : Fin n → ℕ) (addr : ℕ) (seen : List (Fin n)) (best : Option (Fin n)) :
    Prop :=
  match best with
  | none => ∀ i ∈ seen, ¬ starts i ≤ addr
  | some b => starts b ≤ addr ∧ ∀ i ∈ seen, starts i ≤ addr → starts i ≤ starts b

theorem enclosingRound_best {addr : ℕ} {seen : List (Fin n)} {best : Option (Fin n)}
    (h : BestSoFar starts addr seen best) (i : Fin n) :
    BestSoFar starts addr (i :: seen) (enclosingRound starts addr best i) := by
  simp only [enclosingRound]
  split
  · rename_i hi
    cases best with
    | none =>
      refine ⟨hi, fun j hj hle => ?_⟩
      rcases List.mem_cons.mp hj with rfl | hj
      · exact le_rfl
      · exact absurd hle (h j hj)
    | some b =>
      obtain ⟨hb, hmax⟩ := h
      by_cases hlt : starts b < starts i
      · simp only [if_pos hlt]
        refine ⟨hi, fun j hj hle => ?_⟩
        rcases List.mem_cons.mp hj with rfl | hj
        · exact le_rfl
        · exact (hmax j hj hle).trans hlt.le
      · simp only [if_neg hlt]
        refine ⟨hb, fun j hj hle => ?_⟩
        rcases List.mem_cons.mp hj with rfl | hj
        · exact not_lt.mp hlt
        · exact hmax j hj hle
  · rename_i hi
    cases best with
    | none =>
      intro j hj
      rcases List.mem_cons.mp hj with rfl | hj
      · exact hi
      · exact h j hj
    | some b =>
      refine ⟨h.1, fun j hj hle => ?_⟩
      rcases List.mem_cons.mp hj with rfl | hj
      · exact absurd hle hi
      · exact h.2 j hj hle

theorem enclosingFunction_best (starts : Fin n → ℕ) (addr : ℕ) :
    BestSoFar starts addr (List.finRange n) (enclosingFunction starts addr) := by
  have hfold : ∀ (rest seen : List (Fin n)) (best : Option (Fin n)),
      BestSoFar starts addr seen best →
        BestSoFar starts addr (rest.reverse ++ seen)
          (rest.foldl (enclosingRound starts addr) best) := by
    intro rest
    induction rest with
    | nil => exact fun _ _ h => h
    | cons i rest ih =>
      intro seen best h
      rw [List.reverse_cons, List.append_assoc]
      exact ih (i :: seen) _ (enclosingRound_best h i)
  have h := hfold (List.finRange n) [] none (fun i hi => by cases hi)
  cases hbest : enclosingFunction starts addr with
  | none =>
    rw [enclosingFunction] at hbest
    rw [hbest] at h
    exact fun i _ => h i (by simp)
  | some b =>
    rw [enclosingFunction] at hbest
    rw [hbest] at h
    exact ⟨h.1, fun i _ => h.2 i (by simp)⟩

theorem addEdge_mono {adj : Fin n → List (Fin n)} {edge : ℕ × ℕ} {f t : Fin n} (h : t ∈ adj f) :
    t ∈ addEdge starts adj edge f := by
  simp only [addEdge]
  cases enclosingFunction starts edge.1 with
  | none => exact h
  | some f' =>
    cases addrToIdx starts edge.2 with
    | none => exact h
    | some t' =>
      dsimp only
      split
      · exact h
      · by_cases hff : f = f'
        · subst hff
          simp [h]
        · simpa [hff] using h

theorem addEdge_mem {adj : Fin n → List (Fin n)} {edge : ℕ × ℕ} {f t : Fin n}
    (hf : enclosingFunction starts edge.1 = some f) (ht : addrToIdx starts edge.2 = some t) :
    t ∈ addEdge starts adj edge f := by
  rw [addEdge, hf, ht]
  dsimp only
  split
  · assumption
  · simp

theorem adjacency_mem {edges : List (ℕ × ℕ)} {edge : ℕ × ℕ} {f t : Fin n} (he : edge ∈ edges)
    (hf : enclosingFunction starts edge.1 = some f) (ht : addrToIdx starts edge.2 = some t) :
    t ∈ adjacency starts edges f := by
  have hmono : ∀ (rest : List (ℕ × ℕ)) (adj : Fin n → List (Fin n)), t ∈ adj f →
      t ∈ rest.foldl (addEdge starts) adj f := by
    intro rest
    induction rest with
    | nil => exact fun _ h => h
    | cons e rest ih => exact fun adj h => ih _ (addEdge_mono h)
  have hmem : ∀ (rest : List (ℕ × ℕ)) (adj : Fin n → List (Fin n)), edge ∈ rest →
      t ∈ rest.foldl (addEdge starts) adj f := by
    intro rest
    induction rest with
    | nil => intro adj h; cases h
    | cons e rest ih =>
      intro adj h
      rcases List.mem_cons.mp h with rfl | h
      · exact hmono rest _ (addEdge_mem hf ht)
      · exact ih _ h
  exact hmem edges _ he

end CallGraph

theorem detectCycle_none {edges : List (ℕ × ℕ)} {frames : List Frame}
    (h : detectCycle edges frames = none) (i : Fin frames.length) :
    ¬ TransGen (fun v w => w ∈ adjacency (fun i => (frames.get i).addr) edges v) i i := by
  rw [detectCycle] at h
  split at h
  · rename_i hempty
    have hlength : frames.length = 0 := by simp [List.isEmpty_iff.mp hempty]
    have hlt := i.isLt
    omega
  · dsimp only at h
    split at h
    · cases h
    · rename_i color hsearch
      exact search_acyclic hsearch (List.mem_finRange i)
    · rename_i hsearch
      have hfuel : search (adjacency (fun i => (frames.get i).addr) edges)
          (Fintype.card (Fin frames.length)) (List.finRange frames.length) (fun _ => .white) ≠
            .exhausted := search_terminates _ _
      rw [Fintype.card_fin] at hfuel
      exact absurd hsearch hfuel

/-! ## The calls of the text -/

namespace ElfStackInfo

variable (elf : ElfStackInfo)

/-- The function `f` is the last one that starts at or below the address. -/
def Encloses (f : ℕ × ℕ) (addr : ℕ) : Prop :=
  f ∈ elf.frames ∧ f.1 ≤ addr ∧ ∀ g ∈ elf.frames, g.1 ≤ addr → g.1 ≤ f.1

/-- The transfer `t` is in `f` and its target is not. -/
def Leaves (f : ℕ × ℕ) (t : Transfer) : Prop :=
  t ∈ transfers (sweep elf.textBase 0 elf.textBytes) ∧ elf.Encloses f t.pc ∧
    ¬ elf.Encloses f t.target

instance (f : ℕ × ℕ) (addr : ℕ) : Decidable (elf.Encloses f addr) :=
  inferInstanceAs (Decidable (_ ∧ _ ∧ ∀ g ∈ elf.frames, _))

instance (f : ℕ × ℕ) (t : Transfer) : Decidable (elf.Leaves f t) :=
  inferInstanceAs (Decidable (_ ∧ _))

/-- Some transfer leaves `f` for the start of `g`. -/
def Calls (f g : ℕ × ℕ) : Prop := g ∈ elf.frames ∧ ∃ t, elf.Leaves f t ∧ t.target = g.1

def IsCallChain (fs : List (ℕ × ℕ)) : Prop := (∀ f ∈ fs, f ∈ elf.frames) ∧ fs.IsChain elf.Calls

def totalOfFrames : ℕ := (elf.frames.map Prod.snd).sum

end ElfStackInfo

/-- The number bounds the stack of every chain of calls. -/
structure StackBounded (elf : ElfStackInfo) (maxStack : ℕ) : Prop where
  resolved : ∀ f t, elf.Leaves f t → ∃ g ∈ elf.frames, t.target = g.1
  acyclic : ∀ f, ¬ TransGen elf.Calls f f
  bounded : ∀ fs, elf.IsCallChain fs → (fs.map Prod.snd).sum ≤ maxStack

/-- What `analyze` does not look at: targets between functions, cycles closed by a `c.j`, and sums
that do not fit. -/
structure Analysable (elf : ElfStackInfo) : Prop where
  resolved : ∀ f t, elf.Leaves f t → ∃ g ∈ elf.frames, t.target = g.1
  compressed : ∀ f g t, elf.Leaves f t → t.compressed = true → g ∈ elf.frames → t.target = g.1 →
    ¬ ReflTransGen elf.Calls g f
  fits : ∀ fs, elf.IsCallChain fs → (fs.map Prod.snd).sum ≤ u32Max ∧
    (2 ^ 64 ≤ elf.totalOfFrames → (fs.map Prod.snd).sum ≤ elf.totalOfFrames % 2 ^ 64)

/-- The start of the function at an index of the sorted table. -/
def startOf (elf : ElfStackInfo) (i : Fin (joinFramesWithSymbols elf).length) : ℕ :=
  ((joinFramesWithSymbols elf).get i).addr

section

variable {elf : ElfStackInfo}

theorem joined_perm (elf : ElfStackInfo) :
    ((joinFramesWithSymbols elf).map fun f => (f.addr, f.size)).Perm elf.frames := by
  have hsorted := List.perm_insertionSort (fun a b : Frame => a.addr ≤ b.addr)
    (elf.frames.map fun (addr, size) => ⟨addr, frameName elf.symbols addr, size⟩)
  have hmap := hsorted.map fun f : Frame => (f.addr, f.size)
  rw [List.map_map] at hmap
  simpa [joinFramesWithSymbols, Function.comp_def] using hmap

theorem joined_sum (elf : ElfStackInfo) :
    ((joinFramesWithSymbols elf).map Frame.size).sum = elf.totalOfFrames := by
  have hperm := (joined_perm elf).map Prod.snd
  rw [List.map_map] at hperm
  exact hperm.sum_eq

theorem startOf_mem (i : Fin (joinFramesWithSymbols elf).length) :
    ∃ f ∈ elf.frames, f.1 = startOf elf i := by
  have hmem : (joinFramesWithSymbols elf).get i ∈ joinFramesWithSymbols elf := List.get_mem _ _
  exact ⟨_, (joined_perm elf).mem_iff.mp (List.mem_map_of_mem hmem), rfl⟩

theorem exists_startOf {f : ℕ × ℕ} (hf : f ∈ elf.frames) : ∃ i, startOf elf i = f.1 := by
  obtain ⟨frame, hframe, hpair⟩ := List.mem_map.mp ((joined_perm elf).mem_iff.mpr hf)
  obtain ⟨i, hi⟩ := List.get_of_mem hframe
  refine ⟨i, ?_⟩
  rw [startOf, hi, ← hpair]

theorem startOf_injective (hnodup : (elf.frames.map Prod.fst).Nodup) :
    Function.Injective (startOf elf) := by
  have hperm := (joined_perm elf).map Prod.fst
  rw [List.map_map] at hperm
  have haddr : ((joinFramesWithSymbols elf).map Frame.addr).Nodup := hperm.nodup_iff.mpr hnodup
  intro i j hij
  have hget := List.nodup_iff_injective_get.mp haddr
  have hi : i.val < ((joinFramesWithSymbols elf).map Frame.addr).length := by simp
  have hj : j.val < ((joinFramesWithSymbols elf).map Frame.addr).length := by simp
  have heq : (⟨i.val, hi⟩ : Fin _) = ⟨j.val, hj⟩ := by
    apply hget
    simpa [startOf] using hij
  exact Fin.ext (Fin.mk.inj heq)

theorem addrToIdx_start (hnodup : (elf.frames.map Prod.fst).Nodup)
    (i : Fin (joinFramesWithSymbols elf).length) :
    addrToIdx (startOf elf) (startOf elf i) = some i := by
  have hkeys : ((List.finRange (joinFramesWithSymbols elf).length).map (startOf elf)).Nodup :=
    (List.nodup_finRange _).map (startOf_injective hnodup)
  exact table_of_nodup hkeys (List.mem_finRange i)

/-- The analyser agrees about the function that holds an address. -/
theorem enclosing_index {f : ℕ × ℕ} {addr : ℕ} (h : elf.Encloses f addr) :
    ∃ i, enclosingFunction (startOf elf) addr = some i ∧ startOf elf i = f.1 := by
  obtain ⟨hf, hle, hlast⟩ := h
  obtain ⟨k, hk⟩ := exists_startOf hf
  have hbest := enclosingFunction_best (startOf elf) addr
  cases hindex : enclosingFunction (startOf elf) addr with
  | none =>
    rw [hindex] at hbest
    exact absurd (hk ▸ hle) (hbest k (List.mem_finRange k))
  | some i =>
    rw [hindex] at hbest
    obtain ⟨hi, hmax⟩ := hbest
    obtain ⟨g, hg, hgi⟩ := startOf_mem i
    refine ⟨i, rfl, le_antisymm ?_ ?_⟩
    · rw [← hgi]
      exact hlast g hg (hgi ▸ hi)
    · rw [← hk]
      exact hmax k (List.mem_finRange k) (hk ▸ hle)

/-- A call by a 32-bit instruction is an edge of the graph that is searched. -/
theorem word_edge (hnodup : (elf.frames.map Prod.fst).Nodup) {f g : ℕ × ℕ} {t : Transfer}
    (hleaves : elf.Leaves f t) (hword : t.compressed = false) (hg : g ∈ elf.frames)
    (htarget : t.target = g.1) :
    ∃ i j, startOf elf i = f.1 ∧ startOf elf j = g.1 ∧
      j ∈ adjacency (startOf elf) (mergedDirects elf) i := by
  obtain ⟨hmem, hencloses, -⟩ := hleaves
  obtain ⟨d, hd, hpc, hdtarget⟩ := scanFrom_finds hmem hword
  obtain ⟨i, hi, hstart⟩ := enclosing_index hencloses
  obtain ⟨j, hj⟩ := exists_startOf hg
  have hedge : (t.pc, t.target) ∈ mergedDirects elf := by
    apply List.mem_append_left
    rw [List.mem_map]
    exact ⟨d, hd, by rw [hpc, hdtarget]⟩
  refine ⟨i, j, hstart, hj, adjacency_mem hedge hi ?_⟩
  rw [htarget, ← hj]
  exact addrToIdx_start hnodup j

/-- On a cycle that no `c.j` closes, every call is one by a 32-bit instruction. -/
theorem word_path (hnodup : (elf.frames.map Prod.fst).Nodup)
    (hcompressed : ∀ f g t, elf.Leaves f t → t.compressed = true → g ∈ elf.frames →
      t.target = g.1 → ¬ ReflTransGen elf.Calls g f)
    {f g : ℕ × ℕ} (h : TransGen elf.Calls f g) (hback : ReflTransGen elf.Calls g f) :
    ∃ i j, startOf elf i = f.1 ∧ startOf elf j = g.1 ∧
      TransGen (fun v w => w ∈ adjacency (startOf elf) (mergedDirects elf) v) i j := by
  have hedge : ∀ x y, elf.Calls x y → ReflTransGen elf.Calls y x →
      ∃ i j, startOf elf i = x.1 ∧ startOf elf j = y.1 ∧
        j ∈ adjacency (startOf elf) (mergedDirects elf) i := by
    rintro x y ⟨hy, t, hleaves, htarget⟩ hyx
    cases hword : t.compressed with
    | false => exact word_edge hnodup hleaves hword hy htarget
    | true => exact absurd hyx (hcompressed x y t hleaves hword hy htarget)
  induction h with
  | single hcall =>
    obtain ⟨i, j, hi, hj, hij⟩ := hedge _ _ hcall hback
    exact ⟨i, j, hi, hj, .single hij⟩
  | @tail y z hxy hyz ih =>
    obtain ⟨i, j, hi, hj, hpath⟩ := ih (.head hyz hback)
    obtain ⟨k, l, hk, hl, hkl⟩ := hedge _ _ hyz (hback.trans hxy.to_reflTransGen)
    have hjk : j = k := startOf_injective hnodup (hj.trans hk.symm)
    subst hjk
    exact ⟨i, l, hi, hl, hpath.tail hkl⟩

theorem chain_nodup {fs : List (ℕ × ℕ)} (hacyclic : ∀ f, ¬ TransGen elf.Calls f f)
    (h : fs.IsChain elf.Calls) : fs.Nodup := by
  have htrans : fs.IsChain (TransGen elf.Calls) := h.imp fun _ _ hc => .single hc
  have hpairs : fs.Pairwise (TransGen elf.Calls) := List.isChain_iff_pairwise.mp htrans
  refine hpairs.imp fun {a b} hab heq => ?_
  subst heq
  exact hacyclic _ hab

theorem chain_sum_le {fs : List (ℕ × ℕ)} (hacyclic : ∀ f, ¬ TransGen elf.Calls f f)
    (h : elf.IsCallChain fs) : (fs.map Prod.snd).sum ≤ elf.totalOfFrames := by
  obtain ⟨sub, hperm, hsub⟩ := (chain_nodup hacyclic h.2).subperm h.1
  rw [← (hperm.map Prod.snd).sum_eq]
  exact (hsub.map Prod.snd).sum_le_sum fun _ _ => Nat.zero_le _

/-- A pass has found no cycle; its bound is the truncated sum. -/
theorem analyze_pass (h : (analyze elf).status = .pass) :
    detectCycle (mergedDirects elf) (joinFramesWithSymbols elf) = none ∧
      (analyze elf).maxStackBytes = min u32Max (elf.totalOfFrames % 2 ^ 64) := by
  have hmax : (analyze elf).maxStackBytes =
      maxStackOf (analyze elf).status (elf.totalOfFrames % 2 ^ 64) := by
    rw [← joined_sum]
    rfl
  rw [hmax, h]
  constructor
  · have hstatus : analysisStatus (analyze elf).indirectCalls
        (detectCycle (mergedDirects elf) (joinFramesWithSymbols elf)) (analyze elf).frames =
        .pass := h
    rw [analysisStatus] at hstatus
    split at hstatus
    · cases hstatus
    · split at hstatus
      · cases hstatus
      · rename_i hnone
        simpa using hnone
  · rw [maxStackOf]
    split <;> omega

theorem bounded_of_analysable (hnodup : (elf.frames.map Prod.fst).Nodup)
    (hpass : (analyze elf).status = .pass) (h : Analysable elf) :
    StackBounded elf (analyze elf).maxStackBytes := by
  obtain ⟨hcycle, hmax⟩ := analyze_pass hpass
  have hacyclic : ∀ f, ¬ TransGen elf.Calls f f := by
    intro f hf
    obtain ⟨i, j, hi, hj, hpath⟩ := word_path hnodup h.compressed hf .refl
    have hij : i = j := startOf_injective hnodup (hi.trans hj.symm)
    subst hij
    exact detectCycle_none hcycle i hpath
  refine ⟨h.resolved, hacyclic, fun fs hfs => ?_⟩
  obtain ⟨hfits, hwrap⟩ := h.fits fs hfs
  have hle := chain_sum_le hacyclic hfs
  rw [hmax, le_min_iff]
  refine ⟨hfits, ?_⟩
  by_cases htotal : 2 ^ 64 ≤ elf.totalOfFrames
  · exact hwrap htotal
  · rw [Nat.mod_eq_of_lt (not_le.mp htotal)]
    exact hle

theorem analysable_of_bounded (hpass : (analyze elf).status = .pass)
    (h : StackBounded elf (analyze elf).maxStackBytes) : Analysable elf := by
  obtain ⟨-, hmax⟩ := analyze_pass hpass
  refine ⟨h.resolved, ?_, fun fs hfs => ?_⟩
  · intro f g t hleaves _ hg htarget hback
    exact h.acyclic f (.head' ⟨hg, t, hleaves, htarget⟩ hback)
  · have hle := h.bounded fs hfs
    rw [hmax, le_min_iff] at hle
    exact ⟨hle.1, fun _ => hle.2⟩

end

/-- A pass bounds the stack of the text exactly when the text is analysable. -/
theorem pass_bounds_iff (elf : ElfStackInfo) (hnodup : (elf.frames.map Prod.fst).Nodup)
    (hpass : (analyze elf).status = .pass) :
    StackBounded elf (analyze elf).maxStackBytes ↔ Analysable elf :=
  ⟨analysable_of_bounded hpass, bounded_of_analysable hnodup hpass⟩

/-- A caller with one `jal` to the function behind it. -/
def callerCallee : ElfStackInfo where
  frames := [(0x80600000, 16), (0x80600008, 32)]
  symbols := [(0x80600000, "main"), (0x80600008, "helper")]
  directCalls := []
  textBase := 0x80600000
  textBytes := [0xEF, 0x00, 0x80, 0x00, 0x67, 0x80, 0x00, 0x00, 0x67, 0x80, 0x00, 0x00]

theorem callerCallee_transfers :
    transfers (sweep callerCallee.textBase 0 callerCallee.textBytes) =
      [⟨0x80600000, 0x80600008, false⟩] := by
  decide +kernel

theorem callerCallee_forward {f g : ℕ × ℕ} (h : callerCallee.Calls f g) : f.1 < g.1 := by
  obtain ⟨hg, t, ⟨hmem, ⟨hf, hle, -⟩, -⟩, htarget⟩ := h
  rw [callerCallee_transfers, List.mem_singleton] at hmem
  subst hmem
  rw [← htarget]
  exact lt_of_le_of_lt hle (by decide)

theorem callerCallee_bounded : (analyze callerCallee).status = .pass ∧
    StackBounded callerCallee (analyze callerCallee).maxStackBytes := by
  have hpass : (analyze callerCallee).status = .pass := by decide +kernel
  refine ⟨hpass, (pass_bounds_iff callerCallee (by decide) hpass).mpr ⟨?_, ?_, ?_⟩⟩
  · intro f t hleaves
    have hmem := hleaves.1
    rw [callerCallee_transfers, List.mem_singleton] at hmem
    subst hmem
    exact ⟨(0x80600008, 32), by decide, rfl⟩
  · intro f g t hleaves hcompressed
    have hmem := hleaves.1
    rw [callerCallee_transfers, List.mem_singleton] at hmem
    subst hmem
    cases hcompressed
  · intro fs hfs
    have hacyclic : ∀ f, ¬ TransGen callerCallee.Calls f f := by
      intro f hf
      have hlt : ∀ {a b : ℕ × ℕ}, TransGen callerCallee.Calls a b → a.1 < b.1 := by
        intro a b hab
        induction hab with
        | single h => exact callerCallee_forward h
        | tail _ h ih => exact ih.trans (callerCallee_forward h)
      exact lt_irrefl _ (hlt hf)
    have hle : (fs.map Prod.snd).sum ≤ 48 := chain_sum_le hacyclic hfs
    have htotal : callerCallee.totalOfFrames = 48 := by decide
    rw [htotal, u32Max]
    omega

/-- `ping` calls `pong` with a `jal`, `pong` returns to the start of `ping` with a `c.j`; the scan
attributes the latter to the function at the base of the text. -/
def pingPong : ElfStackInfo where
  frames := [(0x80600000, 0), (0x80600004, 16), (0x8060000C, 16)]
  symbols := [(0x80600000, "start"), (0x80600004, "ping"), (0x8060000C, "pong")]
  directCalls := []
  textBase := 0x80600000
  textBytes := [0x82, 0x80, 0x01, 0x00, 0xEF, 0x00, 0x80, 0x00, 0x82, 0x80, 0x01, 0x00, 0xE5, 0xBF]

theorem recursion_through_cj_passes :
    ¬ ∀ elf : ElfStackInfo, (elf.frames.map Prod.fst).Nodup → (analyze elf).status = .pass →
      StackBounded elf (analyze elf).maxStackBytes := by
  intro hall
  have hbounded := hall pingPong (by decide) (by decide +kernel)
  have hping : pingPong.Leaves (0x80600004, 16) ⟨0x80600004, 0x8060000C, false⟩ := by
    decide +kernel
  have hpong : pingPong.Leaves (0x8060000C, 16) ⟨0x8060000C, 0x80600004, true⟩ := by
    decide +kernel
  have hcall : pingPong.Calls (0x80600004, 16) (0x8060000C, 16) := ⟨by decide, _, hping, rfl⟩
  have hback : pingPong.Calls (0x8060000C, 16) (0x80600004, 16) := ⟨by decide, _, hpong, rfl⟩
  exact hbounded.acyclic _ (.tail (.single hcall) hback)

end SntmStackAnalysis
