import Sipahi.SntmStackAnalysis

/-!
# Recursion in the call graph of the analyser

The graph that `detect_cycle` searches is the one that the sorted function table and the listed
edges describe.
-/
namespace SntmRecursion

open KeyedScan CycleSearch SntmStackAnalysis Relation

variable {frames : List Frame} {edges : List (ℕ × ℕ)}

/-- The start of the function at an index of the table. -/
def startAt (frames : List Frame) (i : Fin frames.length) : ℕ := (frames.get i).addr

/-- The address lies at or after the start of function `i` and before that of the next one. -/
def Within (frames : List Frame) (i : Fin frames.length) (addr : ℕ) : Prop :=
  startAt frames i ≤ addr ∧ ∀ next, frames[i.val + 1]? = some next → addr < next.addr

/-- A listed edge leads from inside function `i` to the start of function `j`. -/
def Calls (frames : List Frame) (edges : List (ℕ × ℕ)) (i j : Fin frames.length) : Prop :=
  ∃ e ∈ edges, Within frames i e.1 ∧ e.2 = startAt frames j

/-- The table is sorted by address and no address stands in it twice. -/
structure IsTable (frames : List Frame) : Prop where
  sorted : frames.Pairwise fun f g => f.addr ≤ g.addr
  distinct : (frames.map Frame.addr).Nodup

theorem startAt_lt (h : IsTable frames) {i j : Fin frames.length} (hij : i < j) :
    startAt frames i < startAt frames j := by
  have hle := List.pairwise_iff_getElem.mp h.sorted i.val j.val i.isLt j.isLt hij
  have hne := List.pairwise_iff_getElem.mp (List.pairwise_map.mp h.distinct) i.val j.val i.isLt
    j.isLt hij
  exact lt_of_le_of_ne hle hne

theorem startAt_strictMono (h : IsTable frames) : StrictMono (startAt frames) :=
  fun _ _ hij => startAt_lt h hij

theorem within_next {i : Fin frames.length} {addr : ℕ} (h : Within frames i addr)
    {j : Fin frames.length} (hj : i.val + 1 = j.val) : addr < startAt frames j := by
  apply h.2
  rw [hj]
  exact List.getElem?_eq_getElem j.isLt

theorem within_iff (h : IsTable frames) {i : Fin frames.length} {addr : ℕ} :
    Within frames i addr ↔
      startAt frames i ≤ addr ∧ ∀ j, startAt frames j ≤ addr → startAt frames j ≤ startAt frames i := by
  constructor
  · intro hw
    refine ⟨hw.1, ?_⟩
    intro j hj
    by_contra hlt
    have hij : i < j := (startAt_strictMono h).lt_iff_lt.mp (not_le.mp hlt)
    have hnext : i.val + 1 < frames.length := by omega
    have hbefore : addr < startAt frames ⟨i.val + 1, hnext⟩ := within_next hw rfl
    have hle : startAt frames ⟨i.val + 1, hnext⟩ ≤ startAt frames j :=
      (startAt_strictMono h).monotone hij
    omega
  · rintro ⟨hle, hlast⟩
    refine ⟨hle, ?_⟩
    intro next hnext
    obtain ⟨hlt, rfl⟩ := List.getElem?_eq_some_iff.mp hnext
    by_contra hge
    have hback := hlast ⟨i.val + 1, hlt⟩ (not_lt.mp hge)
    have hforward : startAt frames i < startAt frames ⟨i.val + 1, hlt⟩ :=
      startAt_lt h (Fin.lt_def.mpr (Nat.lt_succ_self _))
    omega

theorem enclosingFunction_iff (h : IsTable frames) {i : Fin frames.length} {addr : ℕ} :
    enclosingFunction (startAt frames) addr = some i ↔ Within frames i addr := by
  have hbest := enclosingFunction_best (startAt frames) addr
  rw [within_iff h]
  cases hfound : enclosingFunction (startAt frames) addr with
  | none =>
    rw [hfound] at hbest
    constructor
    · intro hi
      cases hi
    · rintro ⟨hle, -⟩
      exact absurd hle (hbest i (List.mem_finRange i))
  | some b =>
    rw [hfound] at hbest
    obtain ⟨hb, hmax⟩ := hbest
    rw [Option.some.injEq]
    constructor
    · rintro rfl
      exact ⟨hb, fun j hj => hmax j (List.mem_finRange j) hj⟩
    · rintro ⟨hle, hlast⟩
      exact (startAt_strictMono h).injective
        (le_antisymm (hlast b hb) (hmax i (List.mem_finRange i) hle))

theorem addrToIdx_iff (h : IsTable frames) {j : Fin frames.length} {addr : ℕ} :
    addrToIdx (startAt frames) addr = some j ↔ addr = startAt frames j := by
  have hkeys : ((List.finRange frames.length).map (startAt frames)).Nodup :=
    (List.nodup_finRange _).map (startAt_strictMono h).injective
  have hown : ∀ k, addrToIdx (startAt frames) (startAt frames k) = some k := by
    intro k
    exact table_of_nodup hkeys (List.mem_finRange k)
  constructor
  · intro hj
    have hmem : addr ∈ (List.finRange frames.length).map (startAt frames) := by
      by_contra hnot
      rw [addrToIdx, table_of_notMem hnot] at hj
      cases hj
    obtain ⟨k, -, rfl⟩ := List.mem_map.mp hmem
    rw [Option.some.inj ((hown k).symm.trans hj)]
  · rintro rfl
    exact hown j

theorem mem_addEdge {n : ℕ} {starts : Fin n → ℕ} {adj : Fin n → List (Fin n)} {edge : ℕ × ℕ}
    {f t : Fin n} (h : t ∈ addEdge starts adj edge f) :
    t ∈ adj f ∨ enclosingFunction starts edge.1 = some f ∧ addrToIdx starts edge.2 = some t := by
  rw [addEdge] at h
  cases hf : enclosingFunction starts edge.1 with
  | none =>
    rw [hf] at h
    exact Or.inl h
  | some f' =>
    cases ht : addrToIdx starts edge.2 with
    | none =>
      rw [hf, ht] at h
      exact Or.inl h
    | some t' =>
      rw [hf, ht] at h
      dsimp only at h
      split at h
      · exact Or.inl h
      · by_cases hff : f = f'
        · subst hff
          rw [Function.update_self, List.mem_append, List.mem_singleton] at h
          rcases h with h | rfl
          · exact Or.inl h
          · exact Or.inr ⟨rfl, rfl⟩
        · rw [Function.update_of_ne hff] at h
          exact Or.inl h

theorem adjacency_iff {n : ℕ} {starts : Fin n → ℕ} {f t : Fin n} :
    t ∈ adjacency starts edges f ↔ ∃ e ∈ edges,
      enclosingFunction starts e.1 = some f ∧ addrToIdx starts e.2 = some t := by
  constructor
  · intro h
    have hfold : ∀ (rest : List (ℕ × ℕ)) (adj : Fin n → List (Fin n)),
        t ∈ rest.foldl (addEdge starts) adj f → t ∈ adj f ∨ ∃ e ∈ rest,
          enclosingFunction starts e.1 = some f ∧ addrToIdx starts e.2 = some t := by
      intro rest
      induction rest with
      | nil => exact fun _ h => Or.inl h
      | cons e rest ih =>
        intro adj h
        rcases ih _ h with hadj | ⟨e', he', hends⟩
        · rcases mem_addEdge hadj with hold | hends
          · exact Or.inl hold
          · exact Or.inr ⟨e, List.mem_cons_self, hends⟩
        · exact Or.inr ⟨e', List.mem_cons_of_mem e he', hends⟩
    rcases hfold edges _ h with hnil | hedge
    · cases hnil
    · exact hedge
  · rintro ⟨e, he, hf, ht⟩
    exact adjacency_mem he hf ht

theorem adjacency_calls (h : IsTable frames) {i j : Fin frames.length} :
    j ∈ adjacency (startAt frames) edges i ↔ Calls frames edges i j := by
  rw [adjacency_iff]
  constructor
  · rintro ⟨e, he, hf, ht⟩
    exact ⟨e, he, (enclosingFunction_iff h).mp hf, (addrToIdx_iff h).mp ht⟩
  · rintro ⟨e, he, hf, ht⟩
    exact ⟨e, he, (enclosingFunction_iff h).mpr hf, (addrToIdx_iff h).mpr ht⟩

theorem detectCycle_some {names : List String} (h : detectCycle edges frames = some names) :
    ∃ nodes, names = nodes.map (fun i => (frames.get i).name) ∧
      ClosedWalk (adjacency (startAt frames) edges) nodes := by
  rw [detectCycle] at h
  split at h
  · cases h
  · dsimp only at h
    split at h
    · rename_i nodes hsearch
      cases h
      exact ⟨nodes, rfl, search_cycle (fun _ => Color.noConfusion) hsearch⟩
    · cases h
    · cases h

/-- A cycle is reported exactly when the call graph has one, and the names reported are those of
the functions along a cycle. -/
theorem recursion_detected_iff (frames : List Frame) (edges : List (ℕ × ℕ))
    (hsorted : frames.Pairwise fun f g => f.addr ≤ g.addr)
    (hdistinct : (frames.map Frame.addr).Nodup) :
    ((detectCycle edges frames).isSome = true ↔ ∃ i, TransGen (Calls frames edges) i i) ∧
    ∀ names, detectCycle edges frames = some names →
      ∃ nodes : List (Fin frames.length), names = nodes.map (fun i => (frames.get i).name) ∧
        2 ≤ nodes.length ∧ nodes.IsChain (Calls frames edges) ∧ nodes.head? = nodes.getLast? := by
  have htable : IsTable frames := ⟨hsorted, hdistinct⟩
  have hgraph : (fun v w => w ∈ adjacency (startAt frames) edges v) = Calls frames edges := by
    funext v w
    exact propext (adjacency_calls htable)
  constructor
  · constructor
    · intro h
      obtain ⟨names, hnames⟩ := Option.isSome_iff_exists.mp h
      obtain ⟨nodes, -, hwalk⟩ := detectCycle_some hnames
      exact hgraph ▸ hwalk.cycle
    · rintro ⟨i, hi⟩
      by_contra hnone
      have hclear := detectCycle_none (Option.not_isSome_iff_eq_none.mp hnone) i
      exact hclear (hgraph ▸ hi)
  · intro names hnames
    obtain ⟨nodes, rfl, hchain, hclosed, hlong⟩ := detectCycle_some hnames
    exact ⟨nodes, rfl, hlong, hgraph ▸ hchain, hclosed⟩

/-- Two functions that call each other. -/
def mutualFrames : List Frame := [⟨0x80600000, "a", 32⟩, ⟨0x80600100, "b", 32⟩]

def mutualEdges : List (ℕ × ℕ) := [(0x80600000, 0x80600100), (0x80600100, 0x80600000)]

theorem mutual_recursion_found : detectCycle mutualEdges mutualFrames = some ["a", "b", "a"] ∧
    ∃ i, TransGen (Calls mutualFrames mutualEdges) i i := by
  have hfound : detectCycle mutualEdges mutualFrames = some ["a", "b", "a"] := by decide
  refine ⟨hfound, ?_⟩
  apply (recursion_detected_iff mutualFrames mutualEdges (by decide) (by decide)).1.mp
  rw [hfound]
  rfl

end SntmRecursion
