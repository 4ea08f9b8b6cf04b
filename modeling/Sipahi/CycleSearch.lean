import Mathlib.Data.Fintype.Card
import Mathlib.Data.List.Chain
import Mathlib.Logic.Function.Basic
import Mathlib.Logic.Relation

/-!
# Depth-first search for a cycle

Three colours, a path of the gray nodes and an early exit at the first back edge. The recursion is
bounded by fuel; as many units as there are white nodes are enough.
-/
namespace CycleSearch

inductive Color where
  | white | gray | black
  deriving DecidableEq, Repr

inductive Outcome (α : Type*) where
  | cycle (nodes : List α)
  | done (color : α → Color)
  | exhausted

section

variable {α : Type*}

/-- Continue with the colours of an outcome that is not final. -/
def Outcome.andThen (o : Outcome α) (next : (α → Color) → Outcome α) : Outcome α :=
  match o with
  | .done color => next color
  | .cycle nodes => .cycle nodes
  | .exhausted => .exhausted

theorem andThen_done {o : Outcome α} {next : (α → Color) → Outcome α} {color : α → Color}
    (h : o.andThen next = .done color) : ∃ mid, o = .done mid ∧ next mid = .done color := by
  cases o with
  | done mid => exact ⟨mid, rfl, h⟩
  | cycle nodes => cases h
  | exhausted => cases h

theorem andThen_exhausted {o : Outcome α} {next : (α → Color) → Outcome α}
    (h : o.andThen next = .exhausted) :
    o = .exhausted ∨ ∃ mid, o = .done mid ∧ next mid = .exhausted := by
  cases o with
  | done mid => exact Or.inr ⟨mid, rfl, h⟩
  | cycle nodes => cases h
  | exhausted => exact Or.inl rfl

theorem andThen_cycle {o : Outcome α} {next : (α → Color) → Outcome α} {nodes : List α}
    (h : o.andThen next = .cycle nodes) :
    o = .cycle nodes ∨ ∃ mid, o = .done mid ∧ next mid = .cycle nodes := by
  cases o with
  | done mid => exact Or.inr ⟨mid, rfl, h⟩
  | cycle nodes' => exact Or.inl h
  | exhausted => cases h

/-- Every descending path from a black node ends. -/
def Settled (adj : α → List α) (color : α → Color) : Prop :=
  ∀ u, color u = .black → Acc (fun v w => v ∈ adj w) u

/-- What a search that ends without a cycle does to the colours. -/
structure Explored (adj : α → List α) (color color' : α → Color) : Prop where
  settled : Settled adj color → Settled adj color'
  black : ∀ w, color w = .black → color' w = .black
  gray : ∀ w, color' w = .gray → color w = .gray
  white : ∀ w, color' w = .white → color w = .white

theorem Explored.refl {adj : α → List α} (color : α → Color) : Explored adj color color :=
  ⟨fun h => h, fun _ h => h, fun _ h => h, fun _ h => h⟩

theorem Explored.trans {adj : α → List α} {a b c : α → Color} (h : Explored adj a b)
    (k : Explored adj b c) : Explored adj a c :=
  ⟨fun hs => k.settled (h.settled hs), fun w hw => k.black w (h.black w hw),
    fun w hw => h.gray w (k.gray w hw), fun w hw => h.white w (k.white w hw)⟩

theorem acc_not_cycle {r : α → α → Prop} {u : α} (h : Acc r u) : ¬ Relation.TransGen r u u := by
  intro hcycle
  have htrans := h.transGen
  clear h
  induction htrans with
  | intro x _ ih => exact ih x hcycle hcycle

def whites [Fintype α] (color : α → Color) : ℕ :=
  (Finset.univ.filter fun u => color u = .white).card

theorem whites_le [Fintype α] {color color' : α → Color}
    (h : ∀ w, color' w = .white → color w = .white) : whites color' ≤ whites color := by
  apply Finset.card_le_card
  intro w hw
  simp only [Finset.mem_filter, Finset.mem_univ, true_and] at hw ⊢
  exact h w hw

end

variable {α : Type*} [DecidableEq α]

/-- The path from the first occurrence of `v` on, closed with `v`. -/
def cycleOf (path : List α) (v : α) : List α :=
  path.drop ((path.findIdx? (· == v)).getD 0) ++ [v]

def visitChildren (visit : α → (α → Color) → Outcome α) (path : List α) :
    List α → (α → Color) → Outcome α
  | [], color => .done color
  | v :: vs, color =>
    match color v with
    | .gray => .cycle (cycleOf path v)
    | .white => (visit v color).andThen (visitChildren visit path vs)
    | .black => visitChildren visit path vs color

def visit (adj : α → List α) : ℕ → List α → α → (α → Color) → Outcome α
  | 0, _, _, _ => .exhausted
  | fuel + 1, path, u, color =>
    (visitChildren (visit adj fuel (path ++ [u])) (path ++ [u]) (adj u)
      (Function.update color u .gray)).andThen fun color => .done (Function.update color u .black)

def search (adj : α → List α) (fuel : ℕ) : List α → (α → Color) → Outcome α
  | [], color => .done color
  | u :: us, color =>
    if color u = .white then (visit adj fuel [] u color).andThen (search adj fuel us)
    else search adj fuel us color

/-! ## Black nodes reach no cycle -/

variable {adj : α → List α}

theorem visitChildren_done {visit : α → (α → Color) → Outcome α} {path vs : List α}
    {color color' : α → Color}
    (hv : ∀ v c c', visit v c = .done c' → Explored adj c c' ∧ c' v = .black)
    (h : visitChildren visit path vs color = .done color') :
    Explored adj color color' ∧ ∀ v ∈ vs, color' v = .black := by
  induction vs generalizing color with
  | nil =>
    cases h
    exact ⟨.refl _, fun v hv => by cases hv⟩
  | cons v vs ih =>
    rw [visitChildren] at h
    split at h
    · cases h
    · obtain ⟨mid, hmid, hrest⟩ := andThen_done h
      obtain ⟨hfirst, hblack⟩ := hv v color mid hmid
      obtain ⟨hothers, hall⟩ := ih hrest
      refine ⟨hfirst.trans hothers, fun w hw => ?_⟩
      rcases List.mem_cons.mp hw with rfl | hw
      · exact hothers.black w hblack
      · exact hall w hw
    · rename_i hblack
      obtain ⟨hothers, hall⟩ := ih h
      refine ⟨hothers, fun w hw => ?_⟩
      rcases List.mem_cons.mp hw with rfl | hw
      · exact hothers.black w hblack
      · exact hall w hw

theorem visit_done {fuel : ℕ} {path : List α} {u : α} {color color' : α → Color}
    (h : visit adj fuel path u color = .done color') :
    Explored adj color color' ∧ color' u = .black := by
  induction fuel generalizing path u color color' with
  | zero => cases h
  | succ fuel ih =>
    rw [visit] at h
    obtain ⟨mid, hmid, hlast⟩ := andThen_done h
    cases hlast
    obtain ⟨hchildren, hblack⟩ := visitChildren_done (fun v c c' => ih) hmid
    refine ⟨⟨fun hs => ?_, fun w hw => ?_, fun w hw => ?_, fun w hw => ?_⟩, by simp⟩
    · have hgray : Settled adj (Function.update color u .gray) := by
        intro w hw
        by_cases hwu : w = u
        · simp [hwu] at hw
        · exact hs w (by simpa [hwu] using hw)
      have hmids := hchildren.settled hgray
      intro w hw
      by_cases hwu : w = u
      · subst hwu
        exact Acc.intro _ fun v hv => hmids v (hblack v hv)
      · exact hmids w (by simpa [hwu] using hw)
    · by_cases hwu : w = u
      · simp [hwu]
      · simpa [hwu] using hchildren.black w (by simpa [hwu] using hw)
    · by_cases hwu : w = u
      · simp [hwu] at hw
      · simpa [hwu] using hchildren.gray w (by simpa [hwu] using hw)
    · by_cases hwu : w = u
      · simp [hwu] at hw
      · simpa [hwu] using hchildren.white w (by simpa [hwu] using hw)

theorem search_done {fuel : ℕ} {us : List α} {color color' : α → Color}
    (hgray : ∀ w, color w ≠ .gray) (h : search adj fuel us color = .done color') :
    Explored adj color color' ∧ ∀ u ∈ us, color' u = .black := by
  induction us generalizing color with
  | nil =>
    cases h
    exact ⟨.refl _, fun u hu => by cases hu⟩
  | cons u us ih =>
    rw [search] at h
    split at h
    · obtain ⟨mid, hmid, hrest⟩ := andThen_done h
      obtain ⟨hfirst, hblack⟩ := visit_done hmid
      obtain ⟨hothers, hall⟩ := ih (fun w hw => hgray w (hfirst.gray w hw)) hrest
      refine ⟨hfirst.trans hothers, fun w hw => ?_⟩
      rcases List.mem_cons.mp hw with rfl | hw
      · exact hothers.black w hblack
      · exact hall w hw
    · rename_i hcolored
      obtain ⟨hothers, hall⟩ := ih hgray h
      refine ⟨hothers, fun w hw => ?_⟩
      rcases List.mem_cons.mp hw with rfl | hw
      · apply hothers.black
        cases hc : color w with
        | white => exact absurd hc hcolored
        | gray => exact absurd hc (hgray w)
        | black => rfl
      · exact hall w hw

/-- A search from all nodes that ends without a cycle has seen an acyclic graph. -/
theorem search_acyclic {fuel : ℕ} {us : List α} {color' : α → Color}
    (h : search adj fuel us (fun _ => .white) = .done color') {u : α} (hu : u ∈ us) :
    ¬ Relation.TransGen (fun v w => w ∈ adj v) u u := by
  have hgray : ∀ w : α, (fun _ : α => Color.white) w ≠ .gray := by
    intro w hw
    cases hw
  obtain ⟨hexplored, hblack⟩ := search_done hgray h
  have hsettled : Settled adj color' := by
    apply hexplored.settled
    intro w hw
    cases hw
  intro hcycle
  exact acc_not_cycle (hsettled u (hblack u hu)) (Relation.transGen_swap.mpr hcycle)

/-! ## The cycle that is reported -/

/-- Nodes along edges, back to where they began. -/
structure ClosedWalk (adj : α → List α) (nodes : List α) : Prop where
  chain : nodes.IsChain fun v w => w ∈ adj v
  closed : nodes.head? = nodes.getLast?
  long : 2 ≤ nodes.length

omit [DecidableEq α] in
theorem ClosedWalk.cycle {nodes : List α} (h : ClosedWalk adj nodes) :
    ∃ u, Relation.TransGen (fun v w => w ∈ adj v) u u := by
  obtain ⟨hchain, hclosed, hlong⟩ := h
  match nodes, hlong with
  | u :: v :: rest, _ =>
    obtain ⟨hedge, htail⟩ := List.isChain_cons_cons.mp hchain
    have hback : (v :: rest).getLast (List.cons_ne_nil v rest) = u := by
      rw [List.head?_cons, List.getLast?_cons_cons, List.getLast?_eq_some_getLast
        (List.cons_ne_nil v rest)] at hclosed
      exact (Option.some.inj hclosed).symm
    exact ⟨u, .head' hedge (List.relationReflTransGen_of_exists_isChain_cons rest htail hback)⟩

/-- The last node of the path has an edge back to a node of the path. -/
theorem cycleOf_closedWalk {path : List α} {u v : α}
    (hchain : (path ++ [u]).IsChain fun v w => w ∈ adj v) (hv : v ∈ path ++ [u]) (hedge : v ∈ adj u) :
    ClosedWalk adj (cycleOf (path ++ [u]) v) := by
  obtain ⟨i, hi⟩ : ∃ i, (path ++ [u]).findIdx? (· == v) = some i := by
    apply Option.isSome_iff_exists.mp
    rw [List.findIdx?_isSome, List.any_eq_true]
    exact ⟨v, hv, beq_self_eq_true v⟩
  obtain ⟨hlt, hfound, -⟩ := List.findIdx?_eq_some_iff_getElem.mp hi
  have hdrop : (path ++ [u]).drop i = v :: (path ++ [u]).drop (i + 1) := by
    rw [List.drop_eq_getElem_cons hlt, eq_of_beq hfound]
  have hlast : ((path ++ [u]).drop i).getLast? = some u := by
    rw [List.getLast?_drop, if_neg (Nat.not_le.mpr hlt), List.getLast?_concat]
  rw [cycleOf, hi, Option.getD_some]
  constructor
  · rw [List.isChain_append]
    refine ⟨hchain.drop i, List.isChain_singleton v, ?_⟩
    intro x hx y hy
    rw [hlast, Option.mem_some_iff] at hx
    rw [List.head?_cons, Option.mem_some_iff] at hy
    rw [← hx, ← hy]
    exact hedge
  · rw [List.getLast?_concat, hdrop, List.cons_append, List.head?_cons]
  · rw [hdrop, List.length_append, List.length_cons, List.length_singleton]
    omega

theorem visitChildren_cycle {visit : α → (α → Color) → Outcome α} {path vs : List α} {u : α}
    {color : α → Color} {nodes : List α}
    (hcycle : ∀ v c, v ∈ adj u → (∀ w, c w = .gray → w ∈ path ++ [u]) →
      visit v c = .cycle nodes → ClosedWalk adj nodes)
    (hdone : ∀ v c c', visit v c = .done c' → Explored adj c c')
    (hchain : (path ++ [u]).IsChain fun v w => w ∈ adj v) (hvs : ∀ v ∈ vs, v ∈ adj u)
    (hgray : ∀ w, color w = .gray → w ∈ path ++ [u])
    (h : visitChildren visit (path ++ [u]) vs color = .cycle nodes) : ClosedWalk adj nodes := by
  induction vs generalizing color with
  | nil => cases h
  | cons v vs ih =>
    have hedge := hvs v List.mem_cons_self
    have hrest : ∀ w ∈ vs, w ∈ adj u := fun w hw => hvs w (List.mem_cons_of_mem v hw)
    rw [visitChildren] at h
    split at h
    · rename_i hv
      cases h
      exact cycleOf_closedWalk hchain (hgray v hv) hedge
    · rcases andThen_cycle h with hfirst | ⟨mid, hmid, hothers⟩
      · exact hcycle v color hedge hgray hfirst
      · exact ih hrest (fun w hw => hgray w ((hdone v color mid hmid).gray w hw)) hothers
    · exact ih hrest hgray h

/-- The gray nodes are on the path, so an edge to one of them closes a cycle. -/
theorem visit_cycle {fuel : ℕ} {path : List α} {u : α} {color : α → Color} {nodes : List α}
    (hchain : (path ++ [u]).IsChain fun v w => w ∈ adj v)
    (hgray : ∀ w, color w = .gray → w ∈ path) (h : visit adj fuel path u color = .cycle nodes) :
    ClosedWalk adj nodes := by
  induction fuel generalizing path u color with
  | zero => cases h
  | succ fuel ih =>
    rw [visit] at h
    rcases andThen_cycle h with hchildren | ⟨mid, -, hlast⟩
    · have hentered : ∀ w, Function.update color u .gray w = .gray → w ∈ path ++ [u] := by
        intro w hw
        by_cases hwu : w = u
        · simp [hwu]
        · rw [Function.update_of_ne hwu] at hw
          exact List.mem_append_left _ (hgray w hw)
      refine visitChildren_cycle ?_ (fun v c c' hv => (visit_done hv).1) hchain (fun v hv => hv)
        hentered hchildren
      intro v c hedge hc hv
      refine ih ?_ hc hv
      apply hchain.append (List.isChain_singleton v)
      intro x hx y hy
      rw [List.getLast?_concat, Option.mem_some_iff] at hx
      rw [List.head?_cons, Option.mem_some_iff] at hy
      rw [← hx, ← hy]
      exact hedge
    · cases hlast

theorem search_cycle {fuel : ℕ} {us : List α} {color : α → Color} {nodes : List α}
    (hgray : ∀ w, color w ≠ .gray) (h : search adj fuel us color = .cycle nodes) :
    ClosedWalk adj nodes := by
  induction us generalizing color with
  | nil => cases h
  | cons u us ih =>
    rw [search] at h
    split at h
    · rcases andThen_cycle h with hfirst | ⟨mid, hmid, hrest⟩
      · exact visit_cycle (List.isChain_singleton u) (fun w hw => absurd hw (hgray w)) hfirst
      · exact ih (fun w hw => hgray w ((visit_done hmid).1.gray w hw)) hrest
    · exact ih hgray h

/-! ## The fuel -/

variable [Fintype α]

theorem whites_gray {color : α → Color} {u : α} (hu : color u = .white) :
    whites (Function.update color u .gray) < whites color := by
  apply Finset.card_lt_card
  rw [Finset.ssubset_iff_of_subset]
  · exact ⟨u, by simp [hu], by simp⟩
  · intro w hw
    by_cases hwu : w = u
    · simp [hwu] at hw
    · simpa [hwu] using hw

theorem visitChildren_fuel {fuel : ℕ} {path path' vs : List α} {color : α → Color}
    (hv : ∀ v c, c v = .white → whites c ≤ fuel → visit adj fuel path' v c ≠ .exhausted)
    (hfuel : whites color ≤ fuel) :
    visitChildren (visit adj fuel path') path vs color ≠ .exhausted := by
  induction vs generalizing color with
  | nil => intro h; cases h
  | cons v vs ih =>
    rw [visitChildren]
    split
    · intro h
      cases h
    · rename_i hwhite
      intro h
      rcases andThen_exhausted h with hv' | ⟨mid, hmid, hrest⟩
      · exact hv v color hwhite hfuel hv'
      · exact ih ((whites_le (visit_done hmid).1.white).trans hfuel) hrest
    · exact ih hfuel

theorem visit_fuel {fuel : ℕ} {path : List α} {u : α} {color : α → Color}
    (hu : color u = .white) (hfuel : whites color ≤ fuel) :
    visit adj fuel path u color ≠ .exhausted := by
  induction fuel generalizing path u color with
  | zero =>
    have := whites_gray hu
    omega
  | succ fuel ih =>
    intro h
    rw [visit] at h
    have hless := whites_gray hu
    rcases andThen_exhausted h with hc | ⟨mid, -, hlast⟩
    · exact visitChildren_fuel (fun v c hw hf => ih hw hf) (by omega) hc
    · cases hlast

theorem search_fuel {fuel : ℕ} {us : List α} {color : α → Color} (hfuel : whites color ≤ fuel) :
    search adj fuel us color ≠ .exhausted := by
  induction us generalizing color with
  | nil => intro h; cases h
  | cons u us ih =>
    rw [search]
    split
    · rename_i hwhite
      intro h
      rcases andThen_exhausted h with hv | ⟨mid, hmid, hrest⟩
      · exact visit_fuel hwhite hfuel hv
      · exact ih ((whites_le (visit_done hmid).1.white).trans hfuel) hrest
    · exact ih hfuel

/-- One unit of fuel for each node. -/
theorem search_terminates (us : List α) (color : α → Color) :
    search adj (Fintype.card α) us color ≠ .exhausted :=
  search_fuel (Finset.card_le_univ _)

end CycleSearch
