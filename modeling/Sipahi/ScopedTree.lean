import Mathlib.Data.List.Basic

/-! # Trees with scopes

Labelled trees that are searched from the root: a label may open a scope for everything below it,
and subtrees may be cut out.
-/
namespace ScopedTree

variable {α β : Type*}

inductive LabelTree (α : Type*) where
  | node (label : α) (parts : List (LabelTree α))

theorem LabelTree.induction_parts {motive : LabelTree α → Prop}
    (step : ∀ label parts, (∀ part ∈ parts, motive part) → motive (.node label parts)) :
    ∀ tree, motive tree := by
  intro tree
  refine @LabelTree.rec α motive (fun parts => ∀ part ∈ parts, motive part) step ?_ ?_ tree
  · intro part hpart
    cases hpart
  · intro head tail hhead htail part hpart
    rcases List.mem_cons.mp hpart with rfl | hpart
    · exact hhead
    · exact htail part hpart

/-- `sub` stands in the tree below the labels `path`, its own label last. -/
inductive Occurs : List α → LabelTree α → LabelTree α → Prop where
  | here (label : α) (parts : List (LabelTree α)) :
      Occurs [label] (.node label parts) (.node label parts)
  | part {label : α} {parts : List (LabelTree α)} {path : List α} {part sub : LabelTree α}
      (mem : part ∈ parts) (below : Occurs path sub part) :
      Occurs (label :: path) sub (.node label parts)

section Walk

variable (opens : α → Bool) (found : LabelTree α → List β)

mutual

/-- What is found at the nodes of the tree, in order, each with whether it stands in a scope. -/
def walk (inside : Bool) : LabelTree α → List (Bool × β)
  | .node label parts =>
    (found (.node label parts)).map (fun x => (inside || opens label, x)) ++
      walkAll (inside || opens label) parts

def walkAll (inside : Bool) : List (LabelTree α) → List (Bool × β)
  | [] => []
  | part :: parts => walk inside part ++ walkAll inside parts

end

theorem mem_walkAll {inside : Bool} {parts : List (LabelTree α)} {entry : Bool × β} :
    entry ∈ walkAll opens found inside parts ↔
      ∃ part ∈ parts, entry ∈ walk opens found inside part := by
  induction parts with
  | nil => simp [walkAll]
  | cons part parts ih => simp [walkAll, ih]

/-- The walk meets every node, and the flag tells whether a label above it or its own opens a
scope. -/
theorem mem_walk {inside : Bool} {tree : LabelTree α} {entry : Bool × β} :
    entry ∈ walk opens found inside tree ↔
      ∃ path sub, Occurs path sub tree ∧ entry.2 ∈ found sub ∧
        entry.1 = (inside || path.any opens) := by
  induction tree using LabelTree.induction_parts generalizing inside with
  | step label parts ih =>
    rw [walk, List.mem_append, mem_walkAll]
    constructor
    · rintro (hhere | ⟨part, hpart, hbelow⟩)
      · obtain ⟨x, hx, rfl⟩ := List.mem_map.mp hhere
        exact ⟨[label], _, .here label parts, hx, by simp⟩
      · obtain ⟨path, sub, hoccurs, hfound, hflag⟩ := (ih part hpart).mp hbelow
        refine ⟨label :: path, sub, .part hpart hoccurs, hfound, ?_⟩
        rw [hflag, List.any_cons, Bool.or_assoc]
    · rintro ⟨path, sub, hoccurs, hfound, hflag⟩
      cases hoccurs with
      | here =>
        left
        refine List.mem_map.mpr ⟨entry.2, hfound, ?_⟩
        rw [Prod.ext_iff]
        exact ⟨by rw [hflag]; simp, rfl⟩
      | part mem below =>
        right
        refine ⟨_, mem, (ih _ mem).mpr ⟨_, sub, below, hfound, ?_⟩⟩
        rw [hflag, List.any_cons, Bool.or_assoc]

end Walk

section Prune

variable (keep : α → Bool) (hole : α)

mutual

/-- The tree with every subtree cut out whose label is not kept; a hole remains. -/
def prune : LabelTree α → LabelTree α
  | .node label parts => if keep label then .node label (pruneAll parts) else .node hole []

def pruneAll : List (LabelTree α) → List (LabelTree α)
  | [] => []
  | part :: parts => prune part :: pruneAll parts

end

theorem pruneAll_eq_map (parts : List (LabelTree α)) :
    pruneAll keep hole parts = parts.map (prune keep hole) := by
  induction parts with
  | nil => rfl
  | cons part parts ih => rw [pruneAll, ih, List.map_cons]

variable {keep hole}

/-- A property of nodes that pruning below them does not change and that holes do not have is
found in the pruned tree exactly where all labels down to the node are kept. -/
theorem exists_occurs_prune {P : LabelTree α → Prop} (hhole : ¬P (.node hole []))
    (hstable : ∀ label parts, P (.node label (pruneAll keep hole parts)) ↔ P (.node label parts))
    {tree : LabelTree α} :
    (∃ path sub, Occurs path sub (prune keep hole tree) ∧ P sub) ↔
      ∃ path sub, Occurs path sub tree ∧ P sub ∧ ∀ label ∈ path, keep label = true := by
  induction tree using LabelTree.induction_parts with
  | step label parts ih =>
    rw [prune]
    by_cases hkeep : keep label = true
    · rw [if_pos hkeep]
      constructor
      · rintro ⟨path, sub, hoccurs, hsub⟩
        cases hoccurs with
        | here => exact ⟨[label], _, .here label parts, (hstable label parts).mp hsub, by simpa⟩
        | part mem below =>
          rw [pruneAll_eq_map] at mem
          obtain ⟨part, hpart, rfl⟩ := List.mem_map.mp mem
          obtain ⟨path, sub, hoccurs, hsub, hpath⟩ := (ih part hpart).mp ⟨_, _, below, hsub⟩
          exact ⟨label :: path, sub, .part hpart hoccurs, hsub, by simpa [hkeep] using hpath⟩
      · rintro ⟨path, sub, hoccurs, hsub, hpath⟩
        cases hoccurs with
        | here => exact ⟨[label], _, .here label _, (hstable label parts).mpr hsub⟩
        | part mem below =>
          have hbelow : ∀ label' ∈ _, keep label' = true :=
            fun label' h => hpath label' (List.mem_cons_of_mem _ h)
          obtain ⟨path, sub, hoccurs, hsub⟩ := (ih _ mem).mpr ⟨_, sub, below, hsub, hbelow⟩
          refine ⟨label :: path, sub, .part ?_ hoccurs, hsub⟩
          rw [pruneAll_eq_map]
          exact List.mem_map_of_mem mem
    · rw [if_neg hkeep]
      constructor
      · rintro ⟨path, sub, hoccurs, hsub⟩
        cases hoccurs with
        | here => exact absurd hsub hhole
        | part mem below => cases mem
      · rintro ⟨path, sub, hoccurs, hsub, hpath⟩
        have hroot : label ∈ path := by
          cases hoccurs with
          | here => exact List.mem_singleton_self label
          | part mem below => exact List.mem_cons_self
        exact absurd (hpath label hroot) hkeep

end Prune

end ScopedTree
