import Mathlib.Data.List.Nodup
import Mathlib.Logic.Function.Basic

/-!
# Scanning a list and remembering keys

A scan walks a list once with a state and collects what each round reports. A keyed table is
filled the same way, so that the last element written under a key is the one kept.
-/
namespace KeyedScan

variable {α σ ε κ ν : Type}

/-! ## Collected reports -/

def collect (step : σ → α → List ε × σ) : σ → List α → List ε
  | _, [] => []
  | s, a :: l => (step s a).1 ++ collect step (step s a).2 l

section Collect

variable {step : σ → α → List ε × σ}

/-- A scan that reports nothing has met only elements that pass in every state. -/
theorem collect_forall (ok : α → Prop) (hok : ∀ s a, (step s a).1 = [] → ok a) {s : σ}
    {l : List α} (h : collect step s l = []) : ∀ a ∈ l, ok a := by
  induction l generalizing s with
  | nil => simp
  | cons b l ih =>
    obtain ⟨hb, hl⟩ := List.append_eq_nil_iff.mp h
    intro a ha
    rcases List.mem_cons.mp ha with rfl | ha
    · exact hok s a hb
    · exact ih hl a ha

/-- A scan that remembers each key and reports one it has seen before. -/
theorem collect_nodup (key : α → κ) (seen : σ → κ → Prop)
    (hreport : ∀ s a, (step s a).1 = [] → ¬ seen s (key a))
    (hstore : ∀ s a k, (step s a).1 = [] → k = key a ∨ seen s k → seen (step s a).2 k) {s : σ}
    {l : List α} (h : collect step s l = []) : (l.map key).Nodup ∧ ∀ a ∈ l, ¬ seen s (key a) := by
  induction l generalizing s with
  | nil => simp
  | cons b l ih =>
    obtain ⟨hb, hl⟩ := List.append_eq_nil_iff.mp h
    obtain ⟨hnodup, hfresh⟩ := ih hl
    constructor
    · rw [List.map_cons, List.nodup_cons]
      refine ⟨?_, hnodup⟩
      intro hmem
      obtain ⟨a, ha, hkey⟩ := List.mem_map.mp hmem
      exact hfresh a ha (hstore s b _ hb (.inl hkey))
    · intro a ha
      rcases List.mem_cons.mp ha with rfl | ha
      · exact hreport s a hb
      · intro hseen
        exact hfresh a ha (hstore s b _ hb (.inr hseen))

end Collect

/-- Two nested loops over the pairs in order. -/
def collectPairs (report : α → α → List ε) : List α → List ε
  | [] => []
  | a :: l => l.flatMap (report a) ++ collectPairs report l

theorem collectPairs_eq_nil {report : α → α → List ε} {l : List α} :
    collectPairs report l = [] ↔ l.Pairwise fun a b => report a b = [] := by
  induction l with
  | nil => simp [collectPairs]
  | cons a l ih =>
    rw [collectPairs, List.append_eq_nil_iff, ih, List.flatMap_eq_nil_iff, List.pairwise_cons]

/-! ## Tables where the last writer wins -/

section Table

variable [DecidableEq κ]

def insertAll (key : α → κ) (value : α → ν) (table : κ → Option ν) (l : List α) : κ → Option ν :=
  l.foldl (fun table a => Function.update table (key a) (some (value a))) table

def table (key : α → κ) (value : α → ν) (l : List α) : κ → Option ν :=
  insertAll key value (fun _ => none) l

variable {key : α → κ} {value : α → ν}

theorem insertAll_of_notMem {l : List α} {k : κ} (h : k ∉ l.map key) (t : κ → Option ν) :
    insertAll key value t l k = t k := by
  induction l generalizing t with
  | nil => rfl
  | cons a l ih =>
    rw [List.map_cons, List.mem_cons, not_or] at h
    rw [insertAll, List.foldl_cons, ← insertAll, ih h.2, Function.update_of_ne h.1]

/-- What a key holds was written by some element with that key. -/
theorem insertAll_of_mem {l : List α} {k : κ} (h : k ∈ l.map key) (t : κ → Option ν) :
    ∃ a ∈ l, key a = k ∧ insertAll key value t l k = some (value a) := by
  induction l generalizing t with
  | nil => simp at h
  | cons b l ih =>
    rw [insertAll, List.foldl_cons, ← insertAll]
    by_cases hlater : k ∈ l.map key
    · obtain ⟨a, ha, hkey, hvalue⟩ := ih hlater (Function.update t (key b) (some (value b)))
      exact ⟨a, List.mem_cons_of_mem b ha, hkey, hvalue⟩
    · have hk : k = key b := by
        rcases List.mem_cons.mp h with hk | hk
        · exact hk
        · exact absurd hk hlater
      refine ⟨b, List.mem_cons_self, hk.symm, ?_⟩
      rw [insertAll_of_notMem hlater, hk, Function.update_self]

/-- With distinct keys every element is found again. -/
theorem insertAll_of_nodup {l : List α} (hnodup : (l.map key).Nodup) {a : α} (ha : a ∈ l)
    (t : κ → Option ν) : insertAll key value t l (key a) = some (value a) := by
  have hmem : key a ∈ l.map key := List.mem_map_of_mem ha
  obtain ⟨b, hb, hkey, hvalue⟩ : ∃ b ∈ l, key b = key a ∧ insertAll key value t l (key a) =
      some (value b) := insertAll_of_mem hmem t
  rw [hvalue, List.inj_on_of_nodup_map hnodup hb ha hkey]

theorem table_of_notMem {l : List α} {k : κ} (h : k ∉ l.map key) : table key value l k = none :=
  insertAll_of_notMem h _

theorem table_of_mem {l : List α} {k : κ} (h : k ∈ l.map key) :
    ∃ a ∈ l, key a = k ∧ table key value l k = some (value a) :=
  insertAll_of_mem h _

theorem table_of_nodup {l : List α} (hnodup : (l.map key).Nodup) {a : α} (ha : a ∈ l) :
    table key value l (key a) = some (value a) :=
  insertAll_of_nodup hnodup ha _

end Table

end KeyedScan
