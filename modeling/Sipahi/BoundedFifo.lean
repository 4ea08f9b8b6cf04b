import Sipahi.LabelledRefinement
import Mathlib.Data.Nat.ModEq
import Mathlib.Logic.Function.Basic

/-!
# A bounded FIFO queue and its ring representation

The queue is a list with a capacity. In a ring of `n` slots the queue is the window of its
length that starts at the read index.
-/
namespace BoundedFifo

open LabelledRefinement

variable {α : Type*} {n : ℕ}

inductive QueueEvent (α : Type*) where
  | enqueue (x : α)
  | dequeue (x : α)
  | full
  | empty

/-- What a queue of this capacity may answer, and its contents afterwards. -/
inductive FifoStep (capacity : ℕ) : List α → QueueEvent α → List α → Prop where
  | enqueue {q x} : q.length < capacity → FifoStep capacity q (.enqueue x) (q ++ [x])
  | dequeue {q x} : FifoStep capacity (x :: q) (.dequeue x) q
  | full {q} : q.length = capacity → FifoStep capacity q .full q
  | empty : FifoStep capacity [] .empty []

def fifo (α : Type*) (capacity : ℕ) : System (List α) (QueueEvent α) where
  initial := []
  step := fun q label q' => ∃ e, label = some e ∧ FifoStep capacity q e q'

def QueueEvent.sent : QueueEvent α → Option α
  | .enqueue x => some x
  | _ => none

def QueueEvent.received : QueueEvent α → Option α
  | .dequeue x => some x
  | _ => none

/-- Nothing is lost, duplicated, altered or reordered. -/
theorem fifo_conserves {capacity : ℕ} {es : List (QueueEvent α)} {q : List α}
    (h : Run (fifo α capacity) es q) :
    es.filterMap QueueEvent.sent = es.filterMap QueueEvent.received ++ q := by
  induction h with
  | start => rfl
  | internal _ hs _ =>
    obtain ⟨e, he, -⟩ := hs
    cases he
  | visible _ hs ih =>
    obtain ⟨e, he, hstep⟩ := hs
    cases he
    rw [List.filterMap_append, List.filterMap_append, ih]
    cases hstep with
    | enqueue => simp [QueueEvent.sent, QueueEvent.received]
    | dequeue => simp [QueueEvent.sent, QueueEvent.received]
    | full => simp [List.filterMap_cons, QueueEvent.sent, QueueEvent.received]
    | empty => simp [List.filterMap_cons, QueueEvent.sent, QueueEvent.received]

theorem fifo_empty_only {capacity : ℕ} {es before after : List (QueueEvent α)} {q : List α}
    (h : Run (fifo α capacity) es q) (hes : es = before ++ .empty :: after) :
    Run (fifo α capacity) before [] := by
  obtain ⟨q', _, hq, e, he, hstep⟩ := h.split hes
  cases he
  cases hstep
  exact hq

theorem fifo_full_only {capacity : ℕ} {es before after : List (QueueEvent α)} {q : List α}
    (h : Run (fifo α capacity) es q) (hes : es = before ++ .full :: after) :
    ∃ q', q'.length = capacity ∧ Run (fifo α capacity) before q' := by
  obtain ⟨q', _, hq, e, he, hstep⟩ := h.split hes
  cases he
  cases hstep with
  | full hfull => exact ⟨q', hfull, hq⟩

/-! ## Rings -/

/-- The slot `k` places behind `start`. -/
def ringIndex (start : Fin n) (k : ℕ) : Fin n :=
  ⟨(start.val + k) % n, Nat.mod_lt _ (Nat.zero_lt_of_lt start.isLt)⟩

@[simp] theorem ringIndex_zero (start : Fin n) : ringIndex start 0 = start :=
  Fin.ext (by simp [ringIndex, Nat.mod_eq_of_lt start.isLt])

theorem ringIndex_add (start : Fin n) (i j : ℕ) :
    ringIndex (ringIndex start i) j = ringIndex start (i + j) :=
  Fin.ext (by simp [ringIndex, Nat.add_assoc])

theorem ringIndex_inj {start : Fin n} {i j : ℕ} (hi : i < n) (hj : j < n)
    (h : ringIndex start i = ringIndex start j) : i = j := by
  have hmod : start.val + i ≡ start.val + j [MOD n] := congrArg Fin.val h
  exact Nat.ModEq.eq_of_lt_of_lt (Nat.ModEq.add_left_cancel' start.val hmod) hi hj

/-- A full turn leads back to the start, and nothing shorter does. -/
theorem ringIndex_eq_start (start : Fin n) {k : ℕ} (hk : 0 < k) (hn : k ≤ n) :
    ringIndex start k = start ↔ k = n := by
  constructor
  · intro h
    rcases Nat.lt_or_ge k n with hlt | hge
    · have hzero := ringIndex_inj hlt (by omega) (h.trans (ringIndex_zero start).symm)
      omega
    · omega
  · rintro rfl
    exact Fin.ext (by simp [ringIndex, Nat.mod_eq_of_lt start.isLt])

def window (slots : Fin n → α) (start : Fin n) (k : ℕ) : List α :=
  (List.range k).map fun i => slots (ringIndex start i)

theorem window_append (slots : Fin n → α) (start : Fin n) (k : ℕ) :
    window slots start (k + 1) = window slots start k ++ [slots (ringIndex start k)] := by
  simp [window, List.range_succ]

theorem window_cons (slots : Fin n → α) (start : Fin n) (k : ℕ) :
    window slots start (k + 1) = slots start :: window slots (ringIndex start 1) k := by
  simp [window, List.range_succ_eq_map, ringIndex_add, Function.comp_def, Nat.add_comm 1]

/-- A write behind the window does not touch it. -/
theorem window_update {slots : Fin n → α} {start : Fin n} {j k : ℕ} (x : α) (hk : k ≤ j)
    (hj : j < n) :
    window (Function.update slots (ringIndex start j) x) start k = window slots start k := by
  refine List.map_congr_left fun i hi => Function.update_of_ne (fun h => ?_) x slots
  have hik := List.mem_range.mp hi
  have := ringIndex_inj (by omega) hj h
  omega

end BoundedFifo
