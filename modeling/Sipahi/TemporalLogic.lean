import Mathlib.Data.List.Chain
import Mathlib.Data.List.GetD
import Mathlib.Order.Filter.AtTopBot.Basic

/-!
# Behaviours, fairness and leads-to

A behaviour is a sequence of states whose every step is one of the specification or leaves the state
as it is. Fairness speaks of steps of an action that change the state.
-/
namespace TemporalLogic

open Filter

variable {σ : Type*}

structure Spec (σ : Type*) where
  init : σ → Prop
  next : σ → σ → Prop

structure Behaves (S : Spec σ) (b : ℕ → σ) : Prop where
  init : S.init (b 0)
  next : ∀ n, S.next (b n) (b (n + 1)) ∨ b (n + 1) = b n

def Enabled (A : σ → σ → Prop) (s : σ) : Prop := ∃ t, A s t ∧ t ≠ s

def Occurs (A : σ → σ → Prop) (b : ℕ → σ) (n : ℕ) : Prop := A (b n) (b (n + 1)) ∧ b (n + 1) ≠ b n

/-- An action that stays enabled occurs again and again. -/
def WeaklyFair (A : σ → σ → Prop) (b : ℕ → σ) : Prop :=
  (∀ᶠ n in atTop, Enabled A (b n)) → ∃ᶠ n in atTop, Occurs A b n

def LeadsTo (p q : σ → Prop) (b : ℕ → σ) : Prop := ∀ n, p (b n) → ∃ k ≥ n, q (b k)

variable {S : Spec σ} {A : σ → σ → Prop} {b : ℕ → σ} {p q r I : σ → Prop}

/-! ## Safety -/

theorem Behaves.stable (hb : Behaves S b) (hs : ∀ s t, I s → S.next s t → I t) {n : ℕ}
    (hn : I (b n)) {k : ℕ} (hk : n ≤ k) : I (b k) := by
  induction k, hk using Nat.le_induction with
  | base => exact hn
  | succ k _ ih =>
    rcases hb.next k with hstep | hstutter
    · exact hs _ _ ih hstep
    · rwa [hstutter]

theorem Behaves.invariant (hb : Behaves S b) (h0 : ∀ s, S.init s → I s)
    (hs : ∀ s t, I s → S.next s t → I t) (n : ℕ) : I (b n) :=
  hb.stable hs (h0 _ hb.init) (Nat.zero_le n)

/-- The states that finitely many steps lead to. -/
inductive Reached (S : Spec σ) : σ → Prop where
  | init {s} : S.init s → Reached S s
  | step {s t} : Reached S s → S.next s t → Reached S t

theorem Behaves.reached (hb : Behaves S b) : ∀ n, Reached S (b n) :=
  hb.invariant (fun _ => .init) fun _ _ => .step

/-! ## Leads-to -/

theorem LeadsTo.trans (h : LeadsTo p q b) (k : LeadsTo q r b) : LeadsTo p r b := by
  intro n hn
  obtain ⟨i, hi, hq⟩ := h n hn
  obtain ⟨j, hj, hr⟩ := k i hq
  exact ⟨j, hi.trans hj, hr⟩

theorem LeadsTo.under (hI : ∀ n, I (b n)) (h : LeadsTo (fun s => I s ∧ p s) q b) :
    LeadsTo p q b :=
  fun n hn => h n ⟨hI n, hn⟩

theorem Behaves.unless (hb : Behaves S b) (hstay : ∀ s t, p s → S.next s t → p t ∨ q t) {n : ℕ}
    (hn : p (b n)) (hnever : ∀ k ≥ n, ¬ q (b k)) {k : ℕ} (hk : n ≤ k) : p (b k) := by
  induction k, hk using Nat.le_induction with
  | base => exact hn
  | succ k hk ih =>
    rcases hb.next k with hstep | hstutter
    · exact (hstay _ _ ih hstep).resolve_right (hnever (k + 1) (Nat.le_succ_of_le hk))
    · rwa [hstutter]

section

variable (hb : Behaves S b) (hstay : ∀ s t, p s → S.next s t → p t ∨ q t)
  (hact : ∀ s t, p s → A s t → q t)
include hb hstay hact

theorem reaches_of_frequently {n : ℕ} (hn : p (b n))
    (hoccurs : (∀ k ≥ n, p (b k)) → ∃ᶠ k in atTop, Occurs A b k) : ∃ k ≥ n, q (b k) := by
  by_contra hnone
  have hnever : ∀ k ≥ n, ¬ q (b k) := fun k hk hq => hnone ⟨k, hk, hq⟩
  have hp : ∀ k ≥ n, p (b k) := fun k hk => hb.unless hstay hn hnever hk
  obtain ⟨k, hk, hstep, -⟩ := frequently_atTop.mp (hoccurs hp) n
  exact hnever (k + 1) (Nat.le_succ_of_le hk) (hact _ _ (hp k hk) hstep)

theorem leadsTo_of_weaklyFair (hfair : WeaklyFair A b) (henabled : ∀ s, p s → Enabled A s) :
    LeadsTo p q b := by
  intro n hn
  apply reaches_of_frequently hb hstay hact hn
  intro hp
  exact hfair (eventually_atTop.mpr ⟨n, fun k hk => henabled _ (hp k hk)⟩)

end

theorem leadsTo_of_variant (measure : σ → ℕ)
    (h : ∀ n, p (b n) → ∃ k ≥ n, q (b k) ∨ p (b k) ∧ measure (b k) < measure (b n)) :
    LeadsTo p q b := by
  intro n hn
  induction hm : measure (b n) using Nat.strong_induction_on generalizing n with
  | _ m ih =>
    obtain ⟨k, hk, hq | ⟨hp, hlt⟩⟩ := h n hn
    · exact ⟨k, hk, hq⟩
    · obtain ⟨j, hj, hq⟩ := ih _ (hm ▸ hlt) k hp rfl
      exact ⟨j, hk.trans hj, hq⟩

theorem leadsTo_of_descent (hb : Behaves S b) (hfair : WeaklyFair A b) (measure : σ → ℕ)
    (hstay : ∀ s t, p s → S.next s t → p t ∧ measure t ≤ measure s ∨ q t)
    (hact : ∀ s t, p s → A s t → p t ∧ measure t < measure s ∨ q t)
    (henabled : ∀ s, p s → Enabled A s) : LeadsTo p q b := by
  apply leadsTo_of_variant measure
  intro n hn
  have hdown : LeadsTo (fun s => p s ∧ measure s ≤ measure (b n))
      (fun s => q s ∨ p s ∧ measure s < measure (b n)) b := by
    refine leadsTo_of_weaklyFair hb ?_ ?_ hfair fun s hs => henabled s hs.1
    · rintro s t ⟨hp, hle⟩ hstep
      rcases hstay s t hp hstep with ⟨hpt, hmt⟩ | hq
      · exact .inl ⟨hpt, hmt.trans hle⟩
      · exact .inr (.inl hq)
    · rintro s t ⟨hp, hle⟩ hstep
      rcases hact s t hp hstep with ⟨hpt, hmt⟩ | hq
      · exact .inr ⟨hpt, hmt.trans_le hle⟩
      · exact .inl hq
  exact hdown n ⟨hn, le_rfl⟩

/-! ## Behaviours that come to rest -/

/-- Take this path and stay in its last state. -/
def settle (path : List σ) (last : σ) (n : ℕ) : σ := path.getD n last

theorem settle_last {path : List σ} {last : σ} {n : ℕ} (hn : path.length ≤ n) :
    settle path last n = last := List.getD_eq_default _ _ hn

theorem settle_behaves {first : σ} {path : List σ} {last : σ} (h0 : S.init first)
    (hpath : (first :: path ++ [last]).IsChain S.next) : Behaves S (settle (first :: path) last) := by
  refine ⟨h0, fun n => ?_⟩
  rcases Nat.lt_or_ge n (first :: path).length with hn | hn
  · left
    have hstep := List.isChain_iff_getElem.mp hpath n (by simpa using hn)
    have hget : ∀ k, (hk : k < (first :: path ++ [last]).length) →
        (first :: path ++ [last])[k] = settle (first :: path) last k := by
      intro k hk
      rcases Nat.lt_or_ge k (first :: path).length with hlt | hge
      · rw [List.getElem_append_left hlt, settle, List.getD_eq_getElem _ _ hlt]
      · rw [settle_last hge, List.getElem_append_right hge, List.getElem_singleton]
    rwa [hget, hget] at hstep
  · right
    rw [settle_last hn, settle_last (Nat.le_succ_of_le hn)]

theorem settle_weaklyFair {path : List σ} {last : σ} (h : ¬ Enabled A last) :
    WeaklyFair A (settle path last) := by
  intro henabled
  obtain ⟨n, hn⟩ := eventually_atTop.mp henabled
  have hlate := hn (max n path.length) (le_max_left _ _)
  rw [settle_last (le_max_right n path.length)] at hlate
  exact absurd hlate h

end TemporalLogic
