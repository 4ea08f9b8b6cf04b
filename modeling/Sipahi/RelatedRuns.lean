import Sipahi.GuardedExecution

/-!
# Two runs side by side

Two computations are related when both halt for the same reason or both end in related results. A
computation that commutes with a map of its argument takes the mapped argument to the mapped
result. Two runs whose events are read off their states stay related as long as related states
produce related steps.
-/
namespace RelatedRuns

open GuardedExecution

universe u

variable {η : Type*} {α β α' β' γ γ' : Type u}

inductive Related {α β : Type*} (R : α → β → Prop) : Except η α → Except η β → Prop where
  | ok {a b} : R a b → Related R (.ok a) (.ok b)
  | error (e : η) : Related R (.error e) (.error e)

theorem related_ok {α β : Type*} {R : α → β → Prop} {a : α} {y : Except η β} :
    Related R (.ok a) y ↔ ∃ b, y = .ok b ∧ R a b := by
  constructor
  · rintro (hab | _)
    exact ⟨_, rfl, hab⟩
  · rintro ⟨b, rfl, hab⟩
    exact .ok hab

theorem related_error {α β : Type*} {R : α → β → Prop} {e : η} {y : Except η β} :
    Related R (.error e) y ↔ y = .error e := by
  constructor
  · rintro (_ | _)
    rfl
  · rintro rfl
    exact .error e

theorem Related.mono {R S : α → β → Prop} {x : Except η α} {y : Except η β} (h : Related R x y)
    (hrs : ∀ a b, R a b → S a b) : Related S x y := by
  cases h with
  | ok hab => exact .ok (hrs _ _ hab)
  | error e => exact .error e

theorem Related.bind {R : α → α' → Prop} {S : β → β' → Prop} {x : Except η α} {y : Except η α'}
    {f : α → Except η β} {g : α' → Except η β'} (h : Related R x y)
    (hfg : ∀ a b, R a b → Related S (f a) (g b)) : Related S (x >>= f) (y >>= g) := by
  cases h with
  | ok hab => exact hfg _ _ hab
  | error e => exact .error e

/-- The result on the mapped argument is the mapped result. -/
def Commutes (g : α → α') (k : β → β') (f : α → Except η β) (f' : α' → Except η β') : Prop :=
  ∀ a, f' (g a) = (f a).map k

theorem map_bind {g : α → α'} {k : β → β'} {f : α → Except η β} {f' : α' → Except η β'}
    (hf : Commutes g k f f') (x : Except η α) : (x.map g >>= f') = (x >>= f).map k := by
  cases x with
  | error e => rfl
  | ok a => exact hf a

theorem Commutes.bind {g : α → α'} {k : β → β'} {l : γ → γ'} {f : α → Except η β}
    {f' : α' → Except η β'} {h : β → Except η γ} {h' : β' → Except η γ'} (hf : Commutes g k f f')
    (hh : Commutes k l h h') : Commutes g l (fun a => f a >>= h) fun a => f' a >>= h' := by
  intro a
  dsimp only
  rw [hf a]
  exact map_bind hh (f a)

/-- A run of commuting steps commutes. -/
theorem run_commutes {σ ε : Type*} {M : Machine σ ε η} {g : σ → σ}
    (h : ∀ e, Commutes g g (M.step · e) (M.step · e)) (es : List ε) :
    Commutes g g (run M · es) (run M · es) := by
  induction es with
  | nil => exact fun _ => rfl
  | cons e es ih =>
    intro s
    simp only [run, List.foldlM_cons]
    exact (h e).bind ih s

section

variable {σ ε : Type*} {M : Machine σ ε η}

/-- Event `n` is read off the state that the events before it led to. -/
def driven (M : Machine σ ε η) (environment : ℕ → σ → ε) (s : σ) : ℕ → Except η σ
  | 0 => .ok s
  | n + 1 => driven M environment s n >>= fun u => M.step u (environment n u)

theorem driven_execution {environment : ℕ → σ → ε} {s u : σ} {n : ℕ}
    (h : driven M environment s n = .ok u) : Execution M anyStep s u := by
  induction n generalizing u with
  | zero =>
    cases h
    exact .refl s
  | succ n ih =>
    obtain ⟨v, hv, hu⟩ := bind_eq_ok.mp h
    exact .tail (ih hv) trivial hu

/-- Two driven runs stay related while the first one meets the condition. -/
theorem driven_related {environment : ℕ → σ → ε} {R : σ → σ → Prop} {condition : σ → Prop} {s t : σ}
    (hstep : ∀ n u v, Execution M anyStep s u → condition u → R u v →
      Related R (M.step u (environment n u)) (M.step v (environment n v)))
    (h : R s t) {n : ℕ} (hc : ∀ k < n, ∀ u, driven M environment s k = .ok u → condition u) :
    Related R (driven M environment s n) (driven M environment t n) := by
  induction n with
  | zero => exact .ok h
  | succ n ih =>
    have hfirst := ih fun k hk => hc k (Nat.lt_succ_of_lt hk)
    simp only [driven]
    cases hu : driven M environment s n with
    | error e =>
      rw [hu, related_error] at hfirst
      rw [hfirst]
      exact .error e
    | ok u =>
      rw [hu, related_ok] at hfirst
      obtain ⟨v, hv, huv⟩ := hfirst
      rw [hv]
      exact hstep n u v (driven_execution hu) (hc n (Nat.lt_succ_self n) u hu) huv

end

end RelatedRuns
