import Mathlib.Algebra.Order.Ring.Nat
import Mathlib.Data.List.Basic
import Mathlib.Logic.Function.Basic

/-!
# A ring that keeps the end of a log

`n` slots, written in turn, hold the last `n` entries of everything written so far.
-/
namespace SlidingWindow

variable {α : Type*} {n : ℕ}

/-- The slot of entry `k`. -/
def slotOf (hn : 0 < n) (k : ℕ) : Fin n := ⟨k % n, Nat.mod_lt _ hn⟩

/-- Each of the last `n` entries is in its slot. -/
def Keeps (hn : 0 < n) (slots : Fin n → α) (entries : List α) : Prop :=
  ∀ k (hk : k < entries.length), entries.length ≤ k + n → slots (slotOf hn k) = entries[k]

theorem keeps_nil (hn : 0 < n) (slots : Fin n → α) : Keeps hn slots [] := by
  intro k hk
  simp at hk

theorem slotOf_inj {hn : 0 < n} {j k : ℕ} (hjk : j ≤ k) (hk : k < j + n)
    (h : slotOf hn j = slotOf hn k) : j = k := by
  have hmod : j % n = k % n := congrArg Fin.val h
  have hdvd : n ∣ k - j := Nat.dvd_of_mod_eq_zero (Nat.sub_mod_eq_zero_of_mod_eq hmod.symm)
  have hzero := Nat.eq_zero_of_dvd_of_lt hdvd (by omega)
  omega

theorem keeps_write {hn : 0 < n} {slots : Fin n → α} {entries : List α}
    (h : Keeps hn slots entries) (x : α) :
    Keeps hn (Function.update slots (slotOf hn entries.length) x) (entries ++ [x]) := by
  intro k hk hlast
  simp only [List.length_append, List.length_singleton] at hk hlast
  by_cases hnew : k = entries.length
  · subst k
    simp
  · have hold : k < entries.length := by omega
    have hslot : slotOf hn k ≠ slotOf hn entries.length := by
      intro he
      exact hnew (slotOf_inj hold.le (by omega) he)
    rw [Function.update_of_ne hslot, List.getElem_append_left hold]
    exact h k hold (by omega)

/-- Where the oldest kept entry is: slot zero until the ring is full, the slot written next from
then on. -/
def oldest (hn : 0 < n) (total : ℕ) : ℕ := if total < n then 0 else (slotOf hn total).val

theorem oldest_add (hn : 0 < n) (total i : ℕ) :
    slotOf hn (oldest hn total + i) = slotOf hn (total - min total n + i) := by
  apply Fin.ext
  unfold oldest slotOf
  by_cases hfull : total < n
  · have hzero : total - min total n = 0 := by omega
    simp [hfull, hzero]
  · have hmin : min total n = n := by omega
    have hmod : (total - n + i + n) % n = (total - n + i) % n := Nat.add_mod_right _ _
    have hsum : total - n + i + n = total + i := by omega
    rw [hsum] at hmod
    simp [hfull, hmin, hmod]

theorem keeps_read {hn : 0 < n} {slots : Fin n → α} {entries : List α}
    (h : Keeps hn slots entries) {i : ℕ} (hi : i < min entries.length n) :
    entries[entries.length - min entries.length n + i]? =
      some (slots (slotOf hn (oldest hn entries.length + i))) := by
  have hk : entries.length - min entries.length n + i < entries.length := by omega
  rw [oldest_add, h _ hk (by omega), List.getElem?_eq_getElem hk]

theorem keeps_map {β : Type*} {hn : 0 < n} {slots : Fin n → α} {entries : List α}
    (h : Keeps hn slots entries) (f : α → β) :
    Keeps hn (fun i => f (slots i)) (entries.map f) := by
  intro k hk hlast
  rw [List.length_map] at hk hlast
  rw [List.getElem_map]
  exact congrArg f (h k hk hlast)

theorem keeps_exists {hn : 0 < n} {slots : Fin n → α} {entries : List α}
    (h : Keeps hn slots entries) (hfull : n ≤ entries.length) (p : α → Prop) :
    (∃ i, p (slots i)) ↔ ∃ x ∈ entries.drop (entries.length - n), p x := by
  constructor
  · rintro ⟨i, hi⟩
    have hstart : slotOf hn (entries.length - n + (i + n - (entries.length - n) % n) % n) = i := by
      apply Fin.ext
      have hlt := Nat.mod_lt (entries.length - n) hn
      have hsum : (entries.length - n) % n + (i + n - (entries.length - n) % n) = i + n := by omega
      simp only [slotOf, Nat.add_mod_mod]
      rw [← Nat.mod_add_mod, hsum, Nat.add_mod_right, Nat.mod_eq_of_lt i.isLt]
    have hoff : (i + n - (entries.length - n) % n) % n < n := Nat.mod_lt _ hn
    refine ⟨slots i, ?_, hi⟩
    rw [← hstart, h _ (by omega) (by omega), List.mem_iff_getElem]
    exact ⟨_, by rw [List.length_drop]; omega, List.getElem_drop⟩
  · rintro ⟨x, hx, hp⟩
    obtain ⟨k, hk, rfl⟩ := List.mem_iff_getElem.mp hx
    rw [List.length_drop] at hk
    rw [List.getElem_drop, ← h _ (by omega) (by omega)] at hp
    exact ⟨_, hp⟩

end SlidingWindow
