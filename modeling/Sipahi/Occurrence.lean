import Mathlib.Data.Nat.Find
import Sipahi.AlignedLayout

/-! # Where a pattern stands in a text -/
namespace AlignedLayout

variable {α : Type*} {pattern text front back : List α} {j k : ℕ}

theorem OccursAt.getElem? (h : OccursAt text k pattern) (hj : j < pattern.length) :
    text[k + j]? = pattern[j]? := by
  obtain ⟨rest, hrest⟩ := h
  rw [← List.getElem?_drop, ← hrest, List.getElem?_append_left hj]

theorem OccursAt.add_length_le (h : OccursAt text k pattern) (hpattern : pattern ≠ []) :
    k + pattern.length ≤ text.length := by
  have hlength := h.length_le
  have hpos := List.length_pos_of_ne_nil hpattern
  simp only [List.length_drop] at hlength
  omega

/-- What follows an occurrence is of no concern. -/
theorem occursAt_append_iff (h : k + pattern.length ≤ text.length) :
    OccursAt (text ++ back) k pattern ↔ OccursAt text k pattern := by
  have hdrop : (text ++ back).drop k = text.drop k ++ back :=
    List.drop_append_of_le_length (by omega)
  constructor
  · intro hoccurs
    simp only [OccursAt, hdrop] at hoccurs
    apply List.prefix_of_prefix_length_le hoccurs (List.prefix_append _ back)
    simp only [List.length_drop]
    omega
  · intro hoccurs
    exact hoccurs.mono (List.prefix_append _ back)

end AlignedLayout

namespace Occurrence

open AlignedLayout

variable {α : Type*} {pattern text front back : List α} {j k : ℕ}

/-- The first of all occurrences. -/
structure FirstAt (pattern text : List α) (k : ℕ) : Prop where
  occurs : OccursAt text k pattern
  first : ∀ j < k, ¬OccursAt text j pattern

theorem FirstAt.unique (hj : FirstAt pattern text j) (hk : FirstAt pattern text k) : j = k := by
  rcases Nat.lt_trichotomy j k with hlt | heq | hlt
  · exact absurd hj.occurs (hk.first j hlt)
  · exact heq
  · exact absurd hk.occurs (hj.first k hlt)

theorem firstAt_zero_iff : FirstAt pattern text 0 ↔ pattern <+: text := by
  constructor
  · intro h
    exact h.occurs
  · intro h
    exact ⟨h, fun j hj => absurd hj (Nat.not_lt_zero j)⟩

theorem firstAt_succ_iff {c : α} :
    FirstAt pattern (c :: text) (k + 1) ↔ ¬pattern <+: c :: text ∧ FirstAt pattern text k := by
  constructor
  · intro h
    refine ⟨h.first 0 k.succ_pos, h.occurs, ?_⟩
    intro j hj
    exact h.first (j + 1) (Nat.succ_lt_succ hj)
  · rintro ⟨hzero, hoccurs, hfirst⟩
    refine ⟨hoccurs, ?_⟩
    intro j hj
    cases j with
    | zero => exact hzero
    | succ j => exact hfirst j (Nat.lt_of_succ_lt_succ hj)

theorem exists_firstAt (h : OccursAt text k pattern) : ∃ j ≤ k, FirstAt pattern text j := by
  classical
  have hsome : ∃ j, OccursAt text j pattern := ⟨k, h⟩
  refine ⟨Nat.find hsome, Nat.find_min' hsome h, Nat.find_spec hsome, ?_⟩
  intro j hj
  exact Nat.find_min hsome hj

/-! ## Words between equal delimiters -/

section Delimited

variable {d : α} {x y body : List α} {n : ℕ}

theorem eq_of_prefix_delimiter (hx : d ∉ x) (hy : d ∉ y) (h : x ++ d :: front <+: y ++ d :: back) :
    x = y := by
  classical
  have hword : ∀ {w l : List α}, d ∉ w → (w ++ d :: l).takeWhile (· ≠ d) = w := by
    intro w l hw
    rw [List.takeWhile_append_of_pos, List.takeWhile_cons_of_neg (by simp), List.append_nil]
    intro c hc
    simp only [ne_eq, decide_not, Bool.not_eq_true', decide_eq_false_iff_not]
    rintro rfl
    exact hw hc
  obtain ⟨rest, hrest⟩ := h
  rw [List.append_assoc, List.cons_append] at hrest
  rw [← hword hx, hrest, hword hy]

variable (d n) in
/-- A word between two runs of the delimiter. -/
def delimited (x : List α) : List α := List.replicate n d ++ (x ++ List.replicate n d)

theorem length_delimited : (delimited d n x).length = n + x.length + n := by
  simp only [delimited, List.length_append, List.length_replicate]
  omega

theorem delimited_run (hk : k < n) : (delimited d n x)[k]? = some d := by
  simp [delimited, List.getElem?_append, hk]

theorem delimited_word (hk : k < x.length) : (delimited d n x)[n + k]? = x[k]? := by
  rw [delimited, List.getElem?_append_right (by simp), List.length_replicate,
    Nat.add_sub_cancel_left, List.getElem?_append_left hk]

theorem delimited_drop : (delimited d n x ++ back).drop (n + x.length) =
    List.replicate n d ++ back := by
  have hrun : (List.replicate n d ++ x).length = n + x.length := by simp
  rw [delimited, ← List.append_assoc, List.append_assoc, List.drop_left' hrun]

theorem occursAt_delimited :
    OccursAt (delimited d n x ++ (y ++ delimited d n y)) (n + x.length) (delimited d n y) := by
  rw [OccursAt, delimited_drop]
  simp only [delimited, List.prefix_append_right_inj]
  exact List.prefix_append _ _

/-- A delimited word `y` begins inside another one, `x`, only if `y` stands right behind it, where the
second run of `x` is then the first one of `y`. -/
theorem eq_of_occursAt_delimited (hx : d ∉ x) (hy : d ∉ y) (hbody : d ∉ body) (hxy : x ≠ y)
    (hxne : x ≠ []) (hyne : y ≠ []) (hn : 0 < n) (hk : k < (delimited d n x).length)
    (h : OccursAt (delimited d n x ++ (body ++ delimited d n y)) k (delimited d n y)) :
    body = y := by
  have hxpos := List.length_pos_of_ne_nil hxne
  have hypos := List.length_pos_of_ne_nil hyne
  have hlengthx : (delimited d n x).length = n + x.length + n := length_delimited
  have hlengthy : (delimited d n y).length = n + y.length + n := length_delimited
  obtain ⟨m, rfl⟩ := Nat.exists_eq_add_one_of_ne_zero hn.ne'
  rcases Nat.lt_trichotomy k (m + 1 + x.length) with hbefore | hat | hbehind
  · exfalso
    rcases Nat.eq_zero_or_pos k with rfl | hpos
    · -- the two words would begin at the same place
      simp only [OccursAt, List.drop_zero, delimited, List.append_assoc,
        List.prefix_append_right_inj] at h
      simp only [List.replicate_succ, List.cons_append] at h
      exact hxy (eq_of_prefix_delimiter hy hx h).symm
    · -- a delimiter of the first run of `y` would stand in `x`
      obtain ⟨i, j, hplace, hj, hi⟩ : ∃ i j, k + j = m + 1 + i ∧ j < m + 1 ∧ i < x.length :=
        ⟨max k (m + 1) - (m + 1), max k (m + 1) - k, by omega⟩
      have hchar := h.getElem? (j := j) (by omega)
      rw [delimited_run hj, hplace, List.getElem?_append_left (by omega), delimited_word hi] at hchar
      exact hx (List.mem_of_getElem? hchar)
  · subst hat
    rw [OccursAt, delimited_drop] at h
    simp only [delimited, List.prefix_append_right_inj] at h
    simp only [List.replicate_succ, List.cons_append] at h
    exact (eq_of_prefix_delimiter hy hbody h).symm
  · exfalso
    cases body with
    | cons c l =>
      -- the run of `y` would reach into the body
      have hplace : k + (2 * (m + 1) + x.length - k) = (delimited d (m + 1) x).length := by omega
      have hj : 2 * (m + 1) + x.length - k < m + 1 := by omega
      have hchar := h.getElem? (j := 2 * (m + 1) + x.length - k) (by omega)
      rw [delimited_run hj, hplace, List.getElem?_append_right le_rfl, Nat.sub_self] at hchar
      exact hbody (Option.some.inj hchar ▸ List.mem_cons_self)
    | nil =>
      -- the word of `y` would begin with a delimiter
      have hplace : k + (m + 1) - (delimited d (m + 1) x).length < m + 1 := by omega
      have hchar := h.getElem? (j := m + 1) (by omega)
      have hword : (delimited d (m + 1) y)[m + 1 + 0]? = y[0]? := delimited_word hypos
      rw [Nat.add_zero] at hword
      rw [hword, List.nil_append, List.getElem?_append_right (by omega), delimited_run hplace]
        at hchar
      exact hy (List.mem_of_getElem? hchar.symm)

end Delimited

end Occurrence
