import Mathlib.Data.List.Basic
import Mathlib.Data.List.Infix
import Mathlib.Algebra.Order.Ring.Nat

/-! # Sections at aligned offsets

A byte string in which sections stand one behind the other, each at a multiple of an alignment,
with anything between them.
-/
namespace AlignedLayout

variable {α : Type*} {align : ℕ} {image image' sec : List α} {secs secs' : List (List α)}
  {lo mid hi offset : ℕ}

/-- The section is what stands in the image from the offset on. -/
def OccursAt (image : List α) (offset : ℕ) (sec : List α) : Prop := sec <+: image.drop offset

/-- The sections stand in their order between `lo` and `hi`; the last one ends at `hi`. -/
inductive Placed (align : ℕ) (image : List α) : ℕ → List (List α) → ℕ → Prop where
  | nil (lo : ℕ) : Placed align image lo [] lo
  | cons {lo offset hi : ℕ} {sec : List α} {secs : List (List α)} (after : lo ≤ offset)
      (aligned : align ∣ offset) (occurs : OccursAt image offset sec)
      (next : Placed align image (offset + sec.length) secs hi) :
      Placed align image lo (sec :: secs) hi

theorem OccursAt.mono (h : OccursAt image offset sec) (himage : image <+: image') :
    OccursAt image' offset sec :=
  h.trans (himage.drop offset)

theorem OccursAt.slice (h : OccursAt image offset sec) :
    (image.drop offset).take sec.length = sec :=
  (List.prefix_iff_eq_take.mp h).symm

theorem occursAt_append (image sec : List α) : OccursAt (image ++ sec) image.length sec := by
  rw [OccursAt, List.drop_left]

theorem Placed.le (h : Placed align image lo secs hi) : lo ≤ hi := by
  induction h with
  | nil => exact le_rfl
  | cons after _ _ _ ih => omega

theorem Placed.mono (h : Placed align image lo secs hi) (himage : image <+: image') :
    Placed align image' lo secs hi := by
  induction h with
  | nil lo => exact .nil lo
  | cons after aligned occurs _ ih => exact .cons after aligned (occurs.mono himage) ih

theorem Placed.append (h : Placed align image lo secs mid)
    (h' : Placed align image mid secs' hi) : Placed align image lo (secs ++ secs') hi := by
  induction h with
  | nil => exact h'
  | cons after aligned occurs _ ih => exact .cons after aligned occurs (ih h')

/-- What stands before the sections can be replaced by as many other elements. -/
theorem Placed.of_drop_eq {front : ℕ} (h : Placed align image lo secs hi) (hfront : front ≤ lo)
    (hsame : image'.drop front = image.drop front) : Placed align image' lo secs hi := by
  induction h with
  | nil lo => exact .nil lo
  | @cons lo offset hi sec secs after aligned occurs _ ih =>
    have hdrop : image'.drop offset = image.drop offset := by
      have hoffset : offset = front + (offset - front) := by omega
      rw [hoffset, ← List.drop_drop, ← List.drop_drop, hsame]
    refine .cons after aligned ?_ (ih (by omega))
    rw [OccursAt, hdrop]
    exact occurs

end AlignedLayout
