import Mathlib.Data.List.Basic
import DeepShadow.Proofs.Visibility.Bisection

/-!
# Curves of whole nodes

A lookup in a stored curve only needs that the curve consists of whole nodes of one or three
channels.  Bisection then never leaves the curve, in whatever order the depths are and
whether they are numbers or not, and a curve without nodes is fully visible.
-/

namespace DeepShadow

/-- One component or three make a color. -/
theorem Color.ofComponents_eq_ok
    {components : List Single}
    (supported : supportedChannels components.length = true) :
    ∃ color, Color.ofComponents components = .ok color := by
  rcases supportedChannels_iff.mp supported with one | three
  · obtain ⟨value, rfl⟩ := List.length_eq_one_iff.mp one
    exact ⟨_, Color.ofComponents_one value⟩
  · obtain ⟨red, green, blue, rfl⟩ := List.length_eq_three.mp three
    exact ⟨_, Color.ofComponents_three red green blue⟩

namespace StoredCurve

/-- A curve consists of whole nodes of one or three channels. -/
structure Whole (curve : StoredCurve) : Prop where
  supported : supportedChannels curve.channels = true
  size_eq : curve.data.size = curve.length * curve.stride

section Data

variable {channels : Nat} {data : Array Single}
variable (supported : supportedChannels channels = true) (nodes : channels + 1 ∣ data.size)

include supported nodes

/-- A run of whole nodes is taken as a curve. -/
theorem ofData_eq_ok : ofData channels data = .ok ⟨channels, data⟩ := by
  have hasChannel : channels ≠ 0 := by
    rintro rfl
    cases supported
  rw [ofData, if_neg hasChannel, if_neg (not_ne_iff.mpr (Nat.mod_eq_zero_of_dvd nodes))]

theorem whole_of_dvd : Whole ⟨channels, data⟩ where
  supported := supported
  size_eq := (Nat.div_mul_cancel nodes).symm

end Data

variable {curve : StoredCurve} {index : Nat} {depth : Single}

/-- A node of a curve ends in the curve. -/
theorem Whole.node_le
    (whole : curve.Whole)
    (inside : index < curve.length) :
    index * curve.stride + curve.stride ≤ curve.data.size := by
  rw [whole.size_eq, ← Nat.succ_mul]
  exact Nat.mul_le_mul_right _ inside

theorem Whole.depth_eq_ok
    (whole : curve.Whole)
    (inside : index < curve.length) :
    ∃ depth, curve.depth index = .ok depth := by
  have first : index * curve.stride < curve.data.size := by
    have ends := whole.node_le inside
    rw [stride] at ends ⊢
    omega
  unfold StoredCurve.depth
  rw [Array.getElem?_eq_getElem first]
  exact ⟨_, rfl⟩

theorem Whole.visibility_eq_ok
    (whole : curve.Whole)
    (inside : index < curve.length) :
    ∃ color, curve.visibility index = .ok color := by
  have ends : index * curve.stride + 1 + curve.channels ≤ curve.data.size := by
    have nodeEnds := whole.node_le inside
    rw [stride] at nodeEnds ⊢
    omega
  unfold visibility
  simp only [if_pos ends]
  apply Color.ofComponents_eq_ok
  rw [Array.length_toList, Array.size_extract, Nat.min_eq_left ends, Nat.add_sub_cancel_left]
  exact whole.supported

/-- Bisection ends between the bounds that it starts from. -/
theorem Whole.bisect_le
    (whole : curve.Whole)
    (depth : Single)
    {low high : Nat}
    (ordered : low ≤ high)
    (inside : high ≤ curve.length) :
    ∃ count, curve.bisect depth low high = .ok count ∧ count ≤ high := by
  fun_induction bisect curve depth low high with
  | case1 low high below middle inductionBehind inductionBefore =>
      have middle_eq : middle = low + (high - low) / 2 := rfl
      have middleInside : middle < curve.length := by omega
      obtain ⟨other, depth_eq⟩ := whole.depth_eq_ok middleInside
      rw [depth_eq]
      simp only [bind, Except.bind]
      split
      · exact inductionBehind (by omega) inside
      · obtain ⟨count, found, bound⟩ := inductionBefore (by omega) (by omega)
        exact ⟨count, found, by omega⟩
  | case2 low high notBelow => exact ⟨low, rfl, ordered⟩

/-- A curve of whole nodes has a visibility at every depth. -/
theorem Whole.visibilityAt_eq_ok (whole : curve.Whole) (depth : Single) :
    ∃ color, curve.visibilityAt depth = .ok color := by
  obtain ⟨count, found, bound⟩ :=
    whole.bisect_le depth (Nat.zero_le curve.length) (Nat.le_refl _)
  unfold visibilityAt
  rw [found]
  cases count with
  | zero => exact ⟨_, rfl⟩
  | succ count => exact whole.visibility_eq_ok bound

end StoredCurve
end DeepShadow
