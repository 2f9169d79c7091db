import Mathlib.Data.List.TakeWhile
import DeepShadow.Visibility.StoredCurve

/-!
# Looking up stored curves

A curve whose depths do not decrease is looked up by bisection.  On its stored form
this gives what the curve itself has at the depth, with the three channels replaced
by their mean where only one of them is stored.
-/

namespace DeepShadow

/-! ## Order of depths -/

namespace Single

variable {x y z : Single}

theorem le_iff_key :
    x ≤ y ↔ x.isNaN = false ∧ y.isNaN = false ∧ x.key ≤ y.key := by
  change x.le y = true ↔ _
  unfold le
  rw [Bool.and_eq_true, Bool.and_eq_true, Bool.not_eq_true', Bool.not_eq_true', decide_eq_true_eq,
    and_assoc]

theorem le_trans
    (first : x ≤ y)
    (second : y ≤ z) :
    x ≤ z := by
  rw [le_iff_key] at first second ⊢
  exact ⟨first.1, second.2.1, Int.le_trans first.2.2 second.2.2⟩

/-- The larger of two numbers is not below the second, where this is a number. -/
theorem le_max (isNumber : y ≤ y) (x : Single) : y ≤ x.max y := by
  have notNaN := (le_iff_key.mp isNumber).1
  unfold max
  split
  · exact isNumber
  next isNumberToo =>
    rw [Bool.not_eq_true] at isNumberToo
    split
    · exact isNumber
    next notLess =>
      rw [le_iff_key]
      refine ⟨notNaN, isNumberToo, ?_⟩
      have less_iff : x < y ↔ x.key < y.key := by
        change x.lt y = true ↔ _
        unfold lt
        rw [isNumberToo, notNaN, Bool.not_false, Bool.true_and, Bool.true_and, decide_eq_true_eq]
      exact Int.not_lt.mp (mt less_iff.mpr notLess)

/-- Whatever is above a number is a number. -/
theorem le_self_of_le (below : x ≤ y) : y ≤ y := by
  rw [le_iff_key] at below ⊢
  exact ⟨below.2.1, below.2.1, Int.le_refl _⟩

end Single

/-! ## Lists of results -/

theorem mapM_eq_ok
    {α β ε : Type}
    {function : α -> Except ε β}
    {result : α -> β}
    (values : List α)
    (each : ∀ value ∈ values, function value = .ok (result value)) :
    values.mapM function = .ok (values.map result) := by
  induction values with
  | nil => rfl
  | cons first others inductionHypothesis =>
      rw [List.mapM_cons, each first List.mem_cons_self,
        inductionHypothesis fun value member => each value (List.mem_cons_of_mem _ member)]
      rfl

/-! ## Stored nodes -/

/-- The components that are stored of a color. -/
def Color.stored (color : Color) (channels : Nat) : List Single :=
  if channels = 1 then [color.mean] else [color.red, color.green, color.blue]

/-- What is read of a color that was stored. -/
def Color.seen (color : Color) (channels : Nat) : Color :=
  if channels = 1 then Color.gray color.mean else color

theorem supportedChannels_iff {channels : Nat} :
    supportedChannels channels = true ↔ channels = 1 ∨ channels = 3 := by
  unfold supportedChannels
  rw [Bool.or_eq_true, beq_iff_eq, beq_iff_eq]

theorem Color.components_eq_ok
    {channels : Nat}
    (supported : supportedChannels channels = true)
    (color : Color) :
    color.components channels = .ok (color.stored channels) := by
  rcases supportedChannels_iff.mp supported with rfl | rfl
  · rfl
  · rfl

theorem Color.ofComponents_stored
    {channels : Nat}
    (supported : supportedChannels channels = true)
    (color : Color) :
    Color.ofComponents (color.stored channels) = .ok (color.seen channels) := by
  rcases supportedChannels_iff.mp supported with rfl | rfl
  · rfl
  · rfl

theorem Color.length_stored
    {channels : Nat}
    (supported : supportedChannels channels = true)
    (color : Color) :
    (color.stored channels).length = channels := by
  rcases supportedChannels_iff.mp supported with rfl | rfl
  · rfl
  · rfl

/-- Full visibility is read as it was stored. -/
theorem Color.seen_white (channels : Nat) : Color.white.seen channels = Color.white := by
  unfold Color.seen
  split
  · decide +kernel
  · rfl

/-- The stored form of a node. -/
def Node.stored (node : Node) (channels : Nat) : List Single :=
  node.depth :: node.visibility.stored channels

/-- The stored form of a curve. -/
def Curve.stored (curve : Curve) (channels : Nat) : List Single :=
  curve.nodes.flatMap fun node => node.stored channels

section Stored

variable {channels : Nat} (supported : supportedChannels channels = true)

include supported

theorem Node.length_stored (node : Node) : (node.stored channels).length = channels + 1 := by
  unfold Node.stored
  rw [List.length_cons, Color.length_stored supported]

theorem Curve.flattenNode_eq_ok (node : Node) :
    Curve.flattenNode channels node = .ok (node.stored channels) := by
  unfold Curve.flattenNode
  rw [Color.components_eq_ok supported]
  rfl

theorem Curve.flatten_eq_ok (curve : Curve) :
    curve.flatten channels = .ok (curve.stored channels) := by
  have nodes : Curve.flattenNode channels = fun node => pure (node.stored channels) := by
    funext node
    exact Curve.flattenNode_eq_ok supported node
  unfold Curve.flatten
  rw [nodes, List.mapM_pure]
  rfl

theorem length_flatMap_stored (nodes : List Node) :
    (nodes.flatMap fun node => node.stored channels).length = nodes.length * (channels + 1) := by
  induction nodes with
  | nil => exact (Nat.zero_mul _).symm
  | cons node nodes inductionHypothesis =>
      rw [List.flatMap_cons, List.length_append, Node.length_stored supported, inductionHypothesis,
        List.length_cons, Nat.succ_mul, Nat.add_comm]

/-- In front of the stored form of a node are those of the nodes before it. -/
theorem drop_flatMap_stored
    (nodes : List Node)
    (index : Nat) :
    (nodes.flatMap fun node => node.stored channels).drop (index * (channels + 1)) =
      (nodes.drop index).flatMap fun node => node.stored channels := by
  induction nodes generalizing index with
  | nil => simp
  | cons node nodes inductionHypothesis =>
      cases index with
      | zero => simp
      | succ index =>
          rw [List.flatMap_cons, List.drop_succ_cons, ← inductionHypothesis, Nat.succ_mul,
            Nat.add_comm, ← List.drop_drop, ← Node.length_stored supported node,
            List.drop_left]

end Stored

/-! ## Bisection -/

namespace StoredCurve

/-- The stored form of a curve, as it lies in a tile. -/
def ofCurve (channels : Nat) (curve : Curve) : StoredCurve :=
  ⟨channels, (curve.stored channels).toArray⟩

/-- Bisection finds the place where the depths pass the one that is looked up. -/
theorem bisect_eq_ok
    {curve : StoredCurve}
    {depth : Single}
    {count total : Nat}
    (before : ∀ index, index < count -> ∃ other, curve.depth index = .ok other ∧ other ≤ depth)
    (behind : ∀ index, count ≤ index -> index < total ->
      ∃ other, curve.depth index = .ok other ∧ ¬other ≤ depth)
    {low high : Nat}
    (lowBound : low ≤ count)
    (highBound : count ≤ high)
    (inside : high ≤ total) :
    curve.bisect depth low high = .ok count := by
  fun_induction bisect curve depth low high with
  | case1 low high below middle inductionBehind inductionBefore =>
      have middle_eq : middle = low + (high - low) / 2 := rfl
      rcases Nat.lt_or_ge middle count with isBefore | isBehind
      · obtain ⟨other, depth_eq, ordered⟩ := before middle isBefore
        rw [depth_eq]
        simp only [bind, Except.bind, if_pos ordered]
        exact inductionBehind isBefore highBound inside
      · obtain ⟨other, depth_eq, notOrdered⟩ := behind middle isBehind (by omega)
        rw [depth_eq]
        simp only [bind, Except.bind, if_neg notOrdered]
        exact inductionBefore lowBound isBehind (by omega)
  | case2 low high notBelow =>
      rw [show low = count by omega]

end StoredCurve

namespace Curve

/-- The depths of the nodes do not decrease. -/
def Ascending (curve : Curve) : Prop :=
  curve.nodes.Pairwise fun first second => first.depth ≤ second.depth

variable {curve : Curve} {channels : Nat}

theorem depth_ofCurve
    (supported : supportedChannels channels = true)
    {index : Nat}
    (bound : index < curve.nodes.length) :
    (StoredCurve.ofCurve channels curve).depth index = .ok curve.nodes[index].depth := by
  have found : (curve.stored channels)[index * (channels + 1)]? =
      some curve.nodes[index].depth := by
    rw [← Nat.add_zero (index * (channels + 1)), ← List.getElem?_drop]
    unfold stored
    rw [drop_flatMap_stored supported, List.drop_eq_getElem_cons bound]
    rfl
  unfold StoredCurve.depth StoredCurve.stride StoredCurve.ofCurve
  rw [List.getElem?_toArray, found]

theorem visibility_ofCurve
    (supported : supportedChannels channels = true)
    {index : Nat}
    (bound : index < curve.nodes.length) :
    (StoredCurve.ofCurve channels curve).visibility index =
      .ok (curve.nodes[index].visibility.seen channels) := by
  have inside : index * (channels + 1) + 1 + channels ≤ (curve.stored channels).length := by
    unfold stored
    rw [length_flatMap_stored supported, Nat.add_assoc, Nat.add_comm 1, ← Nat.succ_mul]
    exact Nat.mul_le_mul_right _ bound
  have extracted : ((curve.stored channels).toArray.extract (index * (channels + 1) + 1)
      (index * (channels + 1) + 1 + channels)).toList =
        curve.nodes[index].visibility.stored channels := by
    rw [Array.toList_extract, List.extract_eq_take_drop, Nat.add_sub_cancel_left,
      ← List.drop_drop]
    unfold stored
    rw [drop_flatMap_stored supported, List.drop_eq_getElem_cons bound, List.flatMap_cons]
    unfold Node.stored
    rw [List.cons_append, List.drop_succ_cons, List.drop_zero]
    exact List.take_left' (Color.length_stored supported _)
  unfold StoredCurve.visibility StoredCurve.stride StoredCurve.ofCurve
  simp only [List.size_toArray, inside, if_true, extracted]
  exact Color.ofComponents_stored supported _

@[simp] theorem length_ofCurve
    (supported : supportedChannels channels = true)
    (curve : Curve) :
    (StoredCurve.ofCurve channels curve).length = curve.nodes.length := by
  unfold StoredCurve.length StoredCurve.stride StoredCurve.ofCurve stored
  rw [List.size_toArray, length_flatMap_stored supported]
  exact Nat.mul_div_cancel _ (Nat.succ_pos channels)

/-! ## Looking up depths -/

/-- The number of nodes in front of the first one behind a depth. -/
def countUpTo (curve : Curve) (depth : Single) : Nat :=
  curve.nodes.findIdx fun node => !decide (node.depth ≤ depth)

variable {depth : Single} {index : Nat}

theorem countUpTo_le (curve : Curve) (depth : Single) :
    curve.countUpTo depth ≤ curve.nodes.length := List.findIdx_le_length

theorem depth_le_of_lt_countUpTo
    (bound : index < curve.countUpTo depth)
    (inside : index < curve.nodes.length) :
    curve.nodes[index].depth ≤ depth := by
  have notBehind := List.not_of_lt_findIdx bound
  simpa using notBehind

/-- Where depths do not decrease, no node behind a depth is followed by one that is
not. -/
theorem Ascending.not_depth_le
    (ascending : curve.Ascending)
    (bound : curve.countUpTo depth ≤ index)
    (inside : index < curve.nodes.length) :
    ¬curve.nodes[index].depth ≤ depth := by
  have found : curve.countUpTo depth < curve.nodes.length := Nat.lt_of_le_of_lt bound inside
  have isBehind : (!decide (curve.nodes[curve.countUpTo depth].depth ≤ depth)) = true :=
    List.findIdx_getElem (w := found)
  have first : ¬curve.nodes[curve.countUpTo depth].depth ≤ depth := by
    simpa using isBehind
  rcases Nat.eq_or_lt_of_le bound with same | behind
  · subst same
    exact first
  · have ordered := List.pairwise_iff_getElem.mp ascending _ _ found inside behind
    exact fun below => first (Single.le_trans ordered below)

/-- The stored form of a curve is looked up like the curve. -/
theorem Ascending.visibilityAt_ofCurve
    (ascending : curve.Ascending)
    (supported : supportedChannels channels = true)
    (depth : Single) :
    (StoredCurve.ofCurve channels curve).visibilityAt depth =
      .ok ((curve.visibilityAt depth).seen channels) := by
  have bound := curve.countUpTo_le depth
  have before : ∀ index, index < curve.countUpTo depth ->
      ∃ other, (StoredCurve.ofCurve channels curve).depth index = .ok other ∧ other ≤ depth := by
    intro index isBefore
    have inside := Nat.lt_of_lt_of_le isBefore bound
    exact ⟨_, depth_ofCurve supported inside, depth_le_of_lt_countUpTo isBefore inside⟩
  have behind : ∀ index, curve.countUpTo depth ≤ index -> index < curve.nodes.length ->
      ∃ other, (StoredCurve.ofCurve channels curve).depth index = .ok other ∧ ¬other ≤ depth := by
    intro index isBehind inside
    exact ⟨_, depth_ofCurve supported inside, ascending.not_depth_le isBehind inside⟩
  -- Bisection stops where the scan from the front does.
  have found := StoredCurve.bisect_eq_ok before behind (Nat.zero_le _) bound (Nat.le_refl _)
  have front_eq : (curve.nodes.takeWhile fun node => node.depth ≤ depth) =
      curve.nodes.take (curve.countUpTo depth) := List.takeWhile_eq_take_findIdx_not
  unfold StoredCurve.visibilityAt visibilityAt
  rw [length_ofCurve supported, found, front_eq]
  cases count_eq : curve.countUpTo depth with
  | zero =>
      rw [List.take_zero, List.getLast?_nil, Color.seen_white]
      rfl
  | succ count =>
      have inside : count < curve.nodes.length := by
        rw [count_eq] at bound
        exact bound
      rw [List.take_succ_eq_append_getElem inside, List.getLast?_concat]
      exact visibility_ofCurve supported inside

end Curve
end DeepShadow
