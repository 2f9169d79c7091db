import DeepShadow.Proofs.Visibility.Bisection

/-!
# Curves of one node

A curve with a single node has full visibility in front of the node and the
visibility of the node from there on.  That it never occludes anything is a
property of the node and not of the number of nodes: the node is white, or it lies at
a depth that is not a number and so is never reached.
-/

namespace DeepShadow

namespace Single

/-- A number is at or before itself, a NaN is not. -/
theorem le_self_iff {x : Single} : x ≤ x ↔ x.isNaN = false := by
  rw [le_iff_key]
  exact ⟨fun ordered => ordered.1, fun number => ⟨number, number, Int.le_refl _⟩⟩

end Single

namespace Node

/-- A node that occludes nothing where it is the only one of a curve. -/
def IsClear (node : Node) : Prop :=
  node.visibility = Color.white ∨ node.depth.isNaN = true

instance (node : Node) : Decidable node.IsClear :=
  inferInstanceAs (Decidable (_ ∨ _))

theorem isClear_start : start.IsClear := Or.inl rfl

theorem visibilityAt_alone
    (node : Node)
    (depth : Single) :
    (Curve.mk [node]).visibilityAt depth =
      if node.depth ≤ depth then node.visibility else Color.white := by
  unfold Curve.visibilityAt
  rw [List.takeWhile_cons, List.takeWhile_nil]
  by_cases reached : node.depth ≤ depth
  · rw [if_pos reached, if_pos (decide_eq_true reached)]
    rfl
  · rw [if_neg reached, if_neg (by simp [reached])]
    rfl

/-- The nodes that occlude nothing are the clear ones. -/
theorem isClear_iff (node : Node) :
    node.IsClear ↔ ∀ depth, (Curve.mk [node]).visibilityAt depth = Color.white := by
  constructor
  · rintro (white | notNumber) depth
    · rw [visibilityAt_alone, white, ite_self]
    · rw [visibilityAt_alone, if_neg]
      intro reached
      rw [Single.le_iff_key, notNumber] at reached
      cases reached.1
  · intro white
    cases number : node.depth.isNaN with
    | true => exact Or.inr number
    | false =>
        -- At its own depth the node is reached.
        have atNode := white node.depth
        rw [visibilityAt_alone, if_pos (Single.le_self_iff.mpr number)] at atNode
        exact Or.inl atNode

end Node

/-- Where all results are there, they are as many as the values. -/
theorem length_of_mapM_eq_ok
    {Value Result Failure : Type}
    {function : Value -> Except Failure Result}
    {values : List Value}
    {results : List Result}
    (mapped : values.mapM function = .ok results) :
    results.length = values.length := by
  induction values generalizing results with
  | nil =>
      cases mapped
      rfl
  | cons value values inductionHypothesis =>
      rw [List.mapM_cons] at mapped
      cases first : function value with
      | error failure =>
          rw [first] at mapped
          cases mapped
      | ok result =>
          cases rest : values.mapM function with
          | error failure =>
              rw [first, rest] at mapped
              cases mapped
          | ok others =>
              rw [first, rest] at mapped
              cases mapped
              rw [List.length_cons, List.length_cons, inductionHypothesis rest]

namespace StoredCurve

variable {curve : StoredCurve} {node : Node}

theorem length_of_nodes_eq_ok
    {nodes : List Node}
    (found : curve.nodes = .ok nodes) :
    curve.length = nodes.length := by
  unfold StoredCurve.nodes at found
  rw [length_of_mapM_eq_ok found, List.length_range]

/-- What is stored of a curve with one node. -/
theorem nodes_eq_singleton_iff :
    curve.nodes = .ok [node] ↔
      curve.length = 1 ∧ curve.depth 0 = .ok node.depth ∧
        curve.visibility 0 = .ok node.visibility := by
  have nodes_eq (one : curve.length = 1) :
      curve.nodes = .ok [node] ↔ curve.node 0 = .ok node := by
    unfold nodes
    rw [one, List.range_one, List.mapM_cons, List.mapM_nil]
    cases curve.node 0 with
    | error violation =>
        exact iff_of_false (fun found => by cases found) (fun found => by cases found)
    | ok other =>
        constructor
        · intro found
          cases found
          rfl
        · intro found
          cases found
          rfl
  have node_eq : curve.node 0 = .ok node ↔
      curve.depth 0 = .ok node.depth ∧ curve.visibility 0 = .ok node.visibility := by
    unfold StoredCurve.node
    cases curve.depth 0 with
    | error violation =>
        exact iff_of_false (fun found => by cases found) (fun found => by cases found.1)
    | ok depth =>
        cases curve.visibility 0 with
        | error violation =>
            exact iff_of_false (fun found => by cases found) (fun found => by cases found.2)
        | ok visibility =>
            constructor
            · intro found
              cases found
              exact ⟨rfl, rfl⟩
            · rintro ⟨sameDepth, sameVisibility⟩
              cases sameDepth
              cases sameVisibility
              rfl
  constructor
  · intro found
    have one := length_of_nodes_eq_ok found
    exact ⟨one, node_eq.mp ((nodes_eq one).mp found)⟩
  · rintro ⟨one, found⟩
    exact (nodes_eq one).mpr (node_eq.mpr found)

/-- A stored curve with one node is looked up like the node. -/
theorem visibilityAt_of_single
    (single : curve.nodes = .ok [node])
    (depth : Single) :
    curve.visibilityAt depth = .ok ((Curve.mk [node]).visibilityAt depth) := by
  obtain ⟨one, depth_eq, visibility_eq⟩ := nodes_eq_singleton_iff.mp single
  rw [Node.visibilityAt_alone]
  unfold visibilityAt
  rw [one]
  by_cases reached : node.depth ≤ depth
  · have found : curve.bisect depth 0 1 = .ok 1 := by
      apply bisect_eq_ok
      case total => exact 1
      · intro index before
        rw [Nat.lt_one_iff.mp before]
        exact ⟨_, depth_eq, reached⟩
      · intro index behind bound
        exact absurd bound (Nat.not_lt.mpr behind)
      all_goals omega
    rw [found, if_pos reached]
    exact visibility_eq
  · have found : curve.bisect depth 0 1 = .ok 0 := by
      apply bisect_eq_ok
      case total => exact 1
      · intro index before
        exact absurd before (Nat.not_lt_zero _)
      · intro index _ bound
        rw [Nat.lt_one_iff.mp bound]
        exact ⟨_, depth_eq, reached⟩
      all_goals omega
    rw [found, if_neg reached]
    rfl

/-- A stored curve with one node occludes nothing where the node is clear. -/
theorem white_iff_of_single (single : curve.nodes = .ok [node]) :
    (∀ depth, curve.visibilityAt depth = .ok Color.white) ↔ node.IsClear := by
  rw [node.isClear_iff]
  apply forall_congr'
  intro depth
  rw [visibilityAt_of_single single, Except.ok.injEq]

/-- A stored curve with one node occludes nothing where it has one node and this is
clear. -/
theorem white_iff_exists_of_single (single : curve.nodes = .ok [node]) :
    (∀ depth, curve.visibilityAt depth = .ok Color.white) ↔
      ∃ node, curve.nodes = .ok [node] ∧ node.IsClear := by
  rw [white_iff_of_single single]
  constructor
  · intro isClear
    exact ⟨node, single, isClear⟩
  · rintro ⟨other, otherSingle, isClear⟩
    rw [single] at otherSingle
    cases otherSingle
    exact isClear

/-- The values of one node make a curve with this node. -/
theorem exists_single_of_size
    {channels : Nat}
    {data : Array Single}
    (supported : supportedChannels channels = true)
    (oneNode : data.size = channels + 1) :
    ∃ node, (StoredCurve.mk channels data).nodes = .ok [node] := by
  have one : (StoredCurve.mk channels data).length = 1 := by
    unfold length stride
    rw [oneNode]
    exact Nat.div_self (Nat.succ_pos channels)
  simp only [nodes_eq_singleton_iff, one, true_and]
  obtain ⟨values, rfl⟩ : ∃ values : List Single, data = values.toArray := ⟨data.toList, by simp⟩
  rcases supportedChannels_iff.mp supported with rfl | rfl
  · match values, oneNode with
    | [depth, value], _ => exact ⟨⟨depth, Color.gray value⟩, rfl, rfl⟩
  · match values, oneNode with
    | [depth, red, green, blue], _ => exact ⟨⟨depth, red, green, blue⟩, rfl, rfl⟩

end StoredCurve
end DeepShadow
