import DeepShadow.Proofs.Single.Thirds
import DeepShadow.Proofs.Visibility.Search

/-!
# Gray curves with one channel

Where one channel is stored, a gray visibility is stored as the mean of three equal numbers.
For most numbers from zero to one this is the number; for the others, which are known by
their last binary digits, it is a neighbor.  A mean is its own mean, so that a curve that was
written and read once is not changed any more.
-/

namespace DeepShadow

/-! ## Nodes read back -/

/-- Results for the numbers of a list's entries make the list. -/
theorem mapM_range_eq_ok
    {α ε : Type}
    [Inhabited α]
    {function : Nat -> Except ε α}
    (values : List α)
    (each : ∀ index (bound : index < values.length), function index = .ok values[index]) :
    (List.range values.length).mapM function = .ok values := by
  have entries : (List.range values.length).map (fun index => values[index]?.getD default) =
      values := by
    apply List.ext_getElem
    · rw [List.length_map, List.length_range]
    · intro index bound boundToo
      rw [List.getElem_map, List.getElem_range, List.getElem?_eq_getElem boundToo,
        Option.getD_some]
  have found (index : Nat) (member : index ∈ List.range values.length) :
      function index = .ok (values[index]?.getD default) := by
    have bound := List.mem_range.mp member
    rw [each index bound, List.getElem?_eq_getElem bound, Option.getD_some]
  rw [mapM_eq_ok _ found, entries]

/-- Each result of a list of steps is the result of one of them. -/
theorem exists_of_mapM_eq_ok
    {α β ε : Type}
    {function : α -> Except ε β}
    {values : List α}
    {results : List β}
    (found : values.mapM function = .ok results)
    {result : β}
    (member : result ∈ results) :
    ∃ value ∈ values, function value = .ok result := by
  induction values generalizing results with
  | nil =>
      cases found
      cases member
  | cons first others inductionHypothesis =>
      rw [List.mapM_cons] at found
      cases first_eq : function first with
      | error violation =>
          rw [first_eq] at found
          cases found
      | ok head =>
          cases others_eq : others.mapM function with
          | error violation =>
              rw [first_eq, others_eq] at found
              cases found
          | ok tail =>
              rw [first_eq, others_eq] at found
              cases found
              rcases List.mem_cons.mp member with rfl | memberOfTail
              · exact ⟨first, List.mem_cons_self, first_eq⟩
              · obtain ⟨value, valueMember, value_eq⟩ := inductionHypothesis others_eq memberOfTail
                exact ⟨value, List.mem_cons_of_mem _ valueMember, value_eq⟩

namespace Curve

variable {curve : Curve} {channels : Nat}

/-- What is read of a curve that was written. -/
def restored (curve : Curve) (channels : Nat) : Except Violation Curve := do
  let data ← curve.flatten channels
  let stored ← StoredCurve.ofData channels data.toArray
  return ⟨← stored.nodes⟩

/-- A curve that was written has its depths, and what is stored of its visibilities. -/
theorem restored_eq_ok
    (supported : supportedChannels channels = true)
    (curve : Curve) :
    curve.restored channels =
      .ok ⟨curve.nodes.map fun node => ⟨node.depth, node.visibility.seen channels⟩⟩ := by
  have nodes_eq : (StoredCurve.ofCurve channels curve).nodes =
      .ok (curve.nodes.map fun node => ⟨node.depth, node.visibility.seen channels⟩) := by
    have count : (StoredCurve.ofCurve channels curve).length =
        (curve.nodes.map fun node =>
          (⟨node.depth, node.visibility.seen channels⟩ : Node)).length := by
      rw [length_ofCurve supported, List.length_map]
    unfold StoredCurve.nodes
    rw [count]
    apply mapM_range_eq_ok
    intro index bound
    rw [List.length_map] at bound
    rw [StoredCurve.node, depth_ofCurve supported bound, visibility_ofCurve supported bound,
      List.getElem_map]
    rfl
  unfold restored
  rw [flatten_eq_ok supported]
  simp only [bind, Except.bind, ofData_stored supported, nodes_eq]
  rfl

/-! ## Gray curves -/

/-- Each visibility is gray, with a value from zero to one. -/
def IsGray (curve : Curve) : Prop :=
  ∀ node ∈ curve.nodes, ∃ value : Single, node.visibility = Color.gray value ∧ value.InUnit

/-- The curve with each value as the mean of three of it. -/
def settled (curve : Curve) : Curve :=
  ⟨curve.nodes.map fun node => ⟨node.depth, node.visibility.map Single.settled⟩⟩

/-- A gray curve is read with the means of its values. -/
theorem IsGray.restored_eq (gray : curve.IsGray) : curve.restored 1 = .ok curve.settled := by
  rw [restored_eq_ok rfl, settled]
  congr 2
  apply List.map_congr_left
  intro node member
  obtain ⟨value, visibility_eq, inUnit⟩ := gray node member
  have mean_eq : (Color.gray value).mean = value.settled := inUnit.mean_eq
  rw [visibility_eq, Color.seen, if_pos rfl, mean_eq]
  rfl

theorem IsGray.settled (gray : curve.IsGray) : curve.settled.IsGray := by
  intro node member
  obtain ⟨original, originalMember, rfl⟩ := List.mem_map.mp member
  obtain ⟨value, visibility_eq, inUnit⟩ := gray original originalMember
  exact ⟨value.settled, congrArg (Color.map · Single.settled) visibility_eq, inUnit.settled⟩

theorem IsGray.settled_settled (gray : curve.IsGray) : curve.settled.settled = curve.settled := by
  unfold Curve.settled
  rw [List.map_map]
  congr 1
  apply List.map_congr_left
  intro node member
  obtain ⟨value, visibility_eq, inUnit⟩ := gray node member
  have settled_eq : ((Color.gray value).map Single.settled).map Single.settled =
      (Color.gray value).map Single.settled := by
    simp only [Color.gray, Color.map, inUnit.settled_settled]
  simp only [Function.comp_apply, visibility_eq, settled_eq]

/-- A curve of means is written as the curve that it is the means of. -/
theorem IsGray.flatten_settled (gray : curve.IsGray) :
    curve.settled.flatten 1 = curve.flatten 1 := by
  rw [flatten_eq_ok rfl, flatten_eq_ok rfl, stored, stored, Curve.settled, List.flatMap_map]
  congr 1
  apply List.flatMap_congr
  intro node member
  obtain ⟨value, visibility_eq, inUnit⟩ := gray node member
  have mean_eq : (Color.gray value).mean = value.settled := inUnit.mean_eq
  have again : (Color.gray value.settled).mean = value.settled :=
    inUnit.settled.mean_eq.trans inUnit.settled_settled
  have settled_eq : (Color.gray value).map Single.settled = Color.gray value.settled := rfl
  simp only [Node.stored, Color.stored, visibility_eq, settled_eq, mean_eq, again, if_true]

/-- The gray curves that are read as they were written. -/
theorem IsGray.settled_eq_iff (gray : curve.IsGray) :
    curve.settled = curve ↔ ∀ node ∈ curve.nodes, ¬node.visibility.red.Strays := by
  have kept (node : Node) (member : node ∈ curve.nodes) :
      (⟨node.depth, node.visibility.map Single.settled⟩ : Node) = node ↔
        ¬node.visibility.red.Strays := by
    obtain ⟨value, visibility_eq, inUnit⟩ := gray node member
    obtain ⟨depth, visibility⟩ := node
    subst visibility_eq
    have value_iff : ¬(Color.gray value).red.Strays ↔ value.settled = value :=
      inUnit.settled_eq_iff.symm
    rw [value_iff]
    simp [Color.gray, Color.map]
  have nodes_iff : curve.settled = curve ↔ curve.settled.nodes = curve.nodes.map id := by
    rw [List.map_id]
    exact ⟨congrArg Curve.nodes, fun same => congrArg Curve.mk same⟩
  rw [nodes_iff]
  exact List.map_eq_map_iff.trans (forall₂_congr kept)

/-! ## Data with one channel -/

/-- A node with one component is gray. -/
theorem visibility_one
    {data : Array Single}
    {index : Nat}
    (inside : index * 2 + 1 < data.size) :
    StoredCurve.visibility ⟨1, data⟩ index = .ok (Color.gray data[index * 2 + 1]) := by
  have component : (data.extract (index * 2 + 1) (index * 2 + 1 + 1)).toList =
      [data[index * 2 + 1]] := by
    rw [Array.toList_extract, List.extract_eq_take_drop, Nat.add_sub_cancel_left,
      List.drop_eq_getElem_cons inside]
    rfl
  have ends : index * 2 + 1 + 1 ≤ data.size := inside
  simp only [StoredCurve.visibility, StoredCurve.stride, ends, if_true, component,
    Color.ofComponents_one]

/-- Whole nodes with one component from zero to one are read as a gray curve. -/
theorem exists_gray_nodes
    {data : Array Single}
    (whole : 2 ∣ data.size)
    (inUnit : ∀ index value, data[index * 2 + 1]? = some value -> value.InUnit) :
    ∃ stored nodes, StoredCurve.ofData 1 data = .ok stored ∧ stored.nodes = .ok nodes ∧
      IsGray ⟨nodes⟩ := by
  have node_eq (index : Nat) (member : index ∈ List.range (StoredCurve.length ⟨1, data⟩)) :
      ∃ depth value, StoredCurve.node ⟨1, data⟩ index = .ok ⟨depth, Color.gray value⟩ ∧
        value.InUnit := by
    have wholeNodes := StoredCurve.whole_of_dvd (by rfl : supportedChannels 1 = true) whole
    have inside := List.mem_range.mp member
    have ends : index * 2 + 2 ≤ data.size := wholeNodes.node_le inside
    obtain ⟨depth, depth_eq⟩ := wholeNodes.depth_eq_ok inside
    refine ⟨depth, data[index * 2 + 1], ?_, inUnit index _ (Array.getElem?_eq_getElem ends)⟩
    rw [StoredCurve.node, depth_eq, visibility_one ends]
    rfl
  have read (index : Nat) (member : index ∈ List.range (StoredCurve.length ⟨1, data⟩)) :
      StoredCurve.node ⟨1, data⟩ index =
        .ok ((StoredCurve.node ⟨1, data⟩ index).toOption.getD default) := by
    obtain ⟨depth, value, found, -⟩ := node_eq index member
    rw [found]
    rfl
  refine ⟨_, _, StoredCurve.ofData_eq_ok rfl whole, mapM_eq_ok _ read, fun node member => ?_⟩
  obtain ⟨index, indexMember, found⟩ := exists_of_mapM_eq_ok (mapM_eq_ok _ read) member
  obtain ⟨depth, value, found', isInUnit⟩ := node_eq index indexMember
  obtain rfl := Except.ok.inj (found.symm.trans found')
  exact ⟨value, rfl, isInUnit⟩

/-- A gray curve with values from zero to one that is written with one channel is read with
its own depths and with the means of three equal values.  A mean is the value or a neighbor
of it, and the curve is read as it was written exactly where no value strays.  What was read
is such a curve again; it is written as the same data and read without a change. -/
theorem gray_restored
    {curve : Curve}
    (gray : curve.IsGray) :
    curve.restored 1 = .ok curve.settled ∧
      (∀ node ∈ curve.nodes,
        node.visibility.red.settled.magnitude ≤ node.visibility.red.magnitude + 1 ∧
          node.visibility.red.magnitude ≤ node.visibility.red.settled.magnitude + 1) ∧
      (curve.restored 1 = .ok curve ↔ ∀ node ∈ curve.nodes, ¬node.visibility.red.Strays) ∧
      curve.settled.IsGray ∧
      curve.settled.flatten 1 = curve.flatten 1 ∧
      curve.settled.restored 1 = .ok curve.settled := by
  refine ⟨gray.restored_eq, fun node member => ?_, ?_, gray.settled, gray.flatten_settled, ?_⟩
  · obtain ⟨value, visibility_eq, inUnit⟩ := gray node member
    rw [visibility_eq]
    exact inUnit.settled_near
  · rw [gray.restored_eq, ← gray.settled_eq_iff]
    exact ⟨Except.ok.inj, congrArg Except.ok⟩
  · rw [gray.settled.restored_eq, gray.settled_settled]

namespace TwoThirds

/-- A number next to two thirds, whose triple lies in the middle between two words. -/
def value : Single := ⟨0x3f2aaaae⟩

/-- The curve of a translucent surface that covers everything. -/
def veil : Curve := ⟨[Node.start, ⟨Single.one, Color.gray value⟩]⟩

theorem inUnit_value : value.InUnit := ⟨by decide, by decide⟩

theorem isGray_veil : veil.IsGray := by
  rintro node member
  rcases List.mem_pair.mp member with rfl | rfl
  · exact ⟨Single.one, rfl, by decide, by decide⟩
  · exact ⟨value, rfl, inUnit_value⟩

end TwoThirds

open TwoThirds in
/-- The curve is read with the word in front of its value, which is then kept, and so is what
is read of the value alone. -/
theorem gray_restored_twoThirds :
    (veil.restored 1 = .ok ⟨[Node.start, ⟨Single.one, Color.gray ⟨0x3f2aaaad⟩⟩]⟩ ∧
      veil.settled.restored 1 = .ok veil.settled) ∧
    ∃ stored nodes, StoredCurve.ofData 1 #[Single.one, value] = .ok stored ∧
      stored.nodes = .ok nodes ∧
      restored ⟨nodes⟩ 1 = .ok (settled ⟨nodes⟩) ∧
      restored (settled ⟨nodes⟩) 1 = .ok (settled ⟨nodes⟩) := by
  constructor
  · obtain ⟨restored_eq, -, -, -, -, again⟩ := gray_restored isGray_veil
    have settled_eq : veil.settled = ⟨[Node.start, ⟨Single.one, Color.gray ⟨0x3f2aaaad⟩⟩]⟩ := by
      decide +kernel
    exact ⟨settled_eq ▸ restored_eq, again⟩
  · have inUnit (index : Nat) (found : Single)
        (value_eq : #[Single.one, value][index * 2 + 1]? = some found) : found.InUnit := by
      obtain ⟨bound, rfl⟩ := Array.getElem?_eq_some_iff.mp value_eq
      obtain rfl : index = 0 := by
        have : index * 2 + 1 < 2 := bound
        omega
      exact inUnit_value
    obtain ⟨stored, nodes, taken, read, gray⟩ := exists_gray_nodes (by decide) inUnit
    obtain ⟨restored_eq, -, -, -, -, again⟩ := gray_restored gray
    exact ⟨stored, nodes, taken, read, restored_eq, again⟩

open TwoThirds in
/-- The curve is gray with values from zero to one, and is not read as it was written. -/
theorem gray_not_kept : veil.IsGray ∧ veil.restored 1 ≠ .ok veil := by
  refine ⟨isGray_veil, fun kept => ?_⟩
  have settled_eq : veil.settled = veil :=
    Except.ok.inj (isGray_veil.restored_eq.symm.trans kept)
  exact absurd settled_eq (by decide +kernel)

end Curve
end DeepShadow
