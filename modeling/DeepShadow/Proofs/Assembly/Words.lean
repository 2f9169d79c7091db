import DeepShadow.Assembly.Words
import DeepShadow.Proofs.Assembly.Calls

/-!
# Words and numbers

Where words hold the number of values that the curves of a region need, an assembly that
counts in words does what the one does that counts without a bound.  Whatever they hold, a
region that passes the checks has the rectangle that it needs, and the strips that are cut from
it are the rows of this rectangle.  So what an assembly keeps of the rectangles that have
arrived does not depend on how it counts.
-/

namespace DeepShadow

open Region (nodeTotal)

/-- Words hold the number of values that the curves of a region need. -/
def Region.Measurable (region : Region) : Prop :=
  ∀ lengths, region.lengths = some lengths ->
    nodeTotal lengths * (region.channels + 1) < 0x10000000000000000

namespace Assembly

theorem inWord_of_lt
    {count : Nat}
    (fits : count < 0x10000000000000000) :
    inWord count = count := Nat.mod_eq_of_lt fits

namespace Strip

variable {width stride rows start : Nat} {lengths : List Nat} {values : List Single}

/-- Of values that words count, the same strips are cut. -/
theorem cutInWords_eq
    (enough : start + nodeTotal lengths * stride ≤ values.length)
    (fits : values.length < 0x10000000000000000) :
    cutInWords width stride values rows lengths start =
      .ok (cut width stride rows lengths (values.drop start)) := by
  induction rows generalizing lengths start with
  | zero => rfl
  | succ rows inductionHypothesis =>
      have total : nodeTotal lengths =
          nodeTotal (lengths.take width) + nodeTotal (lengths.drop width) := by
        rw [← Region.nodeTotal_append, List.take_append_drop]
      rw [total, Nat.add_mul, ← Nat.add_assoc] at enough
      generalize stop_eq : start + nodeTotal (lengths.take width) * stride = stop at enough
      have stop_le : stop ≤ values.length := Nat.le_trans (Nat.le_add_right _ _) enough
      have inside : ¬(stop < start ∨ values.length < stop) := by omega
      have first_eq : (values.take stop).drop start =
          (values.drop start).take (nodeTotal (lengths.take width) * stride) := by
        rw [List.drop_take, ← stop_eq, Nat.add_sub_cancel_left]
      have rest_eq : (values.drop start).drop (nodeTotal (lengths.take width) * stride) =
          values.drop stop := by
        rw [List.drop_drop, stop_eq]
      rw [cutInWords, cut, stop_eq, inWord_of_lt (Nat.lt_of_le_of_lt stop_le fits), rest_eq,
        first_eq]
      simp only [if_neg inside, inductionHypothesis enough]
      rfl

/-- Strips that are cut in words are rows of pixels. -/
theorem of_cutInWords_eq_ok
    {strips : List Strip}
    (count : lengths.length = width * rows)
    (made : cutInWords width stride values rows lengths start = .ok strips) :
    strips.length = rows ∧ ∀ strip ∈ strips, strip.lengths.length = width := by
  induction rows generalizing lengths start strips with
  | zero =>
      cases made
      exact ⟨rfl, fun strip member => by cases member⟩
  | succ rows inductionHypothesis =>
      rw [Nat.mul_succ] at count
      have restCount : (lengths.drop width).length = width * rows := by
        rw [List.length_drop, count]
        omega
      rw [cutInWords] at made
      split at made
      next => cases made
      next =>
        cases others : cutInWords width stride values rows (lengths.drop width)
            (inWord (start + nodeTotal (lengths.take width) * stride)) with
        | error violation =>
            rw [others] at made
            cases made
        | ok rest =>
            rw [others] at made
            cases made
            obtain ⟨length_eq, width_eq⟩ := inductionHypothesis restCount others
            refine ⟨congrArg (· + 1) length_eq, ?_⟩
            intro strip member
            rcases List.mem_cons.mp member with rfl | inRest
            · show (lengths.take width).length = width
              rw [List.length_take, count]
              omega
            · exact width_eq strip inRest

/-- The strips of a region that has a number of nodes for each pixel are its rows. -/
theorem cover_ofRegionInWords
    {region : Region}
    {strips : List Strip}
    (counted : ∀ lengths, region.lengths = some lengths ->
      lengths.length = region.bounds.pixelCount)
    (made : ofRegionInWords region = .ok strips) :
    Cover strips region.bounds := by
  unfold ofRegionInWords at made
  cases carried : region.lengths with
  | none =>
      rw [carried] at made
      cases made
      refine ⟨List.length_replicate, fun strip member => ?_⟩
      rw [List.eq_of_mem_replicate member]
      exact List.length_replicate
  | some lengths =>
      rw [carried] at made
      obtain ⟨length_eq, width_eq⟩ := of_cutInWords_eq_ok (counted lengths carried) made
      exact ⟨length_eq, width_eq⟩

/-- Of a well-formed region with values that words count, the same strips are made. -/
theorem ofRegionInWords_eq
    {region : Region}
    (measurable : region.Measurable)
    (wellFormed : region.WellFormed) :
    ofRegionInWords region = .ok (ofRegion region) := by
  unfold ofRegionInWords ofRegion
  cases carried : region.lengths with
  | none => rfl
  | some lengths =>
      obtain ⟨_, _, enough⟩ := wellFormed lengths carried
      have fits := measurable lengths carried
      rw [← enough] at fits
      exact cutInWords_eq (Nat.le_of_eq ((Nat.zero_add _).trans enough.symm)) fits

end Strip

namespace Assembler

variable {State Summary : Type} {image : Image} {canvas : Canvas}
  {assembler next : Assembler State Summary} {region : Region} {sink : Sink State Summary}

/-! ## Counting without a bound -/

/-- Where words hold the number of values, the checks are the same. -/
theorem checkInWords_eq (measurable : region.Measurable) :
    assembler.checkInWords region = assembler.check region := by
  unfold checkInWords check checkBy
  cases carried : region.lengths with
  | none => rfl
  | some lengths =>
      have fits := inWord_of_lt (measurable lengths carried)
      have same : checkCurvesBy inWord region lengths = checkCurvesBy id region lengths := by
        unfold checkCurvesBy
        rw [fits]
        rfl
      simp only [same]

/-- Where words hold the number of values, a region is put into the same tile. -/
theorem fillInWords_eq (measurable : region.Measurable) :
    assembler.fillInWords region = .ok (assembler.fill region) := by
  unfold fillInWords fill
  rw [checkInWords_eq measurable]
  cases checked : assembler.check region with
  | error error => rfl
  | ok _ =>
      obtain ⟨_, _, wellFormed⟩ := of_check_eq_ok checked
      cases found : assembler.find region with
      | error error => rfl
      | ok place =>
          simp only [bind, Except.bind, Strip.ofRegionInWords_eq measurable wellFormed]
          rfl

/-- Where words hold the number of values, the same becomes of a region. -/
theorem submitInWords_eq (measurable : region.Measurable) :
    assembler.submitInWords sink region = assembler.submit sink region := by
  unfold submitInWords submit
  rw [fillInWords_eq measurable]
  cases assembler.fill region with
  | error error => rfl
  | ok pair => rfl

/-! ## Counting in words -/

/-- A region that is put into its tile has the rectangle that it needs, and its strips are the
rows of this rectangle. -/
theorem of_fillInWords_eq_ok
    {pair : Fin assembler.grid.tileCount × PendingTile}
    (filled : assembler.fillInWords region = .ok (.ok pair)) :
    assembler.isFinished = false ∧ assembler.outline.Admits region.outline ∧
      ∃ place strips, assembler.find region = .ok place ∧
        Strip.Cover strips region.bounds ∧ pair = place.fill strips := by
  unfold fillInWords at filled
  cases checked : assembler.checkInWords region with
  | error error =>
      rw [checked] at filled
      cases filled
  | ok _ =>
      obtain ⟨unfinished, frames, curves⟩ := Image.checkBy_passes_iff.mp checked
      cases found : assembler.find region with
      | error error =>
          simp only [checked, found, bind, Except.bind] at filled
          cases filled
      | ok place =>
          simp only [checked, found, bind, Except.bind] at filled
          cases made : Strip.ofRegionInWords region with
          | error violation =>
              rw [made] at filled
              cases filled
          | ok strips =>
              rw [made] at filled
              cases filled
              refine ⟨unfinished, frames.admits, place, strips, rfl, ?_, rfl⟩
              exact Strip.cover_ofRegionInWords (fun lengths carried =>
                ((Image.checkCurvesBy_eq_ok_iff inWord lengths).mp (curves lengths carried)).1)
                made

theorem fillInWords_of_finished (finished : assembler.isFinished = true) (region : Region) :
    assembler.fillInWords region = .ok (.error .finished) := by
  unfold fillInWords checkInWords checkBy
  simp only [finished]
  rfl

/-- What becomes of a region in an assembly that counts in words. -/
theorem Keeps.of_submitInWords
    (keeps : assembler.Keeps image canvas)
    {result : Except Error Unit}
    (submitted : (assembler.submitInWords sink region).value = .ok (result, next)) :
    Intake sink image canvas assembler region result next := by
  unfold submitInWords at submitted
  cases filled : assembler.fillInWords region with
  | error violation =>
      rw [filled] at submitted
      cases submitted
  | ok outcome =>
      rw [filled] at submitted
      cases outcome with
      | error error =>
          cases submitted
          refine .refused fun finished => ?_
          rw [fillInWords_of_finished finished] at filled
          cases filled
          rfl
      | ok pair =>
          obtain ⟨unfinished, admits, place, strips, found, cover, rfl⟩ :=
            of_fillInWords_eq_ok filled
          exact keeps.of_take unfinished admits found cover submitted

/-- Makes several calls of an assembly that counts in words, until one of them violates what the
assembly relies on. -/
def performAllInWords
    (sink : Sink State Summary)
    (assembler : Assembler (State × List Request) Summary)
    (calls : List Call) :
    List Step × Except Violation (Assembler (State × List Request) Summary) :=
  assembler.performAllBy
    (fun assembler region => (assembler.submitInWords sink.recorded region).value) sink calls

theorem takes_submitInWords {sink : Sink State Summary} :
    Takes (fun assembler region => (assembler.submitInWords sink.recorded region).value) sink :=
  fun keeps submitted => keeps.of_submitInWords submitted

end Assembler
end Assembly
end DeepShadow
