import DeepShadow.Proofs.ShadowMap.Questions

/-!
# What a map keeps

A lookup can find a broken contract, and then it has no answer.  Where it has one, it leaves
a map that answers from the same file as before, whatever the tiles of the file look like.
-/

namespace DeepShadow

/-! ## Queries that keep a property -/

namespace Query

variable {State α β : Type} {holds : State -> Prop}

/-- A query leaves a state with a property wherever it has an answer on such a state. -/
def Keeps (holds : State -> Prop) (query : Query State α) : Prop :=
  ∀ state value next, holds state -> (query.answer state).value = .ok (value, next) -> holds next

theorem Gives.keeps
    {query : Query State α}
    {value : α}
    (gives : Gives holds query value) :
    Keeps holds query := by
  intro state other next holdsState answered
  obtain ⟨last, answeredToo, holdsLast⟩ := gives state holdsState
  cases answered.symm.trans answeredToo
  exact holdsLast

theorem keeps_pure (value : α) : Keeps holds (pure value) := (gives_pure value).keeps

theorem keeps_require (result : Except Violation α) : Keeps holds (require result) := by
  cases result with
  | error violation =>
      intro state value next _ answered
      cases answered
  | ok value => exact (gives_require rfl).keeps

theorem Keeps.bind
    {query : Query State α}
    {next : α -> Query State β}
    (first : Keeps holds query)
    (second : ∀ value, Keeps holds (next value)) :
    Keeps holds (query >>= next) := by
  intro state value last holdsState answered
  rw [answer_bind] at answered
  cases found : (query.answer state).value with
  | error violation =>
      rw [found] at answered
      cases answered
  | ok result =>
      obtain ⟨middleValue, middle⟩ := result
      rw [found] at answered
      have holdsMiddle := first state middleValue middle holdsState found
      exact second middleValue middle value last holdsMiddle answered

/-- A query may do anything with the state that it reads. -/
theorem keeps_get_bind
    {next : State -> Query State α}
    (known : ∀ state, Keeps holds (next state)) :
    Keeps holds ((get : Query State State) >>= next) := by
  intro state value last holdsState answered
  rw [answer_get_bind] at answered
  exact known state state value last holdsState answered

theorem keeps_mapM
    {query : α -> Query State β}
    (each : ∀ value, Keeps holds (query value))
    (values : List α) :
    Keeps holds (values.mapM query) := by
  induction values with
  | nil => exact keeps_pure []
  | cons first others inductionHypothesis =>
      rw [List.mapM_cons]
      exact (each first).bind fun _ => inductionHypothesis.bind fun _ => keeps_pure _

theorem keeps_foldlM
    {query : β -> α -> Query State β}
    (each : ∀ sum value, Keeps holds (query sum value))
    (values : List α)
    (sum : β) :
    Keeps holds (values.foldlM query sum) := by
  induction values generalizing sum with
  | nil => exact keeps_pure sum
  | cons first others inductionHypothesis =>
      rw [List.foldlM_cons]
      exact (each sum first).bind inductionHypothesis

end Query

/-- The visibility at a texture position, with the tile loaded when it is needed. -/
def TileSource.visibilityAtTexture
    {ε : Type}
    (source : TileSource ε)
    (point : SamplePoint) : Except Violation Color :=
  source.visibilityAt (ShadowMap.texel point.s source.grid.imageWidth)
    (ShadowMap.texel point.t source.grid.imageHeight) point.depth

open Query

/-! ## Readers -/

namespace CachedReader

variable {source : Texture.Reader}

theorem keeps_visibilityAt (x y : Nat) (depth : Single) :
    Keeps (Reads source) (visibilityAt x y depth) := by
  refine (gives_requestForPixel x y).keeps.bind fun tile => ?_
  cases tile with
  | none => exact keeps_pure Color.white
  | some tile => exact keeps_require _

theorem keeps_depthSlice (depth : Single) : Keeps (Reads source) (depthSlice depth) := by
  refine keeps_get_bind fun reader => (keeps_require _).bind fun _ => ?_
  refine (keeps_mapM (fun position => (gives_request position).keeps) _).bind fun tiles => ?_
  exact keeps_require _

/-- Where a lookup has an answer, it is the one of the file. -/
theorem visibilityAt_eq_of_answer
    {reader next : CachedReader}
    (reads : Reads source reader)
    {x y : Nat}
    {depth : Single}
    {color : Color}
    (answered : ((visibilityAt x y depth).answer reader).value = .ok (color, next)) :
    source.tiles.visibilityAt x y depth = .ok color := by
  obtain ⟨rfl, faithful⟩ := reads
  have looked := answer_visibilityAt_eq reader x y depth
  have faithfulToTiles : reader.cache.Faithful reader.tiles.load := faithful
  rw [answered, faithfulToTiles.visibilityAt_eq] at looked
  exact looked.symm

end CachedReader

/-! ## Maps -/

namespace ShadowMap

variable {source : Texture.Reader}

/-- A map keeps what its reader keeps. -/
theorem keeps_ask
    {α : Type}
    (fallback : α)
    {query : Query CachedReader α}
    (kept : Keeps (CachedReader.Reads source) query) :
    Keeps (Serves (.ok source)) (ask fallback query) := by
  rintro map value next ⟨reader, reader_eq, source_eq, faithful⟩ answered
  rw [answer_ask fallback query reader_eq] at answered
  cases found : (query.answer reader).value with
  | error violation =>
      rw [found] at answered
      cases answered
  | ok result =>
      obtain ⟨result, last⟩ := result
      rw [found] at answered
      cases answered
      obtain ⟨sourceLast, faithfulLast⟩ := kept reader value last ⟨source_eq, faithful⟩ found
      exact ⟨last, rfl, sourceLast, faithfulLast⟩

theorem keeps_visibilityAt (x y : Nat) (depth : Single) :
    Keeps (Serves (.ok source)) (visibilityAt x y depth) :=
  keeps_ask Color.white (CachedReader.keeps_visibilityAt x y depth)

theorem keeps_visibilityAtTexture (point : SamplePoint) :
    Keeps (Serves (.ok source)) (visibilityAtTexture point) := by
  refine keeps_get_bind fun map => ?_
  split
  · exact keeps_visibilityAt _ _ _
  · exact keeps_pure Color.white

theorem keeps_filter (quad : SampleQuad) (samples : Nat) :
    Keeps (Serves (.ok source)) (filter quad samples) := by
  refine keeps_get_bind fun map => ?_
  split
  · refine (keeps_foldlM (fun sum weights => ?_) _ _).bind fun _ => keeps_pure _
    exact (keeps_visibilityAtTexture _).bind fun _ => keeps_pure _
  · exact keeps_pure Color.white

theorem keeps_depthSlice (depth : Single) : Keeps (Serves (.ok source)) (depthSlice depth) :=
  keeps_ask [] (CachedReader.keeps_depthSlice depth)

theorem keeps_greatestDepth : Keeps (Serves (.ok source)) greatestDepth :=
  keeps_ask Single.zero (CachedReader.gives_greatestDepth source).keeps

/-- Where a lookup has an answer, it is the one of the file. -/
theorem visibilityAt_eq_of_answer
    {map next : ShadowMap}
    (serves : map.Answers source)
    {x y : Nat}
    {depth : Single}
    {color : Color}
    (answered : ((visibilityAt x y depth).answer map).value = .ok (color, next)) :
    source.tiles.visibilityAt x y depth = .ok color := by
  obtain ⟨reader, reader_eq, source_eq, faithful⟩ := serves
  rw [visibilityAt, answer_ask _ _ reader_eq] at answered
  cases found : ((CachedReader.visibilityAt x y depth).answer reader).value with
  | error violation =>
      rw [found] at answered
      cases answered
  | ok result =>
      obtain ⟨looked, last⟩ := result
      rw [found] at answered
      cases answered
      exact CachedReader.visibilityAt_eq_of_answer ⟨source_eq, faithful⟩ found

end ShadowMap
end DeepShadow
