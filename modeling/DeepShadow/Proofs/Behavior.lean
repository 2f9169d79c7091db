/-!
# Systems that are called

A call changes the state of a system and is answered.  Two facts about sequences of calls are
used for every kind of system: where a refused call leaves the state as it was, the refused
calls of a sequence can be left out; and where one system sees what another one does, at each
call, it also sees what the other one does in a sequence of calls.
-/

namespace DeepShadow

variable {State Other Call Answer ε : Type}

/-- A system that can be called: for each state and call, the answer and the next state. -/
def Behavior (State Call Answer : Type) := State -> Call -> Answer × State

namespace Behavior

/-- Makes several calls, one after the other, whatever the answers are. -/
def run
    (behavior : Behavior State Call Answer)
    (state : State) : List Call -> List (Call × Answer) × State
  | [] => ([], state)
  | call :: calls =>
      let (answer, next) := behavior state call
      let (answered, last) := behavior.run next calls
      ((call, answer) :: answered, last)

/-- The calls that were not refused, with their answers. -/
def taken
    (refused : Call -> Answer -> Bool)
    (answered : List (Call × Answer)) : List (Call × Answer) :=
  answered.filter fun step => !refused step.1 step.2

theorem run_cons
    (behavior : Behavior State Call Answer)
    (state : State)
    (call : Call)
    (calls : List Call) :
    behavior.run state (call :: calls) =
      ((call, (behavior state call).1) :: (behavior.run (behavior state call).2 calls).1,
        (behavior.run (behavior state call).2 calls).2) := rfl

/-- Each call is answered in the state that the calls before it leave behind. -/
theorem answers_run
    (behavior : Behavior State Call Answer)
    (state : State)
    (calls : List Call) :
    (behavior.run state calls).1 = calls.mapIdx fun number call =>
      (call, (behavior (behavior.run state (calls.take number)).2 call).1) := by
  induction calls generalizing state with
  | nil => rfl
  | cons first calls inductionHypothesis =>
      rw [run_cons, inductionHypothesis, List.mapIdx_cons]
      rfl

/-- Refused calls can be left out where each of them leaves the state as it was. -/
theorem run_taken
    {behavior : Behavior State Call Answer}
    {refused : Call -> Answer -> Bool}
    (unchanged : ∀ state call, refused call (behavior state call).1 = true ->
      (behavior state call).2 = state)
    (state : State)
    (calls : List Call) :
    behavior.run state ((taken refused (behavior.run state calls).1).map Prod.fst) =
      (taken refused (behavior.run state calls).1, (behavior.run state calls).2) := by
  induction calls generalizing state with
  | nil => rfl
  | cons call calls inductionHypothesis =>
      have rest := inductionHypothesis (behavior state call).2
      unfold taken at rest ⊢
      rw [run_cons]
      by_cases isRefused : refused call (behavior state call).1 = true
      · rw [List.filter_cons_of_neg (by simp [isRefused])]
        rw [unchanged state call isRefused] at rest ⊢
        exact rest
      · rw [List.filter_cons_of_pos (by simp [isRefused]), List.map_cons, run_cons, rest]

/-- A system answers as another one does, where it sees the state of the other one and this
state satisfies an invariant. -/
structure Sees
    (view : State -> Other)
    (invariant : State -> Prop)
    (behavior : Behavior State Call Answer)
    (seen : Behavior Other Call Answer) : Prop where
  kept : ∀ state call, invariant state -> invariant (behavior state call).2
  agrees : ∀ state call, invariant state ->
    seen (view state) call = ((behavior state call).1, view (behavior state call).2)

/-- Whatever is called, both systems answer the same, and one still sees the other. -/
theorem Sees.run
    {view : State -> Other}
    {invariant : State -> Prop}
    {behavior : Behavior State Call Answer}
    {seen : Behavior Other Call Answer}
    (sees : Sees view invariant behavior seen)
    {state : State}
    (holds : invariant state)
    (calls : List Call) :
    seen.run (view state) calls =
        ((behavior.run state calls).1, view (behavior.run state calls).2) ∧
      invariant (behavior.run state calls).2 := by
  induction calls generalizing state with
  | nil => exact ⟨rfl, holds⟩
  | cons call calls inductionHypothesis =>
      obtain ⟨rest, holdsLast⟩ := inductionHypothesis (sees.kept state call holds)
      refine ⟨?_, holdsLast⟩
      rw [run_cons, run_cons, sees.agrees state call holds, rest]

/-! ## Systems that can be misused -/

/-- A system that loses its state by a call that violates what it relies on.  Afterwards it
answers with this violation. -/
def stopping
    (step : State -> Call -> Except ε (Answer × State)) :
    Behavior (Except ε State) Call (Except ε Answer)
  | .error violation, _ => (.error violation, .error violation)
  | .ok state, call =>
      match step state call with
      | .error violation => (.error violation, .error violation)
      | .ok (answer, next) => (.ok answer, .ok next)

/-- Where the steps of a system are seen, so is the system that loses its state. -/
theorem sees_stopping
    {view : State -> Other}
    {invariant : State -> Prop}
    {step : State -> Call -> Except ε (Answer × State)}
    {seen : Other -> Call -> Except ε (Answer × Other)}
    (kept : ∀ state call answer next, invariant state ->
      step state call = .ok (answer, next) -> invariant next)
    (agrees : ∀ state call, invariant state ->
      seen (view state) call = (step state call).map fun pair => (pair.1, view pair.2)) :
    Sees (Except.map view) (fun state => ∀ present, state = .ok present -> invariant present)
      (stopping step) (stopping seen) := by
  constructor
  · intro state call holds
    cases state with
    | error violation => exact holds
    | ok state =>
        unfold stopping
        simp only
        cases performed : step state call with
        | error violation => exact fun _ present => by cases present
        | ok pair =>
            intro next isNext
            cases isNext
            exact kept state call pair.1 pair.2 (holds state rfl) performed
  · intro state call holds
    cases state with
    | error violation => rfl
    | ok state =>
        have seenStep := agrees state call (holds state rfl)
        unfold stopping
        simp only [Except.map] at seenStep ⊢
        rw [seenStep]
        cases step state call with
        | error violation => rfl
        | ok pair => rfl

/-- A system does not lose its state where each of its steps does what is seen of it. -/
theorem run_stopping
    {view : State -> Other}
    {invariant : State -> Prop}
    {behavior : Behavior State Call Answer}
    {step : Other -> Call -> Except ε (Answer × Other)}
    (kept : ∀ state call, invariant state -> invariant (behavior state call).2)
    (steps : ∀ state call, invariant state ->
      step (view state) call = .ok ((behavior state call).1, view (behavior state call).2))
    {state : State}
    (holds : invariant state)
    (calls : List Call) :
    (stopping step).run (.ok (view state)) calls =
      ((behavior.run state calls).1.map fun answered => (answered.1, .ok answered.2),
        .ok (view (behavior.run state calls).2)) := by
  induction calls generalizing state with
  | nil => rfl
  | cons call calls inductionHypothesis =>
      have performed : stopping step (.ok (view state)) call =
          (.ok (behavior state call).1, .ok (view (behavior state call).2)) := by
        unfold stopping
        simp only [steps state call holds]
      rw [run_cons, run_cons, performed, inductionHypothesis (kept state call holds)]
      rfl

end Behavior
end DeepShadow
