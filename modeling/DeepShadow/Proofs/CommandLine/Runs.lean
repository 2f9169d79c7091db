import DeepShadow.CommandLine.Run

/-!
# Runs of programs

A program and the system around it exchange requests and answers.  Nothing is said about the
system: a run is any sequence of answers.  What a program writes can be told from the
exchanges of a run, and in a sequence of programs the files of one come after those of the
other.
-/

namespace DeepShadow

/-! ## Exchanges -/

/-- A request of a program with the answer of the system. -/
structure Exchange where
  {Answer : Type}
  request : Request Answer
  answer : Answer

/-- The file that is to be written in an exchange, if there is one. -/
def Exchange.written : Exchange -> Option (String × FileContent)
  | ⟨.writeFile path content, _⟩ => some (path, content)
  | _ => none

/-- The files that are to be written in some exchanges, in this order. -/
def writtenIn (exchanges : List Exchange) : List (String × FileContent) :=
  exchanges.filterMap Exchange.written

@[simp] theorem writtenIn_append (before after : List Exchange) :
    writtenIn (before ++ after) = writtenIn before ++ writtenIn after :=
  List.filterMap_append

namespace Program

variable {α β : Type}

/-- A program gives a value after some exchanges. -/
def Runs : Program α -> List Exchange -> α -> Prop
  | .done value, exchanges, result => exchanges = [] ∧ result = value
  | .step request next, exchanges, result =>
      ∃ answer others, exchanges = ⟨request, answer⟩ :: others ∧
        (next answer).Runs others result

/-- The runs of a sequence are those of its parts, one after the other. -/
theorem runs_bind
    {program : Program α}
    {next : α -> Program β}
    {exchanges : List Exchange}
    {result : β} :
    (program >>= next).Runs exchanges result ↔
      ∃ value first second, program.Runs first value ∧ (next value).Runs second result ∧
        exchanges = first ++ second := by
  change (program.bind next).Runs exchanges result ↔ _
  induction program generalizing exchanges with
  | done value =>
      constructor
      · intro run
        exact ⟨value, [], exchanges, ⟨rfl, rfl⟩, run, rfl⟩
      · rintro ⟨_, _, second, ⟨rfl, rfl⟩, run, rfl⟩
        exact run
  | step request rest inductionHypothesis =>
      constructor
      · rintro ⟨answer, others, rfl, run⟩
        obtain ⟨value, first, second, ranFirst, ranSecond, rfl⟩ :=
          (inductionHypothesis answer).mp run
        exact ⟨value, _, second, ⟨answer, first, rfl, ranFirst⟩, ranSecond, rfl⟩
      · rintro ⟨value, _, second, ⟨answer, first, rfl, ranFirst⟩, ranSecond, rfl⟩
        exact ⟨answer, first ++ second, rfl,
          (inductionHypothesis answer).mpr ⟨value, first, second, ranFirst, ranSecond, rfl⟩⟩

theorem runs_ask
    {request : Request α}
    {exchanges : List Exchange}
    {answer : α} :
    (ask request).Runs exchanges answer ↔ exchanges = [⟨request, answer⟩] := by
  constructor
  · rintro ⟨_, _, rfl, rfl, rfl⟩
    rfl
  · rintro rfl
    exact ⟨answer, [], rfl, rfl, rfl⟩

/-- Whatever the answers of a system are, a program comes to an end with them. -/
theorem exists_runs
    (answerTo : ∀ {α : Type}, Request α -> α)
    (program : Program α) :
    ∃ exchanges value, program.Runs exchanges value ∧
      ∀ exchange ∈ exchanges, exchange.answer = answerTo exchange.request := by
  induction program with
  | done value => exact ⟨[], value, ⟨rfl, rfl⟩, by simp⟩
  | step request next inductionHypothesis =>
      obtain ⟨others, value, run, answered⟩ := inductionHypothesis (answerTo request)
      exact ⟨_, value, ⟨answerTo request, others, rfl, run⟩,
        List.forall_mem_cons.mpr ⟨rfl, answered⟩⟩

/-! ## Programs that keep files as they are -/

/-- A program never asks for a file to be written. -/
def KeepsFiles : Program α -> Prop
  | .done _ => True
  | .step request next =>
      (∀ answer, Exchange.written ⟨request, answer⟩ = none) ∧ ∀ answer, (next answer).KeepsFiles

theorem KeepsFiles.bind
    {program : Program α}
    {next : α -> Program β}
    (first : program.KeepsFiles)
    (second : ∀ value, (next value).KeepsFiles) :
    (program >>= next).KeepsFiles := by
  change (program.bind next).KeepsFiles
  induction program with
  | done value => exact second value
  | step request rest inductionHypothesis =>
      exact ⟨first.1, fun answer => inductionHypothesis answer (first.2 answer)⟩

theorem KeepsFiles.writtenIn_eq
    {program : Program α}
    (keeps : program.KeepsFiles)
    {exchanges : List Exchange}
    {result : α}
    (run : program.Runs exchanges result) :
    writtenIn exchanges = [] := by
  induction program generalizing exchanges with
  | done value =>
      obtain ⟨rfl, -⟩ := run
      rfl
  | step request next inductionHypothesis =>
      obtain ⟨answer, others, rfl, ranOthers⟩ := run
      rw [writtenIn, List.filterMap_cons_none (keeps.1 answer)]
      exact inductionHypothesis answer (keeps.2 answer) ranOthers

theorem keepsFiles_ensureDirectory (path : String) : (ensureDirectory path).KeepsFiles := by
  refine KeepsFiles.bind ⟨fun _ => rfl, fun _ => trivial⟩ fun made => ?_
  cases made with
  | ok made => trivial
  | error refusal =>
      refine KeepsFiles.bind ⟨fun _ => rfl, fun _ => trivial⟩ fun isThere => ?_
      cases isThere with
      | false => trivial
      | true => trivial

theorem keepsFiles_ensureNested (path : String) (around : List String) :
    (ensureNested path around).KeepsFiles := by
  induction around generalizing path with
  | nil => exact keepsFiles_ensureDirectory path
  | cons outer others inductionHypothesis =>
      refine (keepsFiles_ensureDirectory path).bind fun made => ?_
      split
      · refine (inductionHypothesis outer).bind fun nested => ?_
        cases nested with
        | ok nested => exact keepsFiles_ensureDirectory path
        | error refusal => trivial
      · trivial

/-- A directory is refused only where the system refuses one. -/
theorem refused_of_ensureDirectory
    {path : String}
    {exchanges : List Exchange}
    {refusal : FileError}
    (run : (ensureDirectory path).Runs exchanges (.error refusal)) :
    ⟨.createDirectory path, .error refusal⟩ ∈ exchanges := by
  obtain ⟨made, first, second, ranFirst, ranSecond, rfl⟩ := runs_bind.mp run
  obtain rfl := runs_ask.mp ranFirst
  cases made with
  | ok made =>
      obtain ⟨-, given⟩ := ranSecond
      cases given
  | error refusedWith =>
      obtain ⟨isThere, third, last, ranThird, ranLast, rfl⟩ := runs_bind.mp ranSecond
      cases isThere with
      | true =>
          obtain ⟨-, given⟩ := ranLast
          cases given
      | false =>
          obtain ⟨rfl, given⟩ := ranLast
          cases given
          exact List.mem_append_left _ List.mem_cons_self

theorem refused_of_ensureNested
    {path : String}
    {around : List String}
    {exchanges : List Exchange}
    {refusal : FileError}
    (run : (ensureNested path around).Runs exchanges (.error refusal)) :
    ∃ refused, ⟨.createDirectory refused, .error refusal⟩ ∈ exchanges := by
  induction around generalizing path exchanges refusal with
  | nil => exact ⟨path, refused_of_ensureDirectory run⟩
  | cons outer others inductionHypothesis =>
      obtain ⟨made, first, second, ranFirst, ranSecond, rfl⟩ := runs_bind.mp run
      split at ranSecond
      · obtain ⟨nested, third, last, ranThird, ranLast, rfl⟩ := runs_bind.mp ranSecond
        cases nested with
        | ok nested =>
            exact ⟨path, List.mem_append_right _
              (List.mem_append_right _ (refused_of_ensureDirectory ranLast))⟩
        | error refusedWith =>
            obtain ⟨rfl, given⟩ := ranLast
            cases given
            obtain ⟨refused, member⟩ := inductionHypothesis ranThird
            exact ⟨refused, List.mem_append_right _ (List.mem_append_left _ member)⟩
      · obtain ⟨rfl, rfl⟩ := ranSecond
        exact ⟨path, List.mem_append_left _ (refused_of_ensureDirectory ranFirst)⟩

theorem keepsFiles_showLines (verbosity : Nat) (lines : List LogLine) :
    (showLines verbosity lines).KeepsFiles := by
  induction lines with
  | nil => trivial
  | cons line lines inductionHypothesis =>
      unfold showLines
      split
      · exact ⟨fun _ => rfl, fun _ => inductionHypothesis⟩
      · exact inductionHypothesis

/-! ## Files written -/

/-- Every run with exchanges as they are granted gives one value, and writes certain files. -/
def Writes
    (granted : Exchange -> Prop)
    (program : Program α)
    (files : List (String × FileContent))
    (value : α) : Prop :=
  ∀ exchanges result, program.Runs exchanges result ->
    (∀ exchange ∈ exchanges, granted exchange) ->
      result = value ∧ writtenIn exchanges = files

variable {granted : Exchange -> Prop} {value : α} {result : β}

theorem writes_done (granted : Exchange -> Prop) (value : α) :
    (Program.done value).Writes granted [] value := by
  rintro _ _ ⟨rfl, rfl⟩ -
  exact ⟨rfl, rfl⟩

theorem Writes.bind
    {program : Program α}
    {next : α -> Program β}
    {files others : List (String × FileContent)}
    (first : program.Writes granted files value)
    (second : (next value).Writes granted others result) :
    (program >>= next).Writes granted (files ++ others) result := by
  intro exchanges outcome run isGranted
  obtain ⟨given, before, after, ranFirst, ranSecond, rfl⟩ := runs_bind.mp run
  obtain ⟨grantedBefore, grantedAfter⟩ := List.forall_mem_append.mp isGranted
  obtain ⟨rfl, rfl⟩ := first before given ranFirst grantedBefore
  obtain ⟨rfl, rfl⟩ := second after outcome ranSecond grantedAfter
  exact ⟨rfl, writtenIn_append before after⟩

/-- A request is answered as it is granted. -/
theorem writes_ask
    {request : Request α}
    (answered : ∀ answer, granted ⟨request, answer⟩ -> answer = value) :
    (ask request).Writes granted (Exchange.written ⟨request, value⟩).toList value := by
  intro exchanges answer run isGranted
  obtain rfl := runs_ask.mp run
  obtain rfl := answered answer (isGranted _ List.mem_cons_self)
  refine ⟨rfl, ?_⟩
  unfold writtenIn
  cases written : Exchange.written ⟨request, answer⟩ with
  | none => simp [written]
  | some file => simp [written]

/-- Lines are shown without writing a file. -/
theorem writes_ofTraced (granted : Exchange -> Prop) (verbosity : Nat) (traced : Traced α) :
    (ofTraced verbosity traced).Writes granted [] traced.value := by
  have shown : (showLines verbosity traced.lines).Writes granted [] () :=
    fun _ _ run _ => ⟨rfl, (keepsFiles_showLines verbosity traced.lines).writtenIn_eq run⟩
  exact shown.bind (writes_done granted traced.value)

end Program

/-! ## Procedures -/

namespace CommandLine.Procedure

variable {α β : Type} {granted : Exchange -> Prop}

/-- Every run of a procedure with exchanges as they are granted ends alike, and writes certain
files. -/
def Ends
    (granted : Exchange -> Prop)
    (procedure : Procedure α)
    (files : List (String × FileContent))
    (result : Except Abort α) : Prop :=
  procedure.run.Writes granted files result

theorem ends_pure (granted : Exchange -> Prop) (value : α) :
    Ends granted (pure value) [] (.ok value) :=
  Program.writes_done granted _

theorem Ends.bind
    {procedure : Procedure α}
    {next : α -> Procedure β}
    {files others : List (String × FileContent)}
    {value : α}
    {result : Except Abort β}
    (first : Ends granted procedure files (.ok value))
    (second : Ends granted (next value) others result) :
    Ends granted (procedure >>= next) (files ++ others) result :=
  Program.Writes.bind first second

theorem ends_fail (granted : Exchange -> Prop) (text : String) (causes : List String) :
    Ends granted (fail text causes : Procedure α) [] (.error (.failure ⟨text, causes⟩)) :=
  Program.writes_done granted _

/-- What comes behind a failure is left out. -/
theorem Ends.bind_error
    {procedure : Procedure α}
    {files : List (String × FileContent)}
    {abort : Abort}
    (failed : Ends granted procedure files (.error abort))
    (next : α -> Procedure β) :
    Ends granted (procedure >>= next) files (.error abort) := by
  have ended : Ends granted (procedure >>= next) (files ++ []) (.error abort) :=
    Program.Writes.bind failed (Program.writes_done granted _)
  rwa [List.append_nil] at ended

/-- A program goes on as a part of a procedure. -/
theorem ends_liftM
    {program : Program α}
    {files : List (String × FileContent)}
    {value : α}
    (written : program.Writes granted files value) :
    Ends granted (liftM program) files (.ok value) := by
  have lifted : (program >>= fun value => Program.done (Except.ok value : Except Abort α)).Writes
      granted (files ++ []) (.ok value) :=
    written.bind (Program.writes_done granted _)
  rw [List.append_nil] at lifted
  exact lifted

theorem ends_ask
    {request : Request α}
    {value : α}
    (answered : ∀ answer, granted ⟨request, answer⟩ -> answer = value) :
    Ends granted (ask request) (Exchange.written ⟨request, value⟩).toList (.ok value) :=
  ends_liftM (Program.writes_ask answered)

theorem ends_ofTraced (granted : Exchange -> Prop) (verbosity : Nat) (traced : Traced α) :
    Ends granted (ofTraced verbosity traced) [] (.ok traced.value) :=
  ends_liftM (Program.writes_ofTraced granted verbosity traced)

/-- A computation that keeps its contracts is shown, and gives its value. -/
theorem ends_checked
    (granted : Exchange -> Prop)
    (verbosity : Nat)
    {traced : Traced (Except Violation α)}
    {value : α}
    (value_eq : traced.value = .ok value) :
    Ends granted (checked verbosity traced) [] (.ok value) := by
  have shown := ends_ofTraced granted verbosity traced
  rw [value_eq] at shown
  exact shown.bind (ends_pure granted value)

theorem ends_printLine (granted : Exchange -> Prop) (text : String) :
    Ends granted (printLine text) [] (.ok ()) :=
  ends_ask fun _ _ => rfl

/-- Of a list of procedures that hand on a state, each writes one file. -/
theorem ends_foldlM
    {σ ι : Type}
    {holds : σ -> Prop}
    {step : σ -> ι -> Procedure σ}
    {fileOf : ι -> String × FileContent}
    (indices : List ι)
    (each : ∀ index ∈ indices, ∀ state, holds state ->
      ∃ next, holds next ∧ Ends granted (step state index) [fileOf index] (.ok next))
    {state : σ}
    (holdsState : holds state) :
    ∃ last, holds last ∧
      Ends granted (indices.foldlM step state) (indices.map fileOf) (.ok last) := by
  induction indices generalizing state with
  | nil => exact ⟨state, holdsState, ends_pure granted state⟩
  | cons first others inductionHypothesis =>
      obtain ⟨middle, holdsMiddle, stepped⟩ := each first List.mem_cons_self state holdsState
      obtain ⟨last, holdsLast, ended⟩ := inductionHypothesis
        (fun index member => each index (List.mem_cons_of_mem _ member)) holdsMiddle
      refine ⟨last, holdsLast, ?_⟩
      rw [List.foldlM_cons]
      exact stepped.bind ended

/-- Every run of a procedure with exchanges as they are granted has a result and exchanges with
some property. -/
def Ensures
    (granted : Exchange -> Prop)
    (procedure : Procedure α)
    (property : Except Abort α -> List Exchange -> Prop) : Prop :=
  ∀ exchanges result, procedure.run.Runs exchanges result ->
    (∀ exchange ∈ exchanges, granted exchange) -> property result exchanges

variable {property : Except Abort β -> List Exchange -> Prop}

theorem Ends.ensures
    {procedure : Procedure β}
    {files : List (String × FileContent)}
    {result : Except Abort β}
    (ended : Ends granted procedure files result)
    (has : ∀ exchanges, writtenIn exchanges = files -> property result exchanges) :
    Ensures granted procedure property := by
  intro exchanges outcome run isGranted
  obtain ⟨rfl, written⟩ := ended exchanges outcome run isGranted
  exact has exchanges written

theorem Ends.ensures_bind
    {procedure : Procedure α}
    {next : α -> Procedure β}
    {files : List (String × FileContent)}
    {value : α}
    (first : Ends granted procedure files (.ok value))
    (second : ∀ before, writtenIn before = files ->
      Ensures granted (next value) fun result after => property result (before ++ after)) :
    Ensures granted (procedure >>= next) property := by
  intro exchanges outcome run isGranted
  obtain ⟨given, before, after, ranFirst, ranSecond, rfl⟩ := Program.runs_bind.mp run
  obtain ⟨grantedBefore, grantedAfter⟩ := List.forall_mem_append.mp isGranted
  obtain ⟨rfl, written⟩ := first before given ranFirst grantedBefore
  exact second before written after outcome ranSecond grantedAfter

/-- What a program gives does not have to be known. -/
theorem ensures_liftM_bind
    {program : Program α}
    {next : α -> Procedure β}
    (each : ∀ before value, program.Runs before value ->
      Ensures granted (next value) fun result after => property result (before ++ after)) :
    Ensures granted (liftM program >>= next) property := by
  intro exchanges outcome run isGranted
  obtain ⟨given, before, after, ranFirst, ranSecond, rfl⟩ := Program.runs_bind.mp run
  obtain ⟨value, first, others, ranProgram, ⟨rfl, rfl⟩, rfl⟩ := Program.runs_bind.mp ranFirst
  rw [List.append_nil] at isGranted ⊢
  exact each first value ranProgram after outcome ranSecond (List.forall_mem_append.mp isGranted).2

end CommandLine.Procedure
end DeepShadow
