import AgenticEnterprise.Graph.CriticLoop
import AgenticEnterprise.Graph.NodeOrder

/-! Whether a turn is graded on its own drafts.

The counter and the critique are kept in the thread, and no node sets them back
at the start of a turn. -/

set_option autoImplicit false

namespace AgenticEnterprise.Graph.Grading

open Core Library Engine Threads Turns NodeOrder CriticLoop

/-! ## Grading afresh -/

/-- The critic's state holds a draft below its bar. -/
def FailsBar (values : GraphState) : Prop :=
  ∃ draft, values.messages.getLast? = some draft ∧ passes draft.content = false

/-- Behind so many drafts of the turn: the first prompt is the one without a note,
and a draft is sent back exactly while it fails and three are not yet written. -/
def GradedFrom : Nat → List Visit → Prop
  | _, [] => True
  | drafts, visit :: rest =>
      match visit.node with
      | some .general =>
          (drafts = 0 →
            generalMessages visit.values =
              generalMessages { visit.values with critique := none }) ∧
          GradedFrom (drafts + 1) rest
      | some .critic =>
          (∀ next, visit.step.outcome = .ok next →
            (next.next = some (.node .general) ↔ FailsBar visit.values ∧ drafts < 3)) ∧
          GradedFrom drafts rest
      | _ => GradedFrom drafts rest

def GradedAfresh (visited : List Visit) : Prop :=
  GradedFrom 0 visited

def NoNote (critique : Option String) : Prop :=
  critique.getD "" = "" ∨ critique.getD "" = "PASS"

/-- No earlier turn has left a note or a count. -/
structure Unmarked (values : GraphState) : Prop where
  note : NoNote values.critique
  count : values.revisionCount.getD 0 = 0

/-! ## Behind an unmarked checkpoint -/

section

variable {values : GraphState}

theorem contextLines_of_noNote (noNote : NoNote values.critique) :
    contextLines values = contextLines { values with critique := none } := by
  unfold contextLines
  rcases noNote with empty | passed
  · simp [empty]
  · simp [passed]

theorem generalMessages_of_noNote (noNote : NoNote values.critique) :
    generalMessages values = generalMessages { values with critique := none } := by
  unfold generalMessages
  rw [contextLines_of_noNote noNote]

theorem verdictOn_eq_pass_iff {draft : String} {count : Int} :
    verdictOn draft count = "PASS" ↔ ¬(passes draft = false ∧ count < generalRevisionLimit) := by
  unfold verdictOn
  cases passed : passes draft with
  | true => simp
  | false =>
      by_cases below : count < generalRevisionLimit
      · have notReached : ¬count ≥ generalRevisionLimit := Int.not_le.mpr below
        simp [notReached, below]
      · simp [Int.not_lt.mp below]

/-- What the critic writes, by the draft and the count it finds. -/
theorem critic_update {environment : Environment} {draft : Message} {count : Int}
    (last : values.messages.getLast? = some draft) (counted : values.revisionCount = some count) :
    (runNode environment values .critic).update =
      .ok { critique := some (verdictOn draft.content count)
            status := some "critiqued"
            internalLogs :=
              [s!"critic: attempt {count} -> " ++ verdictOn draft.content count] } := by
  simp [runNode, Engine.critic, lastMessage_eq_ok_iff.mpr last, counted]

/-- What it decides. -/
theorem critic_outcome {environment : Environment} {draft : Message} {count : Int}
    {next : Checkpoint} (last : values.messages.getLast? = some draft)
    (counted : values.revisionCount = some count)
    (graded : (superstep environment values (.node .critic)).outcome = .ok next) :
    next.next = some (.node .general) ↔
      passes draft.content = false ∧ count < generalRevisionLimit := by
  obtain ⟨update, written, rest⟩ := bind_eq_ok_iff.mp graded
  rw [critic_update last counted] at written
  cases written
  obtain ⟨target, decided, rest⟩ := bind_eq_ok_iff.mp rest
  cases rest
  rw [← not_iff_not, ← verdictOn_eq_pass_iff]
  rw [nextNode] at decided
  rcases afterCritic_cases decided with ⟨rfl, passed⟩ | ⟨rfl, critique, written, sentBack⟩
  · have verdict : verdictOn draft.content count = "PASS" := by
      simpa [GraphState.apply] using passed
    simp [verdict]
  · have verdict : verdictOn draft.content count ≠ "PASS" := by
      have same : verdictOn draft.content count = critique := by
        simpa [GraphState.apply] using written
      exact same ▸ sentBack
    simp [verdict]

/-- The count is the number of drafts of this turn, and there is no older note. -/
structure Ready (drafts : Nat) (checkpoint : Checkpoint) : Prop where
  counted : checkpoint.values.revisionCount.getD 0 = drafts
  noNote : drafts = 0 → NoNote checkpoint.values.critique
  drafted : checkpoint.next = some (.node .critic) → drafts ≠ 0

end

section

variable {drafts : Nat} {before after : Checkpoint} {visit : Visit} {visited : List Visit}

def draftsBehind (drafts : Nat) (visit : Visit) : Nat :=
  if visit.node = some .general then drafts + 1 else drafts

theorem Ready.step (ready : Ready drafts before) (moved : Move before visit after) :
    Ready (draftsBehind drafts visit) after := by
  obtain ⟨environment, values, pending⟩ := visit
  cases pending with
  | input messages =>
      obtain ⟨rfl, succeeded⟩ := moved
      cases succeeded
      exact ⟨ready.counted, ready.noNote, fun grading => by cases grading⟩
  | node node =>
      have pending : before.next = some (.node node) := by rw [moved.1]
      obtain ⟨update, target, written, decided, rfl⟩ := written_of_move moved pending
      obtain ⟨rfl, _⟩ := moved
      obtain ⟨counted, noNote, drafted⟩ := ready
      cases written.effect with
      | router =>
          cases decided
          exact ⟨counted, noNote, fun grading => by cases grading⟩
      | memoryRetriever =>
          cases decided
          refine ⟨counted, noNote, fun grading => ?_⟩
          unfold afterMemoryRetriever at grading
          split at grading <;> cases grading
      | agent =>
          rw [nextNode] at decided
          rcases toolsCondition_cases decided with rfl | rfl
          · exact ⟨counted, noNote, fun grading => by cases grading⟩
          · exact ⟨counted, noNote, fun grading => by cases grading⟩
      | tools | billing | fetchMetrics | formatReport =>
          cases decided
          exact ⟨counted, noNote, fun grading => by cases grading⟩
      | general =>
          cases decided
          refine ⟨?_, fun none => absurd none (Nat.succ_ne_zero drafts),
            fun _ => Nat.succ_ne_zero drafts⟩
          have counted : values.revisionCount.getD 0 = drafts := counted
          show values.revisionCount.getD 0 + 1 = ((drafts + 1 : Nat) : Int)
          omega
      | critic =>
          have some : drafts ≠ 0 := drafted rfl
          exact ⟨counted, fun none => absurd none some, fun _ => some⟩

/-- Behind a checkpoint without a mark of earlier turns, every turn is graded afresh. -/
theorem gradedFrom_of_moves (run : Runs Move before visited after)
    (ready : Ready drafts before) : GradedFrom drafts visited := by
  induction run generalizing drafts with
  | refl => trivial
  | @cons first middle last visit visited moved _ ih =>
      have later := ih (ready.step moved)
      obtain ⟨environment, values, pending⟩ := visit
      cases pending with
      | input => exact later
      | node node =>
          cases node with
          | general =>
              obtain ⟨rfl, _⟩ := moved
              exact ⟨fun none => generalMessages_of_noNote (ready.noNote none), later⟩
          | critic =>
              have pending : first.next = some (.node .critic) := by rw [moved.1]
              obtain ⟨update, _, written, _, _⟩ := written_of_move moved pending
              obtain ⟨rfl, _⟩ := moved
              cases written.effect with
              | @critic draft count isLast counted =>
                  refine ⟨fun next graded => ?_, later⟩
                  have counts : values.revisionCount.getD 0 = drafts := ready.counted
                  have isCount : values.revisionCount = some count := counted
                  have number : count = drafts := by simpa [isCount] using counts
                  rw [critic_outcome isLast counted graded, number]
                  constructor
                  · intro both
                    exact ⟨⟨draft, isLast, both.1⟩, Int.ofNat_lt.mp both.2⟩
                  · intro both
                    obtain ⟨⟨other, isOther, fails⟩, below⟩ := both
                    rw [isLast] at isOther
                    cases isOther
                    exact ⟨fails, Int.ofNat_lt.mpr below⟩
          | router | memoryRetriever | agent | tools | billing | fetchMetrics | formatReport =>
              exact later

end

/-! ## A turn of stubs -/

/-- Supersteps with the stub model that write so many drafts, whatever else is graded. -/
def StubPath (start : Checkpoint) (drafts : Nat) (last : Checkpoint) : Prop :=
  ∃ visited, Runs Move start visited last ∧
    (∀ visit ∈ visited, visit.environment = stubEnvironment) ∧
    ∀ earlier rest, GradedFrom earlier (visited ++ rest) → GradedFrom (earlier + drafts) rest

section

variable {start middle last next : Checkpoint} {drafts more : Nat} {values : GraphState}
  {visit : Visit} {node : Node}

theorem StubPath.trans (path : StubPath start drafts middle) (rest : StubPath middle more last) :
    StubPath start (drafts + more) last := by
  obtain ⟨visited, moves, stubs, graded⟩ := path
  obtain ⟨others, later, alsoStubs, alsoGraded⟩ := rest
  refine ⟨visited ++ others, moves.append later, ?_, ?_⟩
  · intro visit member
    rcases List.mem_append.mp member with here | there
    · exact stubs visit here
    · exact alsoStubs visit there
  · intro earlier behind given
    rw [List.append_assoc] at given
    rw [← Nat.add_assoc]
    exact alsoGraded _ _ (graded _ _ given)

theorem StubPath.single (moved : Move start visit last)
    (stub : visit.environment = stubEnvironment) :
    StubPath start (draftsBehind 0 visit) last := by
  refine ⟨[visit], .single moved, ?_, ?_⟩
  · intro other member
    exact List.mem_singleton.mp member ▸ stub
  · intro earlier rest graded
    obtain ⟨environment, values, pending⟩ := visit
    cases pending with
    | input => exact graded
    | node node =>
        cases node with
        | general | critic => exact graded.2
        | router | memoryRetriever | agent | tools | billing | fetchMetrics | formatReport =>
            exact graded

/-- What holds of every run holds of the visit behind a path. -/
theorem graded_visit
    (afresh : ∀ limit environments, GradedAfresh (visits limit environments start))
    (path : StubPath start drafts middle) (moved : Move middle visit last)
    (stub : visit.environment = stubEnvironment) : GradedFrom drafts [visit] := by
  obtain ⟨visited, moves, stubs, graded⟩ := path
  have same : ∀ other ∈ visited ++ [visit], other.environment = stubEnvironment := by
    intro other member
    rcases List.mem_append.mp member with here | there
    · exact stubs other here
    · exact List.mem_singleton.mp there ▸ stub
  have whole := afresh (visited ++ [visit]).length (fun _ => stubEnvironment)
  rw [visits_of_moves (moves.append (.single moved)) same] at whole
  simpa using graded 0 [visit] whole

theorem stub_retrieves {message : Message} (last : values.messages.getLast? = some message) :
    (runNode stubEnvironment values .memoryRetriever).update =
      .ok { retrievedContext := some []
            internalLogs := ["memory_retriever: fetched cross-thread context"] } := by
  have hits : retrievedHits stubEnvironment message.content = .ok [] := rfl
  exact bind_eq_ok_iff.mpr ⟨message, lastMessage_eq_ok_iff.mpr last,
    bind_eq_ok_iff.mpr ⟨[], hits, bind_eq_ok_iff.mpr ⟨[], rfl, rfl⟩⟩⟩

theorem stub_reaches_general :
    ∃ reached, StubPath ⟨values, some (.input question)⟩ 0 ⟨reached, some (.node .general)⟩ ∧
      reached.critique = values.critique ∧ reached.revisionCount = values.revisionCount ∧
      reached.retrievedContext = some [] := by
  have last : (values.apply { messages := question }).messages.getLast? =
      some (.human "hello") := by
    simp [GraphState.apply, question]
  have entered : Move ⟨values, some (.input question)⟩
      ⟨stubEnvironment, values, .input question⟩
      ⟨values.apply { messages := question }, some (.node .router)⟩ := ⟨rfl, rfl⟩
  have decision : (runNode stubEnvironment (values.apply { messages := question })
      .router).update =
      .ok { routeTo := some .general
            status := some "routed"
            internalLogs := ["router: classified as general"] } := by
    simp only [runNode, routeRequest, lastMessage_eq_ok_iff.mpr last]
    rfl
  have routed := move_of_update decision rfl
  have stillLast : ((values.apply { messages := question }).apply
      { routeTo := some .general
        status := some "routed"
        internalLogs := ["router: classified as general"] }).messages.getLast? =
      some (.human "hello") := by
    simpa [GraphState.apply] using last
  have retrieved := move_of_update (stub_retrieves stillLast) rfl
  have path := ((StubPath.single entered rfl).trans (.single routed rfl)).trans
    (.single retrieved rfl)
  exact ⟨_, path, rfl, rfl, rfl⟩

/-- The critic grades what it finds. -/
theorem stub_grades {draft : Message} {count : Int}
    (last : values.messages.getLast? = some draft) (counted : values.revisionCount = some count) :
    ∃ graded next, Move ⟨values, some (.node .critic)⟩ ⟨stubEnvironment, values, .node .critic⟩
        ⟨graded, next⟩ ∧
      graded.revisionCount = some count := by
  exact ⟨_, _, move_of_update (critic_update last counted) rfl, counted⟩

/-- A stub is written and graded. -/
theorem stub_round (values : GraphState) :
    ∃ drafted graded next,
      Move ⟨values, some (.node .general)⟩ ⟨stubEnvironment, values, .node .general⟩
        ⟨drafted, some (.node .critic)⟩ ∧
      Move ⟨drafted, some (.node .critic)⟩ ⟨stubEnvironment, drafted, .node .critic⟩
        ⟨graded, next⟩ ∧
      FailsBar drafted ∧ graded.revisionCount = some (values.revisionCount.getD 0 + 1) ∧
      (next = some (.node .general) ↔
        values.revisionCount.getD 0 + 1 < generalRevisionLimit) := by
  have written : (runNode stubEnvironment values .general).update =
      .ok { messages := [.ai "stub" []]
            status := some "completed"
            internalLogs :=
              [s!"general: model call complete (attempt {values.revisionCount.getD 0 + 1})"]
            revisionCount := some (values.revisionCount.getD 0 + 1) } := rfl
  have drafted := move_of_update written rfl
  generalize applied : values.apply _ = state at drafted
  have last : state.messages.getLast? = some (.ai "stub" []) := by
    simp [← applied, GraphState.apply]
  have counted : state.revisionCount = some (values.revisionCount.getD 0 + 1) := by
    simp [← applied, GraphState.apply]
  have fails : passes (Message.ai "stub" []).content = false := by decide
  obtain ⟨graded, next, moved, kept⟩ := stub_grades last counted
  refine ⟨state, graded, next, drafted, moved, ⟨_, last, fails⟩, kept, ?_⟩
  rw [critic_outcome last counted moved.2]
  simp [fails]

/-- Behind a draft that is graded afresh, the count agrees with the drafts of the turn. -/
theorem graded_round
    (afresh : ∀ limit environments, GradedAfresh (visits limit environments start))
    (path : StubPath start drafts ⟨values, some (.node .general)⟩) :
    (values.revisionCount.getD 0 + 1 < generalRevisionLimit ↔ drafts + 1 < 3) ∧
      (drafts + 1 < 3 → ∃ revised,
        StubPath start (drafts + 1) ⟨revised, some (.node .general)⟩ ∧
          revised.revisionCount.getD 0 = values.revisionCount.getD 0 + 1) := by
  obtain ⟨drafted, graded, next, writes, grades, fails, counted, decided⟩ := stub_round values
  have written : StubPath start (drafts + 1) ⟨drafted, some (.node .critic)⟩ :=
    path.trans (.single writes rfl)
  have given := graded_visit afresh written grades rfl
  have verdict := given.1 _ grades.2
  have agree : values.revisionCount.getD 0 + 1 < generalRevisionLimit ↔ drafts + 1 < 3 := by
    rw [← decided, verdict]
    exact and_iff_right fails
  refine ⟨agree, fun below => ⟨graded, ?_, by simp [counted]⟩⟩
  obtain rfl := decided.mpr (agree.mpr below)
  exact written.trans (.single grades rfl)

end

/-! ## Every turn -/

theorem noNote_of_generalMessages {values : GraphState}
    (context : values.retrievedContext = some [])
    (same : generalMessages values = generalMessages { values with critique := none }) :
    NoNote values.critique := by
  unfold NoNote
  by_contra noted
  rw [not_or] at noted
  have plain : generalMessages { values with critique := none } = values.messages := by
    simp [generalMessages, contextLines, context]
  rw [plain] at same
  simp [generalMessages, contextLines, context, noted.1, noted.2] at same

theorem unmarked_of_graded {values : GraphState}
    (afresh : ∀ limit environments,
      GradedAfresh (visits limit environments ⟨values, some (.input question)⟩)) :
    Unmarked values := by
  obtain ⟨reached, path, critique, count, context⟩ := @stub_reaches_general values
  obtain ⟨first, again⟩ := graded_round afresh path
  obtain ⟨second, secondPath, secondCount⟩ := again (by decide)
  obtain ⟨agree, once⟩ := graded_round afresh secondPath
  obtain ⟨third, thirdPath, thirdCount⟩ := once (by decide)
  have last := (graded_round afresh thirdPath).1
  constructor
  · obtain ⟨_, _, _, writes, _⟩ := stub_round reached
    have plain := (graded_visit afresh path writes rfl).1 rfl
    exact critique ▸ noNote_of_generalMessages context plain
  · simp only [generalRevisionLimit] at first agree last
    rw [← count]
    omega

/-- Whatever its drafts, a turn on the general route is graded afresh exactly behind
a checkpoint without a note and without a count. -/
theorem graded_afresh_iff (thread : Thread) (checkpointId : Option Nat) :
    (∀ text limit environments, classify text = .general →
      GradedAfresh (visits limit environments
        (withInput (load thread checkpointId) [.human text]).checkpoint)) ↔
      Unmarked (load thread checkpointId).checkpoint.values := by
  constructor
  · intro afresh
    exact unmarked_of_graded fun limit environments =>
      afresh "hello" limit environments (by decide)
  · intro unmarked text limit environments _
    exact gradedFrom_of_moves visits_moves
      ⟨unmarked.count, fun _ => unmarked.note, fun grading => by cases grading⟩

/-- Behind a turn that used up its revisions, the first stub is let through. -/
theorem second_turn_not_afresh :
    Runs Operate CheckpointStore.empty [firstTurn] afterFirstTurn ∧
      classify "hello" = .general ∧
      ¬GradedAfresh (visits 25 (fun _ => stubEnvironment)
        (withInput (load afterFirstTurn none) [.human "hello"]).checkpoint) := by
  refine ⟨.single .invoke, by decide, fun graded => ?_⟩
  have letThrough := (graded.2.1 _ rfl).mpr
    ⟨⟨_, rfl, by decide⟩, by decide⟩
  cases letThrough

end AgenticEnterprise.Graph.Grading
