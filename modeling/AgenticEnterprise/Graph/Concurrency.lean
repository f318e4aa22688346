import AgenticEnterprise.Graph.Threads
import AgenticEnterprise.Library.Runs

/-! Two runs on one thread, interleaved superstep by superstep.

Nothing orders the runs: each loads the latest checkpoint when it starts and from
then on derives every checkpoint from its own previous one. -/

set_option autoImplicit false

namespace AgenticEnterprise.Graph.Concurrency

open Core Library Engine Threads

inductive Party where
  | first
  | second
  deriving DecidableEq, Repr

/-- Where a run stands, with the messages it loaded and its own last checkpoint. -/
inductive Phase where
  | waiting
  | running (loaded : List Message) (id : Nat) (step : Int) (checkpoint : Checkpoint)
  | completed (loaded : List Message) (result : GraphState)
  | failed (checkpoint : Checkpoint)
  deriving DecidableEq, Repr

structure State where
  thread : Thread
  phase : Party → Phase

inductive Event where
  | start (party : Party)
  | superstep (party : Party) (environment : Environment)

variable (text : Party → String)

def startRun (party : Party) (state : State) : Option State :=
  match state.phase party with
  | .waiting =>
      let start := load state.thread none
      let entry := withInput start [.human (text party)]
      some
        { thread := state.thread.put start.id entry
          phase := Function.update state.phase party
            (.running start.checkpoint.values.messages state.thread.nextId entry.step
              entry.checkpoint) }
  | _ => none

def runSuperstep (party : Party) (environment : Environment) (state : State) : Option State :=
  match state.phase party with
  | .running loaded id step ⟨values, some pending⟩ =>
      match (superstep environment values pending).outcome with
      | .error _ =>
          some { state with
            phase := Function.update state.phase party (.failed ⟨values, some pending⟩) }
      | .ok next =>
          let phase :=
            match next.next with
            | none => Phase.completed loaded next.values
            | some _ => Phase.running loaded state.thread.nextId (step + 1) next
          some
            { thread := state.thread.put (some id) ⟨.loop, step + 1, next⟩
              phase := Function.update state.phase party phase }
  | _ => none

def step (state : State) : Event → Option State
  | .start party => startRun text party state
  | .superstep party environment => runSuperstep party environment state

def Step (state : State) (event : Event) (next : State) : Prop :=
  step text state event = some next

def initial (thread : Thread) : State :=
  ⟨thread, fun _ => .waiting⟩

def latestCheckpoint (thread : Thread) : Option Checkpoint :=
  thread.latest.map Entry.checkpoint

/-! ## What a step can do -/

/-- The two kinds of steps that save a checkpoint, and the one that fails. -/
inductive Effect (state : State) : State → Prop where
  | started {party} :
      state.phase party = .waiting →
      Effect state
        { thread := state.thread.put (load state.thread none).id
            (withInput (load state.thread none) [.human (text party)])
          phase := Function.update state.phase party
            (.running (load state.thread none).checkpoint.values.messages state.thread.nextId
              (withInput (load state.thread none) [.human (text party)]).step
              (withInput (load state.thread none) [.human (text party)]).checkpoint) }
  | advanced {party loaded id index environment values pending next phase} :
      state.phase party = .running loaded id index ⟨values, some pending⟩ →
      Advance environment values pending next →
      phase = (if next.next = none then .completed loaded next.values
        else .running loaded state.thread.nextId (index + 1) next) →
      Effect state
        { thread := state.thread.put (some id) ⟨.loop, index + 1, next⟩
          phase := Function.update state.phase party phase }
  | failed {party loaded id index checkpoint} :
      state.phase party = .running loaded id index checkpoint →
      Effect state
        { state with phase := Function.update state.phase party (.failed checkpoint) }

variable {text}

theorem effect_of_step {state next : State} {event : Event} (taken : Step text state event next) :
    Effect text state next := by
  cases event with
  | start party =>
      simp only [Step, step, startRun] at taken
      split at taken
      · rename_i waiting
        cases taken
        exact .started waiting
      · cases taken
  | superstep party environment =>
      simp only [Step, step, runSuperstep] at taken
      split at taken
      · rename_i loaded id index values pending running
        split at taken
        · cases taken
          exact .failed running
        · rename_i after succeeded
          cases taken
          refine .advanced running (advance_of_outcome succeeded) ?_
          cases after.next <;> rfl
      · cases taken

/-! ## The invariant over both runs -/

/-- A run's checkpoint holds what it loaded, then its own turn. -/
def OwnTurn (text : String) : Phase → Prop
  | .waiting | .failed _ => True
  | .running loaded _ _ checkpoint =>
      (checkpoint.next = some (.input [.human text]) ∧ checkpoint.values.messages = loaded) ∨
        ∃ produced, checkpoint.values.messages = loaded ++ .human text :: produced
  | .completed loaded result => ∃ produced, result.messages = loaded ++ .human text :: produced

/-- The checkpoint a run has saved last. -/
def Phase.saved : Phase → Option Checkpoint
  | .waiting => none
  | .running _ _ _ checkpoint | .failed checkpoint => some checkpoint
  | .completed _ result => some ⟨result, none⟩

structure Coherent (text : Party → String) (state : State) : Prop where
  own : ∀ party, OwnTurn (text party) (state.phase party)
  latest : (∀ party, state.phase party = .waiting) ∨
    ∃ party checkpoint, (state.phase party).saved = some checkpoint ∧
      latestCheckpoint state.thread = some checkpoint

variable {state next : State} {event : Event}

@[simp] theorem latestCheckpoint_put {thread : Thread} {parent : Option Nat} {entry : Entry} :
    latestCheckpoint (thread.put parent entry) = some entry.checkpoint := by
  simp [latestCheckpoint]

theorem load_latestCheckpoint {thread : Thread} {checkpoint : Checkpoint}
    (latest : latestCheckpoint thread = some checkpoint) :
    (load thread none).checkpoint = checkpoint := by
  obtain ⟨entry, isLatest, rfl⟩ := Option.map_eq_some_iff.mp latest
  exact load_latest isLatest

theorem saved_of_advanced {loaded : List Message} {id : Nat} {index : Int} {after : Checkpoint} :
    (if after.next = none then Phase.completed loaded after.values
      else .running loaded id index after).saved = some after := by
  split
  · rename_i ended
    cases after
    simp_all [Phase.saved]
  · rfl

theorem OwnTurn.advance {text : String} {loaded : List Message} {id newId : Nat}
    {index newIndex : Int} {environment : Environment} {values : GraphState} {pending : Pending}
    {after : Checkpoint} (own : OwnTurn text (.running loaded id index ⟨values, some pending⟩))
    (advanced : Advance environment values pending after) :
    OwnTurn text (if after.next = none then .completed loaded after.values
      else .running loaded newId newIndex after) := by
  obtain ⟨added, grown, first⟩ := advanced.messages
  have extended : ∃ produced, after.values.messages = loaded ++ .human text :: produced := by
    rcases own with ⟨isInput, same⟩ | ⟨produced, same⟩
    · have onlyInput : added = [.human text] := first _ (Option.some.inj isInput)
      exact ⟨[], by rw [grown, onlyInput]; exact congrArg (· ++ [Message.human text]) same⟩
    · refine ⟨produced ++ added, ?_⟩
      rw [grown]
      simpa using congrArg (· ++ added) same
  split
  · exact extended
  · exact .inr extended

theorem Coherent.step (coherent : Coherent text state) (taken : Step text state event next) :
    Coherent text next := by
  obtain ⟨own, latest⟩ := coherent
  have kept {party : Party} {phase : Phase} (new : OwnTurn (text party) phase) (other : Party) :
      OwnTurn (text other) (Function.update state.phase party phase other) := by
    by_cases same : other = party
    · subst same
      simpa using new
    · simpa [same] using own other
  cases effect_of_step taken with
  | @started party waiting =>
      refine ⟨kept (.inl ⟨rfl, rfl⟩), .inr ⟨party, ?_⟩⟩
      simp [Phase.saved]
  | @advanced party loaded id index environment values pending after phase running advanced
      isPhase =>
      subst isPhase
      refine ⟨kept (OwnTurn.advance (running ▸ own party) advanced), .inr ⟨party, after, ?_, ?_⟩⟩
      · simp only [Function.update_self]
        exact saved_of_advanced
      · simp
  | @failed party loaded id index checkpoint running =>
      refine ⟨kept trivial, .inr ?_⟩
      rcases latest with allWaiting | ⟨saver, last, saved, isLatest⟩
      · rw [allWaiting party] at running
        cases running
      · refine ⟨saver, last, ?_, isLatest⟩
        by_cases same : saver = party
        · subst same
          simpa [Phase.saved, running] using saved
        · simpa [same] using saved

theorem coherent_initial {thread : Thread} : Coherent text (initial thread) :=
  ⟨fun _ => trivial, .inl fun _ => rfl⟩

theorem Coherent.runs {first last : State} {events : List Event} (coherent : Coherent text first)
    (run : Runs (Step text) first events last) : Coherent text last :=
  run.invariant (fun coherent taken => coherent.step taken) coherent

/-! ## A run that starts behind a completed one -/

def Loaded (messages : List Message) : Phase → Prop
  | .waiting => False
  | .running loaded _ _ _ | .completed loaded _ => loaded = messages
  | .failed _ => True

/-- `earlier` has completed with `result`; `later` has not started, or has loaded it. -/
structure Behind (earlier later : Party) (result : GraphState) (state : State) : Prop where
  completed : ∃ loaded, state.phase earlier = .completed loaded result
  loads : (state.phase later = .waiting ∧
      latestCheckpoint state.thread = some ⟨result, none⟩) ∨
    Loaded result.messages (state.phase later)

variable {earlier later : Party} {result : GraphState}

theorem party_eq (different : earlier ≠ later) (party : Party) :
    party = earlier ∨ party = later := by
  cases earlier <;> cases later <;> cases party <;> simp_all

/-- The completed run stays as it is; only the other one acts. -/
theorem Behind.update {thread : Thread} {party : Party} {phase : Phase}
    (behind : Behind earlier later result state) (different : earlier ≠ later)
    (acting : ∀ loaded, state.phase party ≠ .completed loaded result)
    (loaded : party = later → Loaded result.messages phase) :
    Behind earlier later result ⟨thread, Function.update state.phase party phase⟩ := by
  obtain ⟨⟨before, completed⟩, _⟩ := behind
  rcases party_eq different party with rfl | rfl
  · exact absurd completed (acting before)
  · exact ⟨⟨before, by simpa [different] using completed⟩, .inr (by simpa using loaded rfl)⟩

theorem Behind.step (behind : Behind earlier later result state) (different : earlier ≠ later)
    (taken : Step text state event next) : Behind earlier later result next := by
  cases effect_of_step taken with
  | @started party waiting =>
      refine behind.update different (by simp [waiting]) ?_
      intro same
      subst same
      rcases behind.loads with ⟨_, latest⟩ | loaded
      · show (load state.thread none).checkpoint.values.messages = result.messages
        rw [load_latestCheckpoint latest]
      · rw [waiting] at loaded
        cases loaded
  | @advanced party loaded id index environment values pending after phase running advanced
      isPhase =>
      refine behind.update different (by simp [running]) ?_
      intro same
      subst same isPhase
      rcases behind.loads with ⟨waiting, _⟩ | same
      · rw [waiting] at running
        cases running
      · rw [running] at same
        split <;> exact same
  | @failed party loaded id index checkpoint running =>
      exact behind.update different (by simp [running]) fun _ => trivial

theorem Behind.runs {first last : State} {events : List Event}
    (behind : Behind earlier later result first) (different : earlier ≠ later)
    (run : Runs (Step text) first events last) : Behind earlier later result last :=
  run.invariant (fun behind taken => behind.step different taken) behind

/-! ## What the latest state contains -/

/-- The human message of a turn and the reply it returned. -/
def HoldsTurn (text : String) (result : GraphState) (messages : List Message) : Prop :=
  .human text ∈ messages ∧ ∀ reply, result.messages.getLast? = some reply → reply ∈ messages

theorem holdsTurn_of_extends {loaded produced : List Message} {text : String}
    (messages : result.messages = loaded ++ .human text :: produced) :
    HoldsTurn text result result.messages :=
  ⟨by simp [messages], fun _ isLast => List.mem_of_getLast? isLast⟩

/-- After two completed runs the latest state is the one of the run that saved
last. It holds that run's turn behind everything the run loaded, so also the
turn of a run that had completed before it started. -/
theorem latest_holds_last_turn {thread : Thread} {before after : List Event}
    {middle final : State} {loaded : Party → List Message} {result : Party → GraphState}
    (run : Runs (Step text) (initial thread) before middle)
    (rest : Runs (Step text) middle after final)
    (completed : ∀ party, final.phase party = .completed (loaded party) (result party)) :
    ∃ last, latestCheckpoint final.thread = some ⟨result last, none⟩ ∧
      HoldsTurn (text last) (result last) (result last).messages ∧
      (∀ message ∈ loaded last, message ∈ (result last).messages) ∧
      ∀ other, other ≠ last →
        (∃ messages, middle.phase other = .completed messages (result other)) →
        middle.phase last = .waiting →
        HoldsTurn (text other) (result other) (result last).messages := by
  have midway : Coherent text middle := coherent_initial.runs run
  have coherent : Coherent text final := midway.runs rest
  have own (party : Party) : ∃ produced,
      (result party).messages = loaded party ++ .human (text party) :: produced := by
    have turn := coherent.own party
    rw [completed party] at turn
    exact turn
  rcases coherent.latest with waiting | ⟨last, checkpoint, saved, latest⟩
  · have done := completed .first
    rw [waiting .first] at done
    cases done
  · have isResult : checkpoint = ⟨result last, none⟩ := by
      rw [completed last] at saved
      exact (Option.some.inj saved).symm
    subst isResult
    obtain ⟨produced, messages⟩ := own last
    have keeps : ∀ message ∈ loaded last, message ∈ (result last).messages := by
      intro message member
      rw [messages]
      exact List.mem_append_left _ member
    refine ⟨last, latest, holdsTurn_of_extends messages, keeps, ?_⟩
    intro other different earlier waiting
    obtain ⟨before, done⟩ := earlier
    have behind : Behind other last (result other) middle := by
      refine ⟨⟨before, done⟩, .inl ⟨waiting, ?_⟩⟩
      rcases midway.latest with allWaiting | ⟨saver, stored, storedBy, isLatest⟩
      · rw [allWaiting other] at done
        cases done
      · rcases party_eq different saver with rfl | rfl
        · rw [done] at storedBy
          exact isLatest.trans storedBy.symm
        · rw [waiting] at storedBy
          cases storedBy
    have loads := (behind.runs different rest).loads
    rw [completed last] at loads
    rcases loads with ⟨notStarted, _⟩ | same
    · cases notStarted
    · obtain ⟨_, otherMessages⟩ := own other
      have held := holdsTurn_of_extends otherMessages
      have inside : ∀ message ∈ (result other).messages, message ∈ (result last).messages := by
        intro message member
        exact keeps message (same ▸ member)
      exact ⟨inside _ held.1, fun reply isLast => inside reply (held.2 reply isLast)⟩

/-! ## Two billing questions at the same time -/

def billingText : Party → String
  | .first => "invoice 1"
  | .second => "invoice 2"

def billingModel : Environment :=
  scripted ⟨"refund issued", []⟩ ⟨"", []⟩

def advance (party : Party) : List Event :=
  [.superstep party billingModel, .superstep party billingModel, .superstep party billingModel,
    .superstep party billingModel]

/-- Both runs load the empty thread before either of them has saved an answer. -/
def overlapping : List Event :=
  [.start .first, .start .second] ++ advance .first ++ advance .second

def latestMessages (final : State) : List Message :=
  ((latestCheckpoint final.thread).map fun checkpoint => checkpoint.values.messages).getD []

theorem first_turn_lost :
    ∃ final, Runs (Step billingText) (initial CheckpointStore.empty) overlapping final ∧
      (∀ party, ∃ loaded result, final.phase party = .completed loaded result) ∧
      .human (billingText .first) ∉ latestMessages final := by
  have run : runSteps (step billingText) (initial CheckpointStore.empty) overlapping = some _ :=
    rfl
  refine ⟨_, runSteps_eq_some_iff.mp run, ?_, by decide⟩
  intro party
  cases party with
  | first => exact ⟨_, _, rfl⟩
  | second => exact ⟨_, _, rfl⟩

def Phase.outcome : Phase → GraphState
  | .completed _ result => result
  | _ => {}

def Phase.loadedMessages : Phase → List Message
  | .completed loaded _ => loaded
  | _ => []

def runBilling (state : State) (events : List Event) : State :=
  (runSteps (step billingText) state events).getD state

/-- The first question is answered before the second one is asked. -/
def firstAnswered : State :=
  runBilling (initial CheckpointStore.empty) (.start .first :: advance .first)

def bothAnswered : State :=
  runBilling firstAnswered (.start .second :: advance .second)

theorem sequential_turns_kept :
    ∃ last, latestCheckpoint bothAnswered.thread = some ⟨(bothAnswered.phase last).outcome, none⟩ ∧
      Message.human (billingText last) ∈ (bothAnswered.phase last).outcome.messages := by
  have firstRun : runSteps (step billingText) (initial CheckpointStore.empty)
      (.start .first :: advance .first) = some firstAnswered := rfl
  have secondRun : runSteps (step billingText) firstAnswered
      (.start .second :: advance .second) = some bothAnswered := rfl
  have completed : ∀ party, bothAnswered.phase party =
      .completed (bothAnswered.phase party).loadedMessages (bothAnswered.phase party).outcome := by
    intro party
    cases party <;> rfl
  obtain ⟨last, latest, held, _⟩ := latest_holds_last_turn (runSteps_eq_some_iff.mp firstRun)
    (runSteps_eq_some_iff.mp secondRun) completed
  exact ⟨last, latest, held.1⟩

end AgenticEnterprise.Graph.Concurrency
