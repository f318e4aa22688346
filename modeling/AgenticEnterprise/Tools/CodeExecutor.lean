import AgenticEnterprise.Core.Columns
import AgenticEnterprise.Core.Exceptions
import AgenticEnterprise.Core.Text
import AgenticEnterprise.Library.Effects

/-! Sandboxed executions and their rows: `app/tools/code_executor.py`.

Any call of the podman client may raise. The row is written behind the execution. -/

set_option autoImplicit false

namespace AgenticEnterprise.Tools.CodeExecutor

open Core Library

def maxCodeLength : Nat := 4000

structure CodeExecutionInput where
  code : String
  nonempty : 1 ≤ code.length
  bounded : code.length ≤ maxCodeLength

/-- An exception with its text, under `PodmanError` or not. -/
inductive Failure where
  | podmanError (text : String)
  | exception (text : String)
  deriving DecidableEq, Repr

/-- The answers of the podman client in one execution. `launches` says whether `run`
starts a container, be it that it raises then. `containerError` is the text of a
`ContainerError` for an exit code and logs. -/
structure Sandbox where
  connect : Except Failure Unit
  launches : Bool
  run : Except Failure Unit
  wait : Except Failure Int
  logs : Except Failure String
  remove : Except Failure Unit
  close : Except Failure Unit
  containerError : Int → String → String

structure CodeExecutionEvent where
  threadId : Option String
  codeLength : Nat
  outcome : String
  detail : Option String
  deriving DecidableEq, Repr

/-- Postgres takes the row. -/
def CodeExecutionEvent.accepted (event : CodeExecutionEvent) : Bool :=
  Columns.nullable (Columns.varchar 128) event.threadId && Columns.integer event.codeLength &&
    Columns.varchar 16 event.outcome && Columns.nullable (Columns.varchar 512) event.detail

/-- The commands of the containers that were started, and the committed rows. -/
structure State where
  containers : List (List String) := []
  events : List CodeExecutionEvent := []
  deriving DecidableEq, Repr

structure Result where
  output : String
  status : String
  deriving DecidableEq, Repr

def command (code : String) : List String :=
  ["python", "-c", code]

/-- Any exit code but 0 is an error. -/
def Sandbox.checked (sandbox : Sandbox) (exitCode : Int) (logs : String) :
    Except Failure String :=
  if exitCode ≠ 0 then .error (.podmanError (sandbox.containerError exitCode logs)) else .ok logs

/-- The body of the `try` in `_run_container`. -/
def awaitLogs (sandbox : Sandbox) : Effect State Failure String := do
  let exitCode ← Effect.ofExcept sandbox.wait
  let logs ← Effect.ofExcept sandbox.logs
  Effect.ofExcept (sandbox.checked exitCode logs)

def runContainer (sandbox : Sandbox) (code : String) : Effect State Failure String := do
  Effect.write fun state =>
    { state with containers := state.containers ++ if sandbox.launches then [command code] else [] }
  Effect.ofExcept sandbox.run
  Effect.ensuring (awaitLogs sandbox) (Effect.ofExcept sandbox.remove)

def executeSandboxedCode (sandbox : Sandbox) (code : String) : Effect State Exn Result := do
  let outcome ← Effect.attempt do
    Effect.ofExcept sandbox.connect
    Effect.ensuring (runContainer sandbox code) (Effect.ofExcept sandbox.close)
  match outcome with
  | .ok output => return ⟨Text.strip output, "success"⟩
  | .error (.podmanError text) => return ⟨text, "error"⟩
  | .error (.exception text) => return ⟨text, "error"⟩

def audit (threadId : Option String) (codeLength : Nat) (outcome detail : String) :
    Effect State Exn Unit := fun state =>
  let event : CodeExecutionEvent :=
    ⟨threadId, codeLength, outcome, some (Columns.head 512 detail)⟩
  if event.accepted then (.ok (), { state with events := state.events ++ [event] })
  else (.error (.external "DBAPIError"), state)

def executeSandboxedCodeAsync (sandbox : Sandbox) (threadId : Option String) (code : String) :
    Effect State Exn Result := do
  let result ← executeSandboxedCode sandbox code
  audit threadId code.length (if result.status = "success" then "ok" else "error") result.output
  return result

/-! ## What an execution comes to -/

def Sandbox.starts (sandbox : Sandbox) : Bool :=
  match sandbox.connect with
  | .ok () => sandbox.launches
  | .error _ => false

/-- What a container that was started shows. -/
def Sandbox.shown (sandbox : Sandbox) : Except Failure String := do
  let exitCode ← sandbox.wait
  let logs ← sandbox.logs
  sandbox.checked exitCode logs

/-- How `_run_container` ends. -/
def Sandbox.container (sandbox : Sandbox) : Except Failure String :=
  match sandbox.run, sandbox.remove with
  | .error failure, _ => .error failure
  | .ok (), .error failure => .error failure
  | .ok (), .ok () => sandbox.shown

def Sandbox.ending (sandbox : Sandbox) : Except Failure String :=
  match sandbox.connect, sandbox.close with
  | .error failure, _ => .error failure
  | .ok (), .error failure => .error failure
  | .ok (), .ok () => sandbox.container

def told : Except Failure String → Result
  | .ok output => ⟨Text.strip output, "success"⟩
  | .error (.podmanError text) => ⟨text, "error"⟩
  | .error (.exception text) => ⟨text, "error"⟩

def Sandbox.result (sandbox : Sandbox) : Result :=
  told sandbox.ending

/-- The row of a call that started a container: its detail is the end of the text that
the execution came to. -/
def Audited (sandbox : Sandbox) (threadId : Option String) (input : CodeExecutionInput)
    (state : State) : Prop :=
  let ran := (executeSandboxedCodeAsync sandbox threadId input.code).exec state
  ran.2.containers ≠ state.containers →
    ∃ event, ran.2.events = state.events ++ [event] ∧ event.threadId = threadId ∧
      event.codeLength = input.code.length ∧
      (event.outcome = "ok" ↔ ∃ result, ran.1 = .ok result ∧ result.status = "success") ∧
      event.detail = some (Columns.tail 512 sandbox.result.output)

/-- The columns take the row, and the text begins as it ends. -/
structure Fitting (threadId : Option String) (output : String) : Prop where
  thread : ∀ thread, threadId = some thread → thread.length ≤ 128 ∧ '\x00' ∉ thread.toList
  text : '\x00' ∉ (Columns.head 512 output).toList
  whole : Columns.head 512 output = Columns.tail 512 output

section

variable {sandbox : Sandbox} {code : String} {state : State} {threadId : Option String}

theorem awaitLogs_exec : (awaitLogs sandbox).exec state = (sandbox.shown, state) := by
  unfold awaitLogs Sandbox.shown
  rcases sandbox.wait with failure | exitCode
  · rfl
  · rcases sandbox.logs with failure | logs
    · rfl
    · rfl

theorem runContainer_exec :
    (runContainer sandbox code).exec state =
      (sandbox.container, { state with containers := state.containers ++
        if sandbox.launches then [command code] else [] }) := by
  unfold runContainer Sandbox.container
  simp only [Effect.exec_bind, Effect.exec_ofExcept, Effect.exec_write]
  rcases sandbox.run with failure | _
  · rfl
  · simp only [Effect.exec_ensuring, Effect.exec_ofExcept, awaitLogs_exec]
    rcases sandbox.remove with failure | _
    · rfl
    · rfl

theorem executeSandboxedCode_exec :
    (executeSandboxedCode sandbox code).exec state =
      (.ok sandbox.result,
        { state with containers := state.containers ++
            if sandbox.starts then [command code] else [] }) := by
  have ending : Effect.exec (do
      Effect.ofExcept sandbox.connect
      Effect.ensuring (runContainer sandbox code) (Effect.ofExcept sandbox.close)) state =
        (sandbox.ending, { state with containers := state.containers ++
          if sandbox.starts then [command code] else [] }) := by
    unfold Sandbox.ending Sandbox.starts
    rcases sandbox.connect with failure | _
    · simp [Effect.exec_bind]
    · simp only [Effect.exec_bind, Effect.exec_ofExcept, Effect.exec_ensuring, runContainer_exec]
      rcases sandbox.close with failure | _
      · rfl
      · rfl
  unfold executeSandboxedCode Sandbox.result
  rw [Effect.exec_bind, Effect.exec_attempt, ending]
  rcases sandbox.ending with failure | output
  · cases failure with
    | podmanError text => rfl
    | exception text => rfl
  · rfl

def rowOf (sandbox : Sandbox) (threadId : Option String) (code : String) : CodeExecutionEvent :=
  ⟨threadId, code.length, if sandbox.result.status = "success" then "ok" else "error",
    some (Columns.head 512 sandbox.result.output)⟩

/-- A row that is refused takes the place of the result. -/
theorem executeSandboxedCodeAsync_exec :
    (executeSandboxedCodeAsync sandbox threadId code).exec state =
      let containers := state.containers ++ if sandbox.starts then [command code] else []
      if (rowOf sandbox threadId code).accepted then
        (.ok sandbox.result, ⟨containers, state.events ++ [rowOf sandbox threadId code]⟩)
      else (.error (.external "DBAPIError"), ⟨containers, state.events⟩) := by
  unfold executeSandboxedCodeAsync
  rw [Effect.exec_bind, executeSandboxedCode_exec]
  have audited (state : State) :
      (audit threadId code.length (if sandbox.result.status = "success" then "ok" else "error")
        sandbox.result.output).exec state =
          if (rowOf sandbox threadId code).accepted then
            (.ok (), { state with events := state.events ++ [rowOf sandbox threadId code] })
          else (.error (.external "DBAPIError"), state) := rfl
  simp only [Effect.exec_bind, audited]
  by_cases taken : (rowOf sandbox threadId code).accepted = true
  · simp [taken]
  · simp [taken]

theorem accepted_rowOf_iff {input : CodeExecutionInput} :
    (rowOf sandbox threadId input.code).accepted = true ↔
      (∀ thread, threadId = some thread → thread.length ≤ 128 ∧ '\x00' ∉ thread.toList) ∧
        '\x00' ∉ (Columns.head 512 sandbox.result.output).toList := by
  have fits : Columns.integer input.code.length = true := by
    have bounded := input.bounded
    simp only [Columns.integer, maxCodeLength, decide_eq_true_eq] at bounded ⊢
    omega
  have outcome : Columns.varchar 16
      (if sandbox.result.status = "success" then "ok" else "error") = true := by
    split
    · decide
    · decide
  simp only [CodeExecutionEvent.accepted, rowOf, fits, outcome, Bool.and_true, Bool.and_eq_true,
    Columns.nullable_varchar_iff, Option.some.injEq, forall_eq', Columns.head_length_le, true_and]

theorem outcome_rowOf_iff :
    (rowOf sandbox threadId code).outcome = "ok" ↔ sandbox.result.status = "success" := by
  have other : "error" ≠ "ok" := by decide
  by_cases success : sandbox.result.status = "success"
  · simp [rowOf, success]
  · simp [rowOf, success, other]

theorem Audited.fitting {input : CodeExecutionInput}
    (audited : Audited sandbox threadId input state) (started : sandbox.starts = true) :
    Fitting threadId sandbox.result.output := by
  unfold Audited at audited
  rw [executeSandboxedCodeAsync_exec, started] at audited
  by_cases taken : (rowOf sandbox threadId input.code).accepted = true
  · rw [if_pos taken] at audited
    obtain ⟨thread, text⟩ := accepted_rowOf_iff.mp taken
    obtain ⟨event, committed, _, _, _, detail⟩ := audited (by simp)
    obtain rfl : rowOf sandbox threadId input.code = event := by simpa using committed
    exact ⟨thread, text, Option.some.inj detail⟩
  · rw [if_neg taken] at audited
    obtain ⟨event, committed, _⟩ := audited (by simp)
    simp at committed

theorem Fitting.audited {input : CodeExecutionInput}
    (fitting : Fitting threadId sandbox.result.output) :
    Audited sandbox threadId input state := by
  have taken : (rowOf sandbox threadId input.code).accepted = true :=
    accepted_rowOf_iff.mpr ⟨fitting.thread, fitting.text⟩
  unfold Audited
  rw [executeSandboxedCodeAsync_exec]
  simp only [taken, if_true]
  refine fun _ => ⟨rowOf sandbox threadId input.code, rfl, rfl, rfl, ?_, ?_⟩
  · simp [outcome_rowOf_iff]
  · rw [← fitting.whole]
    rfl

/-- A call that starts a container is recorded exactly if the columns take its row and
the text it came to begins as it ends. -/
theorem audited_iff_fitting {input : CodeExecutionInput} :
    Audited sandbox threadId input state ↔
      (sandbox.starts = true → Fitting threadId sandbox.result.output) := by
  constructor
  · exact fun audited started => audited.fitting started
  · intro fitting
    by_cases started : sandbox.starts = true
    · exact (fitting started).audited
    · have idle : sandbox.starts = false := by simpa using started
      unfold Audited
      rw [executeSandboxedCodeAsync_exec, idle]
      by_cases taken : (rowOf sandbox threadId input.code).accepted = true
      · simp [taken]
      · simp [taken]

end

/-! ## Two outputs -/

def printing (logs : String) : Sandbox where
  connect := .ok ()
  launches := true
  run := .ok ()
  wait := .ok 0
  logs := .ok logs
  remove := .ok ()
  close := .ok ()
  containerError exitCode logs :=
    "Command 'python -c' in image 'python:3.11-slim' returned non-zero exit status " ++
      toString exitCode ++ ": " ++ logs

def printNul : CodeExecutionInput where
  code := "print(chr(0))"
  nonempty := by decide
  bounded := by decide

def printLong : CodeExecutionInput where
  code := "print(512 * 'a' + 'b')"
  nonempty := by decide
  bounded := by decide

/-- So many letters, and another one behind them. -/
def longOutput (count : Nat) : String :=
  String.ofList (List.replicate count 'a' ++ ['b'])

theorem strip_longOutput (count : Nat) :
    Text.strip (longOutput (count + 1)) = longOutput (count + 1) := by
  have front : (List.replicate (count + 1) 'a' ++ ['b']).dropWhile Text.isSpace =
      List.replicate (count + 1) 'a' ++ ['b'] := by
    rw [List.replicate_succ, List.cons_append]
    exact List.dropWhile_cons_of_neg (by decide)
  have back : (List.replicate (count + 1) 'a' ++ ['b']).reverse.dropWhile Text.isSpace =
      (List.replicate (count + 1) 'a' ++ ['b']).reverse := by
    rw [List.reverse_append, List.reverse_singleton, List.singleton_append]
    exact List.dropWhile_cons_of_neg (by decide)
  rw [Text.strip, longOutput, String.toList_ofList, front, back, List.reverse_reverse]

theorem longOutput_detail (count : Nat) :
    Columns.head (count + 1) (longOutput (count + 1)) ≠
      Columns.tail (count + 1) (longOutput (count + 1)) := by
  have different := @Columns.head_ne_tail (List.replicate (count + 1) 'a') 'b' (by simp) (by simp)
  rwa [List.length_replicate] at different

/-- The row of a NUL is refused, and the row of a longer output has its beginning. -/
theorem outputs_not_audited :
    ((executeSandboxedCodeAsync (printing "\x00\n") none printNul.code).exec {} =
        (.error (.external "DBAPIError"), ⟨[command printNul.code], []⟩) ∧
      ¬Audited (printing "\x00\n") none printNul {}) ∧
      ¬Audited (printing (longOutput 512)) none printLong {} := by
  have lost : (executeSandboxedCodeAsync (printing "\x00\n") none printNul.code).exec {} =
      (.error (.external "DBAPIError"), ⟨[command printNul.code], []⟩) := by
    have refused : (rowOf (printing "\x00\n") none printNul.code).accepted = false := by
      decide +kernel
    rw [executeSandboxedCodeAsync_exec, refused]
    rfl
  refine ⟨⟨lost, fun audited => ?_⟩, fun audited => ?_⟩
  · rw [Audited, lost] at audited
    obtain ⟨event, committed, _⟩ := audited (by simp)
    cases committed
  · have whole := (audited.fitting rfl).whole
    have output : (printing (longOutput 512)).result.output = longOutput 512 :=
      strip_longOutput 511
    rw [output] at whole
    exact longOutput_detail 511 whole

end AgenticEnterprise.Tools.CodeExecutor
