import AgenticEnterprise.Graph.Threads

/-! Reading a thread's checkpoint history: `app/graph/history.py`.

A checkpoint identifier is the text of its position in the thread. -/

set_option autoImplicit false

namespace AgenticEnterprise.Graph.History

open Core Library Engine Threads

def checkpointText (id : Nat) : String :=
  Nat.repr id

/-- The identifier a run is pinned to. The empty text pins nothing, and a text
that names no checkpoint of the thread becomes an identifier it does not have. -/
def checkpointConfig (thread : Thread) (checkpointId : String) : Option Nat :=
  if checkpointId = "" then none
  else
    some (((List.range thread.nextId).find? fun id =>
      decide (checkpointText id = checkpointId)).getD thread.nextId)

def pendingName : Pending → String
  | .input _ => "__start__"
  | .node node => node.name

/-- `StateSnapshot.next`. -/
def snapshotNext (checkpoint : Checkpoint) : List String :=
  checkpoint.next.toList.map pendingName

/-- `aget_state` of the latest checkpoint; a thread that was never written has
no values and nothing pending. -/
def agetState (thread : Thread) : Checkpoint :=
  match thread.latest with
  | some entry => entry.checkpoint
  | none => {}

structure SnapshotSummary where
  checkpointId : Nat
  parentCheckpointId : Option Nat
  next : List String
  messageCount : Nat
  status : Option String
  source : Source
  step : Int
  deriving DecidableEq, Repr

def snapshotSummary (id : Nat) (saved : Saved Entry) : SnapshotSummary where
  checkpointId := id
  parentCheckpointId := saved.parent
  next := snapshotNext saved.state.checkpoint
  messageCount := saved.state.checkpoint.values.messages.length
  status := saved.state.checkpoint.values.status
  source := saved.state.source
  step := saved.state.step

/-- Newest first, at most `limit` of them. -/
def threadTimeline (thread : Thread) (limit : Int) : List SnapshotSummary :=
  ((thread.entries.mapIdx snapshotSummary).reverse).take limit.toNat

def isInterrupted (thread : Thread) : Bool :=
  decide (snapshotNext (agetState thread) ≠ [])

abbrev Tree := List (Option Nat × List SnapshotSummary)

/-- `tree.setdefault(parent, []).append(entry)`. -/
def Tree.add : Tree → SnapshotSummary → Tree
  | [], entry => [(entry.parentCheckpointId, [entry])]
  | (parent, children) :: rest, entry =>
      if parent = entry.parentCheckpointId then (parent, children ++ [entry]) :: rest
      else (parent, children) :: Tree.add rest entry

def branchTree (timeline : List SnapshotSummary) : Tree :=
  timeline.foldl Tree.add []

end AgenticEnterprise.Graph.History
