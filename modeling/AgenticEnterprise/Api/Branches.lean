import AgenticEnterprise.Api.Endpoints
import AgenticEnterprise.Library.Accumulators

/-! The branches of a thread: `thread_branches` over `branch_tree`. -/

set_option autoImplicit false

namespace AgenticEnterprise.Api.Branches

open Core Library Graph Threads History

/-- Every listed checkpoint is in the one group of its parent and in it once, the
groups keep the order of the timeline, and a fork point is a parent with two
listed children or more. -/
structure Partition (timeline : List SnapshotSummary) (tree : Tree)
    (forkPoints : List (Nat × Nat)) : Prop where
  keys : (tree.map Prod.fst).Nodup
  placed : ∀ entry ∈ timeline, ∃ children, (entry.parentCheckpointId, children) ∈ tree ∧
    children.count entry = 1 ∧
    ∀ group ∈ tree, entry ∈ group.2 → group = (entry.parentCheckpointId, children)
  ordered : ∀ group ∈ tree, group.2.Sublist timeline
  filled : ∀ group ∈ tree, group.2 ≠ []
  forkKeys : (forkPoints.map Prod.fst).Nodup
  forks : ∀ parent children, (parent, children) ∈ forkPoints ↔ 2 ≤ children ∧
    children = timeline.countP fun entry => decide (entry.parentCheckpointId = some parent)

section

variable {timeline : List SnapshotSummary} {entry : SnapshotSummary} {tree : Tree}
  {thread : Thread} {limit : Int}

/-! ## The tree -/

theorem add_eq :
    Tree.add tree entry = addToGroup SnapshotSummary.parentCheckpointId tree entry := by
  induction tree with
  | nil => rfl
  | cons group rest ih =>
      obtain ⟨parent, children⟩ := group
      rw [Tree.add, addToGroup, ih]

theorem branchTree_grouped :
    Grouped SnapshotSummary.parentCheckpointId timeline (branchTree timeline) := by
  have same : branchTree timeline = groupBy SnapshotSummary.parentCheckpointId timeline := by
    rw [branchTree, groupBy]
    congr
    funext tree entry
    exact add_eq
  rw [same]
  exact grouped_groupBy _ timeline

theorem mem_forkPoints {parent children : Nat} :
    (parent, children) ∈ forkPoints tree ↔
      ∃ group, (some parent, group) ∈ tree ∧ 1 < group.length ∧ children = group.length := by
  unfold forkPoints
  rw [List.mem_filterMap]
  constructor
  · rintro ⟨⟨key, group⟩, listed, forked⟩
    cases key with
    | none => cases forked
    | some key =>
        dsimp only at forked
        split at forked
        · rename_i several
          cases forked
          exact ⟨group, listed, several, rfl⟩
        · cases forked
  · rintro ⟨group, listed, several, rfl⟩
    exact ⟨_, listed, if_pos several⟩

theorem forkPoints_keys (keys : (tree.map Prod.fst).Nodup) :
    ((forkPoints tree).map Prod.fst).Nodup := by
  induction tree with
  | nil => exact List.nodup_nil
  | cons group rest ih =>
      obtain ⟨fresh, distinct⟩ := List.nodup_cons.mp keys
      obtain ⟨key, children⟩ := group
      cases key with
      | none => exact ih distinct
      | some parent =>
          by_cases several : children.length > 1
          · have split : forkPoints ((some parent, children) :: rest) =
                (parent, children.length) :: forkPoints rest :=
              List.filterMap_cons_some (if_pos several)
            rw [split, List.map_cons, List.nodup_cons]
            refine ⟨fun member => fresh ?_, ih distinct⟩
            obtain ⟨⟨other, count⟩, listed, rfl⟩ := List.mem_map.mp member
            obtain ⟨group, listed, _⟩ := mem_forkPoints.mp listed
            exact List.mem_map.mpr ⟨_, listed, rfl⟩
          · have split : forkPoints ((some parent, children) :: rest) = forkPoints rest :=
              List.filterMap_cons_none (if_neg several)
            rw [split]
            exact ih distinct

/-- For a timeline of any length and any parents. -/
theorem partition_of_nodup (once : timeline.Nodup) :
    Partition timeline (branchTree timeline) (forkPoints (branchTree timeline)) := by
  have grouped := @branchTree_grouped timeline
  refine ⟨grouped.keys, fun entry listed => ?_, fun group member => ?_, fun group member => ?_,
    forkPoints_keys grouped.keys, fun parent children => ?_⟩
  · let siblings := timeline.filter fun other =>
      decide (other.parentCheckpointId = entry.parentCheckpointId)
    have member : entry ∈ siblings := List.mem_filter.mpr ⟨listed, by simp⟩
    refine ⟨siblings, (grouped.mem_iff _ _).mpr ⟨rfl, List.ne_nil_of_mem member⟩, ?_, ?_⟩
    · exact List.count_eq_one_of_mem (once.filter _) member
    · rintro ⟨key, children⟩ other inside
      obtain ⟨rfl, filled⟩ := (grouped.mem_iff _ _).mp other
      obtain rfl : entry.parentCheckpointId = key := by simpa using (List.mem_filter.mp inside).2
      rfl
  · obtain ⟨same, _⟩ := (grouped.mem_iff group.1 group.2).mp member
    rw [same]
    exact List.filter_sublist
  · exact ((grouped.mem_iff group.1 group.2).mp member).2
  · rw [mem_forkPoints, List.countP_eq_length_filter]
    constructor
    · rintro ⟨group, listed, several, rfl⟩
      obtain ⟨rfl, _⟩ := (grouped.mem_iff _ _).mp listed
      exact ⟨several, rfl⟩
    · rintro ⟨several, rfl⟩
      refine ⟨_, (grouped.mem_iff _ _).mpr ⟨rfl, fun empty => ?_⟩, several, rfl⟩
      rw [empty] at several
      exact absurd several (by simp)

/-! ## The timeline -/

theorem threadTimeline_newestFirst :
    (threadTimeline thread limit).Pairwise fun newer older =>
      older.checkpointId < newer.checkpointId := by
  have oldestFirst : (thread.entries.mapIdx snapshotSummary).Pairwise fun older newer =>
      older.checkpointId < newer.checkpointId := by
    rw [List.pairwise_iff_getElem]
    intro first second firstBound secondBound order
    simpa [snapshotSummary] using order
  exact (List.pairwise_reverse.mpr oldestFirst).sublist (List.take_sublist _ _)

theorem threadTimeline_nodup : (threadTimeline thread limit).Nodup :=
  threadTimeline_newestFirst.imp fun later same => by
    rw [same] at later
    exact absurd later (Nat.lt_irrefl _)

/-- Any listing without repeats is partitioned, whatever parents it names, and so is the
timeline of a thread. -/
theorem branches_partition :
    (∀ timeline : List SnapshotSummary, timeline.Nodup →
      Partition timeline (branchTree timeline) (forkPoints (branchTree timeline))) ∧
    ∀ (thread : Thread) (limit : Int),
      Partition (threadTimeline thread limit) (branchTree (threadTimeline thread limit))
        (forkPoints (branchTree (threadTimeline thread limit))) :=
  ⟨fun _ once => partition_of_nodup once, fun _ _ => partition_of_nodup threadTimeline_nodup⟩

/-- The route answers with the partition, unless the graph or the saver fails or the limit is
negative. -/
theorem threadBranches_responds (outside : Outside) (threadId : String) (limit : Int)
    (state : State) :
    (∃ failure, ((threadBranches outside threadId limit).exec state).1 = .error failure) ∨
      ∃ timeline tree forkPoints,
        timeline = threadTimeline (state.system.threads threadId) limit ∧
        Partition timeline tree forkPoints ∧
        ((threadBranches outside threadId limit).exec state).1 =
          .ok { body := .branches threadId timeline.length forkPoints tree } := by
  cases built : outside.fault .buildWorkflow with
  | some failure => exact .inl ⟨failure, by simp [threadBranches, call, built, Effect.exec_bind]⟩
  | none =>
      cases listed : outside.fault .listHistory with
      | some failure =>
          exact .inl ⟨failure, by
            simp [threadBranches, listHistory, call, built, listed, Effect.exec_bind]⟩
      | none =>
          by_cases negative : limit < 0
          · exact .inl ⟨.external "postgres", by
              simp [threadBranches, listHistory, call, built, listed, negative,
                Effect.exec_bind]⟩
          · refine .inr ⟨_, _, _, rfl, partition_of_nodup threadTimeline_nodup, ?_⟩
            simp only [threadBranches, listHistory, call, built, listed, negative, currentThread,
              Effect.exec_bind, Effect.exec_ofExcept, Effect.exec_read, Effect.exec_pure,
              if_false]

end

end AgenticEnterprise.Api.Branches
