import AgenticEnterprise.Graph.Engine
import AgenticEnterprise.Library.Accumulators

/-! The log of a conversation under any sequence of updates: the reducer
`merge_logs` of `app/graph/engine.py`. -/

set_option autoImplicit false

namespace AgenticEnterprise.Graph.Logs

open Library Engine

/-- The log after the updates; `none` is a channel that was never written. -/
def mergeAll (start : Option (List String)) (updates : List (List String)) :
    Option (List String) :=
  updates.foldl (fun log update => some (mergeLogs log update)) start

def lines (log : Option (List String)) : List String :=
  log.getD []

/-- The log starts with the old one and has each line once, in the order of the
first occurrences. To merge an update again changes nothing, and the updates can
be merged with one another first. -/
structure KeptOnce (start : Option (List String)) (updates : List (List String)) : Prop where
  appendOnly : lines start <+: lines (mergeAll start updates)
  once : (lines (mergeAll start updates)).Nodup
  ordered : lines (mergeAll start updates) = (lines start ++ updates.flatten).eraseDups
  again : ∀ update ∈ updates,
    mergeLogs (mergeAll start updates) update = lines (mergeAll start updates)
  together : lines (mergeAll start updates) =
    mergeLogs start (lines (mergeAll none updates))

variable {start : Option (List String)} {update : List String} {updates : List (List String)}

theorem mergeLogs_eq : mergeLogs start update = merge (lines start) update := by
  have kept : update.filter (fun line => decide (line ∉ lines start)) =
      update.removeAll (lines start) :=
    List.filter_congr fun line _ => by simp
  rw [merge, ← kept]
  rfl

theorem lines_mergeAll : lines (mergeAll start updates) = updates.foldl merge (lines start) := by
  induction updates generalizing start with
  | nil => rfl
  | cons update updates ih =>
      rw [mergeAll, List.foldl_cons, ← mergeAll, ih, List.foldl_cons, ← mergeLogs_eq]
      rfl

theorem mergeLogs_again (merged : update ∈ updates) :
    mergeLogs (mergeAll start updates) update = lines (mergeAll start updates) := by
  rw [mergeLogs_eq]
  refine merge_of_subset fun line member => ?_
  rw [lines_mergeAll]
  exact mem_merges.mpr (.inr ⟨update, merged, member⟩)

theorem mergeAll_together :
    lines (mergeAll start updates) = mergeLogs start (lines (mergeAll none updates)) := by
  rw [mergeLogs_eq, lines_mergeAll, lines_mergeAll]
  exact merges_eq_merge

/-- Only a line that an update has twice and that is new with it gets into the log twice. -/
theorem keptOnce_iff (distinct : (lines start).Nodup) :
    KeptOnce start updates ↔ NewOnce (lines start) updates := by
  rw [← nodup_merges_iff distinct, ← lines_mergeAll]
  constructor
  · intro kept
    exact kept.once
  · intro once
    have merged : (updates.foldl merge (lines start)).Nodup := lines_mergeAll ▸ once
    refine ⟨?_, once, ?_, fun update member => mergeLogs_again member, mergeAll_together⟩
    · rw [lines_mergeAll]
      exact prefix_merges
    · rw [lines_mergeAll]
      exact merges_eq_eraseDups merged

theorem reentry_keptOnce : KeptOnce (some ["router"]) [["general", "critic"], ["critic", "end"]] :=
  (keptOnce_iff (by decide)).mpr (by decide)

/-- An empty log and one update that says the same line twice. -/
theorem repeated_not_keptOnce : ¬KeptOnce none [["agent: call", "agent: call"]] := by
  intro kept
  exact absurd kept.once (by decide)

end AgenticEnterprise.Graph.Logs
