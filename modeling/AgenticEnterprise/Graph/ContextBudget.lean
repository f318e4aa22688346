import AgenticEnterprise.Graph.Threads
import AgenticEnterprise.Library.Accumulators

/-! What fits of the retrieved memories: the budget of `retrieve_semantic_memories`. -/

set_option autoImplicit false

namespace AgenticEnterprise.Graph.ContextBudget

open Core Library Memory Engine Threads

/-- With a budget of `limit` the loop takes the longest prefix that fits. Its budget
is never negative, however many of the hits it has seen, and with a larger limit it
goes on behind the same prefix. -/
structure Fills (limit : Nat) (hits : List VectorStore.Hit) (texts context : List String) :
    Prop where
  taken : contextWithin limit hits = .ok context
  longest : LongestWithin String.length limit texts context
  nonnegative : ∀ seen held, seen <+: hits → fitHits { budget := limit } seen = .ok held →
    0 ≤ held.budget
  grows : ∀ larger more, limit ≤ larger → contextWithin larger hits = .ok more →
    context <+: more

section

variable {held after : Budgeted} {hit : VectorStore.Hit} {hits : List VectorStore.Hit}
  {texts : List String} {limit : Nat}

/-- What is taken and what is left of the budget add up to the limit. -/
def Spends (limit : Nat) (held : Budgeted) : Prop :=
  0 ≤ held.budget ∧ held.budget + total String.length held.context = limit

theorem total_concat (size : String → Nat) (items : List String) (item : String) :
    total size (items ++ [item]) = total size items + size item := by
  induction items with
  | nil => simp [total]
  | cons first items ih => simp only [List.cons_append, total, ih, Nat.add_assoc]

theorem Spends.fitHit (spends : Spends limit held) (taken : fitHit held hit = .ok (some after)) :
    Spends limit after := by
  obtain ⟨nonnegative, sum⟩ := spends
  unfold Engine.fitHit at taken
  split at taken
  · cases taken
  · split at taken
    · cases taken
    · rename_i text _ within
      cases taken
      refine ⟨by dsimp only; omega, ?_⟩
      simp only [total_concat]
      omega

theorem Spends.fitHits (spends : Spends limit held) (ended : fitHits held hits = .ok after) :
    Spends limit after := by
  induction hits generalizing held with
  | nil =>
      cases ended
      exact spends
  | cons hit hits ih =>
      rw [Engine.fitHits] at ended
      cases taken : Engine.fitHit held hit with
      | error failure =>
          rw [taken] at ended
          cases ended
      | ok next =>
          rw [taken] at ended
          cases next with
          | none =>
              cases ended
              exact spends
          | some next => exact ih (spends.fitHit taken) ended

/-- The loop takes what the recursion over the rest of the budget takes. -/
theorem contextWithin_texts (written : hits.map VectorStore.Hit.text = texts.map some)
    (budget : Nat) : contextWithin budget hits = .ok (takeWithin String.length budget texts) := by
  induction hits generalizing texts budget with
  | nil =>
      obtain rfl : texts = [] := by simpa using written.symm
      rfl
  | cons hit hits ih =>
      cases texts with
      | nil => cases written
      | cons text texts =>
          obtain ⟨own, others⟩ := List.cons_eq_cons.mp written
          rw [contextWithin_cons, own, takeWithin]
          by_cases exceeds : text.length > budget
          · simp only [if_pos exceeds]
          · simp only [if_neg exceeds, ih others, Except.map]

theorem fills (written : hits.map VectorStore.Hit.text = texts.map some) :
    Fills limit hits texts (takeWithin String.length limit texts) where
  taken := contextWithin_texts written limit
  longest := longestWithin_takeWithin
  nonnegative seen held _ ended := by
    have start : Spends limit { budget := limit } := ⟨by simp, by simp [total]⟩
    exact (start.fitHits ended).1
  grows larger more grown taken := by
    rw [contextWithin_texts written larger] at taken
    cases taken
    exact longestWithin_takeWithin.mono longestWithin_takeWithin grown

example : contextWithin 7 [⟨0, some "secret", none⟩, ⟨1, some "!", none⟩, ⟨2, some "", none⟩,
    ⟨3, some "more", none⟩] = .ok ["secret", "!", ""] := by decide

/-- With any budget the loop takes the longest prefix of the hits that fits, and the
node writes what it takes of the hits its search has answered. -/
theorem retrieved_longest (written : hits.map VectorStore.Hit.text = texts.map some) :
    (∀ limit, ∃ context, Fills limit hits texts context) ∧
      ∀ (environment : Environment) (state : GraphState) (query : Message),
        lastMessage state = .ok query → retrievedHits environment query.content = .ok hits →
          ∃ context, Fills maxContextChars hits texts context ∧
            (retrieveSemanticMemories environment state).update =
              .ok { retrievedContext := some context
                    internalLogs := ["memory_retriever: fetched cross-thread context"] } := by
  refine ⟨fun limit => ⟨_, fills written⟩, fun environment state query asked found => ?_⟩
  refine ⟨_, fills written, ?_⟩
  simp only [retrieveSemanticMemories, asked, found, bind, Except.bind,
    contextWithin_texts written]
  rfl

end

/-- One fact has been remembered. -/
def remembering : Environment :=
  { scripted ⟨"", []⟩ ⟨"", []⟩ with
    memory := some ⟨0, [⟨0, [], [("text", "secret"), ("thread_id", "t")]⟩]⟩ }

theorem secret_retrieved : ∃ context,
    Fills maxContextChars [⟨0, some "secret", some "t"⟩] ["secret"] context ∧
      (retrieveSemanticMemories remembering { messages := [.human "hello"] }).update =
        .ok { retrievedContext := some context
              internalLogs := ["memory_retriever: fetched cross-thread context"] } := by
  have found : retrievedHits remembering "hello" = .ok [⟨0, some "secret", some "t"⟩] := by
    have single (point : VectorStore.Point) :
        remembering.ranking.top [] 2 [point] = [point] := by
      simp [remembering, scripted, Ranking.top, Ranking.ofScore]
    show Except.ok ((remembering.ranking.top [] 2 _).map _) = _
    rw [List.filter_cons_of_pos rfl, List.filter_nil, single]
    rfl
  exact (retrieved_longest rfl).2 _ _ _ rfl found

end AgenticEnterprise.Graph.ContextBudget
