import AgenticEnterprise.Core.Exceptions
import AgenticEnterprise.Library.Ranking

/-! Cross-thread semantic memory: `app/memory/vector_store.py`.

The embedding model and Qdrant are parameters: a function from texts to vectors
that may fail, and a ranking of the points of the one collection. -/

set_option autoImplicit false

namespace AgenticEnterprise.Memory.VectorStore

open Core Library

abbrev Embedding := List Rat

abbrev Embedder := String → Except Exn Embedding

/-- What a payload can hold. `keywords` are the texts that a match condition compares
with the ones it allows. -/
class PayloadValue (Value : Type) where
  ofText : String → Value
  keywords : Value → List String
  keywords_ofText : ∀ text, keywords (ofText text) = [text]

/-- The routes write texts only. -/
instance : PayloadValue String where
  ofText text := text
  keywords text := [text]
  keywords_ofText _ := rfl

/-- A payload is a dictionary; a later pair with the same key replaces an earlier one. -/
abbrev Payload (Value : Type := String) := List (String × Value)

structure Point (Value : Type := String) where
  id : Nat
  vector : Embedding
  payload : Payload Value
  deriving DecidableEq, Repr

structure Collection (Value : Type := String) where
  size : Nat
  points : List (Point Value)
  deriving DecidableEq, Repr

/-- The collection, or `none` while nothing has been remembered. -/
abbrev Store (Value : Type := String) := Option (Collection Value)

structure Hit (Value : Type := String) where
  score : Rat
  text : Option Value
  threadId : Option Value
  deriving DecidableEq, Repr

abbrev PointRanking (Value : Type := String) := Ranking Embedding (@Point.id Value)

section

variable {Value : Type}

def Payload.get (payload : Payload Value) (key : String) : Option Value :=
  payload.reverse.lookup key

def Store.points : Store Value → List (Point Value)
  | none => []
  | some collection => collection.points

def ensureCollection (store : Store Value) (vectorSize : Nat) : Collection Value :=
  store.getD ⟨vectorSize, []⟩

/-- A vector of another length than the collection's is rejected. -/
def upsert (collection : Collection Value) (point : Point Value) :
    Except Exn (Collection Value) :=
  if point.vector.length = collection.size then
    .ok { collection with points := collection.points ++ [point] }
  else
    .error (.external "qdrant")

variable [PayloadValue Value]

/-- The caller's metadata is merged over the two fields. -/
def rememberedPayload (threadId text : String) (metadata : Payload Value) : Payload Value :=
  [("text", PayloadValue.ofText text), ("thread_id", PayloadValue.ofText threadId)] ++ metadata

/-- `pointId` is the fresh identifier of the call. -/
def remember (embedder : Embedder) (pointId : Nat) (store : Store Value) (threadId text : String)
    (metadata : Payload Value) : Except Exn (Store Value) := do
  let vector ← embedder text
  let collection := ensureCollection store vector.length
  let written ← upsert collection ⟨pointId, vector, rememberedPayload threadId text metadata⟩
  return some written

def matchAny (threadIds : List String) (point : Point Value) : Bool :=
  match point.payload.get "thread_id" with
  | some threadId =>
      (PayloadValue.keywords threadId).any fun keyword => decide (keyword ∈ threadIds)
  | none => false

def bestHits (ranking : PointRanking Value) (query : Embedding) (limit : Int)
    (points : List (Point Value)) : List (Hit Value) :=
  (ranking.top query limit.toNat points).map fun point =>
    ⟨ranking.score query point, point.payload.get "text", point.payload.get "thread_id"⟩

/-- Qdrant refuses a limit below one. -/
def queryPoints (ranking : PointRanking Value) (collection : Collection Value)
    (query : Embedding) (limit : Int) (queryFilter : Point Value → Bool) :
    Except Exn (List (Hit Value)) :=
  if limit < 1 then .error (.external "qdrant")
  else .ok (bestHits ranking query limit (collection.points.filter queryFilter))

def search (embedder : Embedder) (ranking : PointRanking Value) (store : Store Value)
    (query : String) (limit : Int) (threadIds : Option (List String)) :
    Except Exn (List (Hit Value)) := do
  let vector ← embedder query
  match store with
  | none => return []
  | some collection =>
      match threadIds with
      | none => queryPoints ranking collection vector limit fun _ => true
      | some [] => return []
      | some allowed => queryPoints ranking collection vector limit (matchAny allowed)

end

/-! ## Stores written by the remember route -/

/-- Every call takes a fresh identifier and passes no metadata. -/
inductive Remembered (embedder : Embedder) : Store → Prop where
  | none : Remembered embedder none
  | remember {pointId store threadId text after} :
      Remembered embedder store → pointId ∉ store.points.map Point.id →
      remember embedder pointId store threadId text [] = .ok after → Remembered embedder after

/-- What `remember` adds: one point, at the end. -/
theorem remember_points {Value : Type} [PayloadValue Value] {embedder : Embedder} {pointId : Nat}
    {store after : Store Value} {threadId text : String} {metadata : Payload Value}
    (remembered : remember embedder pointId store threadId text metadata = .ok after) :
    ∃ vector, embedder text = .ok vector ∧
      after.points =
        store.points ++ [⟨pointId, vector, rememberedPayload threadId text metadata⟩] := by
  unfold remember at remembered
  cases embedded : embedder text with
  | error failure => simp [embedded, bind, Except.bind] at remembered
  | ok vector =>
      simp only [embedded, bind, Except.bind, upsert] at remembered
      split at remembered
      · cases remembered
      · rename_i written accepted
        cases remembered
        split at accepted
        · cases accepted
          refine ⟨vector, rfl, ?_⟩
          cases store <;> rfl
        · cases accepted

section

variable {embedder : Embedder} {ranking : PointRanking} {store : Store} {query : String}
  {limit : Int}

theorem Remembered.ids_nodup (remembered : Remembered embedder store) :
    (store.points.map Point.id).Nodup := by
  induction remembered with
  | none => exact List.nodup_nil
  | remember _ fresh added ih =>
      obtain ⟨vector, _, same⟩ := remember_points added
      rw [same, List.map_append, List.map_singleton]
      refine ih.append (List.nodup_singleton _) ?_
      intro id member here
      obtain rfl : id = _ := List.mem_singleton.mp here
      exact fresh member

theorem Remembered.payload (remembered : Remembered embedder store) {point : Point}
    (member : point ∈ store.points) :
    ∃ text threadId, point.payload = [("text", text), ("thread_id", threadId)] := by
  induction remembered with
  | none => cases member
  | @remember pointId store threadId text after _ _ added ih =>
      obtain ⟨vector, _, same⟩ := remember_points added
      rw [same, List.mem_append, List.mem_singleton] at member
      rcases member with earlier | rfl
      · exact ih earlier
      · exact ⟨text, threadId, rfl⟩

/-! ## Unfiltered search -/

def Textual (store : Store) : Prop :=
  ∀ point ∈ store.points, (point.payload.get "text").isSome = true

theorem Remembered.textual (remembered : Remembered embedder store) : Textual store := by
  intro point member
  obtain ⟨text, threadId, payload⟩ := remembered.payload member
  rw [payload]
  rfl

/-- Whether an unfiltered search fails depends on the embedding of the query alone. -/
theorem search_textual (textual : Textual store) (asked : 1 ≤ limit) :
    (∃ failure, embedder query = .error failure ∧
        search embedder ranking store query limit none = .error failure) ∨
      ∃ vector hits, embedder query = .ok vector ∧
        search embedder ranking store query limit none = .ok hits ∧
        ∀ hit ∈ hits, hit.text.isSome = true := by
  unfold search
  cases embedded : embedder query with
  | error failure => exact .inl ⟨failure, rfl, rfl⟩
  | ok vector =>
      cases store with
      | none => exact .inr ⟨vector, [], rfl, rfl, by simp⟩
      | some collection =>
          refine .inr ⟨vector, _, rfl, if_neg (Int.not_lt.mpr asked), ?_⟩
          intro hit member
          obtain ⟨point, top, rfl⟩ := List.mem_map.mp member
          exact textual point (List.mem_of_mem_filter (Ranking.mem_of_mem_top top))

end

/-! ## Filtered search -/

section

variable {Value : Type} [PayloadValue Value] {embedder : Embedder}
  {ranking : PointRanking Value} {store : Store Value} {query : String} {limit : Int}

theorem matchAny_congr {threadIds others : List String}
    (same : ∀ threadId, threadId ∈ threadIds ↔ threadId ∈ others) :
    (matchAny threadIds : Point Value → Bool) = matchAny others := by
  funext point
  unfold matchAny
  split <;> simp [same]

theorem filter_matchAny_nil (points : List (Point Value)) :
    points.filter (matchAny []) = [] := by
  rw [List.filter_eq_nil_iff]
  intro point _
  unfold matchAny
  split <;> simp

omit [PayloadValue Value] in
theorem bestHits_nil {vector : Embedding} : bestHits ranking vector limit [] = [] := by
  rw [bestHits, Ranking.top_nil, List.map_nil]

omit [PayloadValue Value] in
theorem bestHits_refused {vector : Embedding} {points : List (Point Value)}
    (refused : ¬1 ≤ limit) : bestHits ranking vector limit points = [] := by
  have none : limit.toNat = 0 := by omega
  rw [bestHits, none, Ranking.top, List.take_zero, List.map_nil]

/-- The early returns for a missing collection and for no threads agree with the
filtered query: both leave nothing to rank. -/
theorem search_eq_best (threadIds : List String) (asked : 1 ≤ limit) :
    search embedder ranking store query limit (some threadIds) =
      (embedder query).map fun vector =>
        bestHits ranking vector limit (store.points.filter (matchAny threadIds)) := by
  unfold search
  cases embedder query with
  | error failure => rfl
  | ok vector =>
      cases store with
      | none =>
          simp [bind, Except.bind, pure, Except.pure, Except.map, Store.points, bestHits_nil]
      | some collection =>
          cases threadIds with
          | nil =>
              simp [bind, Except.bind, pure, Except.pure, Except.map, filter_matchAny_nil,
                bestHits_nil]
          | cons first rest => exact if_neg (Int.not_lt.mpr asked)

/-- A search with a limit below one answers without a hit, if at all. -/
theorem search_ok {threadIds : List String} {hits : List (Hit Value)}
    (found : search embedder ranking store query limit (some threadIds) = .ok hits) :
    ∃ vector, embedder query = .ok vector ∧
      hits = bestHits ranking vector limit (store.points.filter (matchAny threadIds)) := by
  by_cases asked : 1 ≤ limit
  · rw [search_eq_best threadIds asked] at found
    obtain ⟨vector, embedded, same⟩ := map_eq_ok_iff.mp found
    exact ⟨vector, embedded, same.symm⟩
  · unfold search at found
    cases embedded : embedder query with
    | error failure =>
        rw [embedded] at found
        cases found
    | ok vector =>
        refine ⟨vector, rfl, ?_⟩
        rw [bestHits_refused asked]
        rw [embedded] at found
        cases store with
        | none =>
            cases found
            rfl
        | some collection =>
            cases threadIds with
            | nil =>
                cases found
                rfl
            | cons first rest =>
                simp [bind, Except.bind, queryPoints, Int.not_le.mp asked] at found

/-- Only the points in the allowed threads decide a filtered search, and with a limit
below one whether there is a collection. -/
theorem search_congr {other : Store Value} {threadIds otherIds : List String}
    (unique : (store.points.map Point.id).Nodup)
    (allowed : ∀ threadId, threadId ∈ threadIds ↔ threadId ∈ otherIds)
    (same : (store.points.filter (matchAny threadIds)).Perm
      (other.points.filter (matchAny threadIds)))
    (answered : 1 ≤ limit ∨ store.isSome = other.isSome) :
    search embedder ranking store query limit (some threadIds) =
      search embedder ranking other query limit (some otherIds) := by
  by_cases asked : 1 ≤ limit
  · rw [search_eq_best threadIds asked, search_eq_best otherIds asked, ← matchAny_congr allowed]
    have cut (vector : Embedding) :
        ranking.top vector limit.toNat (store.points.filter (matchAny threadIds)) =
          ranking.top vector limit.toNat (other.points.filter (matchAny threadIds)) :=
      Ranking.top_filter_congr unique same
    simp only [bestHits, cut]
  · have refused : limit < 1 := Int.not_le.mp asked
    have present : store.isSome = other.isSome := answered.resolve_left asked
    have bare : threadIds = [] ↔ otherIds = [] := by
      simp only [List.eq_nil_iff_forall_not_mem, allowed]
    unfold search
    cases embedder query with
    | error failure => rfl
    | ok vector =>
        cases store <;> cases other
        · rfl
        · cases present
        · cases present
        · cases threadIds with
          | nil =>
              obtain rfl := bare.mp rfl
              rfl
          | cons first rest =>
              cases otherIds with
              | nil => cases bare.mpr rfl
              | cons _ _ => simp [bind, Except.bind, queryPoints, refused]

end

end AgenticEnterprise.Memory.VectorStore
