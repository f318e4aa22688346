import AgenticEnterprise.Core.Json
import AgenticEnterprise.Memory.VectorStore

/-! Filtered search over what calls of `remember` have left.

The metadata of a call is merged over the two fields that `search` filters by and
returns, so it can put another text or another thread in their place. -/

set_option autoImplicit false

namespace AgenticEnterprise.Memory.Recall

open Core Library VectorStore

/-- A match condition compares texts, and looks into an array. -/
instance : PayloadValue Json where
  ofText := .string
  keywords
    | .string text => [text]
    | .array items => items.filterMap fun item =>
        match item with
        | .string text => some text
        | _ => none
    | _ => []
  keywords_ofText _ := rfl

/-! ## Calls of `remember` -/

/-- A call whose point has been stored. -/
structure Call where
  id : Nat
  vector : Embedding
  threadId : String
  text : String
  metadata : Payload Json

def Call.point (call : Call) : Point Json :=
  ⟨call.id, call.vector, rememberedPayload call.threadId call.text call.metadata⟩

/-- Calls one after another. One that fails stores nothing, but may have created
the collection before. -/
inductive History : Store Json → List Call → Prop where
  | nothing : History none []
  | failed {store calls} (vectorSize : Nat) :
      History store calls → History (some (ensureCollection store vectorSize)) calls
  | remembered {embedder : Embedder} {pointId store calls threadId text metadata vector after} :
      History store calls → pointId ∉ store.points.map Point.id →
      embedder text = .ok vector →
      remember embedder pointId store threadId text metadata = .ok after →
      History after (calls ++ [⟨pointId, vector, threadId, text, metadata⟩])

/-! ## What a search owes its caller -/

def ofThreads (threadIds : List String) (calls : List Call) : List Call :=
  calls.filter fun call => decide (call.threadId ∈ threadIds)

def Call.hit (ranking : PointRanking Json) (query : Embedding) (call : Call) : Hit Json :=
  ⟨ranking.score query call.point, some (.string call.text), some (.string call.threadId)⟩

/-- The hits are the best calls for the threads, each with its text and its thread. -/
def Recalls (ranking : PointRanking Json) (query : Embedding) (limit : Int)
    (threadIds : List String) (calls : List Call) (hits : List (Hit Json)) : Prop :=
  ∃ found : List Call, hits = found.map (Call.hit ranking query) ∧
    (∀ call ∈ found, call ∈ ofThreads threadIds calls) ∧
    ranking.Best query limit.toNat ((ofThreads threadIds calls).map Call.point)
      (found.map Call.point)

/-- Whenever the query can be embedded, the search answers, for one hit at least, and
what it answers is what it owes. -/
def Faithful (store : Store Json) (calls : List Call) : Prop :=
  ∀ (embedder : Embedder) (ranking : PointRanking Json) query limit threadIds vector,
    embedder query = .ok vector →
    (1 ≤ limit → ∃ hits, search embedder ranking store query limit (some threadIds) = .ok hits) ∧
      ∀ hits, search embedder ranking store query limit (some threadIds) = .ok hits →
        Recalls ranking vector limit threadIds calls hits ∧ (threadIds = [] → hits = [])

/-- The metadata has no other value for a key. -/
def Spares (metadata : Payload Json) (key : String) (value : Json) : Prop :=
  metadata.get key = none ∨ metadata.get key = some value

/-- The metadata puts nothing else in the place of the text and the thread. -/
structure Call.Plain (call : Call) : Prop where
  text : Spares call.metadata "text" (.string call.text)
  threadId : Spares call.metadata "thread_id" (.string call.threadId)

/-! ## The points of a history -/

section

variable {store : Store Json} {calls : List Call} {call : Call}
  {payload metadata : Payload Json} {threadIds : List String} {threadId text key : String}
  {value : Json}

theorem History.points (history : History store calls) :
    store.points = calls.map Call.point := by
  induction history with
  | nothing => rfl
  | @failed store _ _ _ ih =>
      rw [← ih]
      cases store <;> rfl
  | remembered _ _ embedded written ih =>
      obtain ⟨vector, same, added⟩ := remember_points written
      rw [embedded] at same
      cases same
      rw [added, ih, List.map_append]
      rfl

theorem History.ids_nodup (history : History store calls) :
    (calls.map Call.id).Nodup := by
  induction history with
  | nothing => exact List.nodup_nil
  | failed _ _ ih => exact ih
  | @remembered _ pointId store calls _ _ _ _ _ earlier fresh _ _ ih =>
      rw [List.map_append, List.map_singleton]
      refine ih.append (List.nodup_singleton _) ?_
      intro id member here
      obtain rfl : id = _ := List.mem_singleton.mp here
      rw [earlier.points, List.map_map] at fresh
      exact fresh member

theorem get_append :
    Payload.get (payload ++ metadata) key = (metadata.get key).or (payload.get key) := by
  simp only [Payload.get, List.reverse_append, List.lookup_append]

theorem spares_iff :
    Spares metadata key value ↔ (metadata.get key).or (some value) = some value := by
  unfold Spares
  cases metadata.get key with
  | none => simp
  | some other => simp

theorem Call.point_text :
    call.point.payload.get "text" =
      (call.metadata.get "text").or (some (.string call.text)) :=
  get_append

theorem Call.point_threadId :
    call.point.payload.get "thread_id" =
      (call.metadata.get "thread_id").or (some (.string call.threadId)) :=
  get_append

theorem Call.plain_iff :
    call.Plain ↔ call.point.payload.get "text" = some (.string call.text) ∧
      call.point.payload.get "thread_id" = some (.string call.threadId) := by
  rw [Call.point_text, Call.point_threadId, ← spares_iff, ← spares_iff]
  exact ⟨fun plain => ⟨plain.text, plain.threadId⟩, fun both => ⟨both.1, both.2⟩⟩

/-! ## The filter -/

theorem exists_map_eq {Source Target : Type} {image : Source → Target} {source : List Source}
    {target : List Target} (inside : ∀ item ∈ target, item ∈ source.map image) :
    ∃ found : List Source, found.map image = target ∧ ∀ item ∈ found, item ∈ source := by
  induction target with
  | nil => exact ⟨[], rfl, fun _ member => by cases member⟩
  | cons first rest ih =>
      obtain ⟨found, same, own⟩ := ih fun item member => inside item (.tail _ member)
      obtain ⟨item, member, rfl⟩ := List.mem_map.mp (inside first (.head _))
      refine ⟨item :: found, by rw [List.map_cons, same], ?_⟩
      intro other here
      rcases List.mem_cons.mp here with rfl | later
      · exact member
      · exact own other later

theorem History.point_injective (history : History store calls) {other : Call}
    (member : call ∈ calls) (otherMember : other ∈ calls) (same : call.point.id = other.point.id) :
    call = other :=
  List.inj_on_of_nodup_map history.ids_nodup member otherMember same

theorem History.distinct (history : History store calls) :
    ((ofThreads threadIds calls).map Call.point).Nodup := by
  have ids : ((ofThreads threadIds calls).map Call.id).Nodup :=
    (List.filter_sublist.map Call.id).nodup history.ids_nodup
  refine List.Nodup.of_map Point.id ?_
  rw [List.map_map]
  exact ids

theorem matchAny_point (plain : call.Plain) :
    matchAny threadIds call.point = decide (call.threadId ∈ threadIds) := by
  rw [matchAny, (Call.plain_iff.mp plain).2]
  simp [PayloadValue.keywords]

theorem filter_points (plain : ∀ call ∈ calls, call.Plain) :
    (calls.map Call.point).filter (matchAny threadIds) =
      (ofThreads threadIds calls).map Call.point := by
  rw [List.filter_map, ofThreads]
  congr 1
  exact List.filter_congr fun call member => matchAny_point (plain call member)

theorem hit_of_plain {ranking : PointRanking Json} {query : Embedding} (plain : call.Plain) :
    (⟨ranking.score query call.point, call.point.payload.get "text",
      call.point.payload.get "thread_id"⟩ : Hit Json) = call.hit ranking query := by
  obtain ⟨written, threaded⟩ := Call.plain_iff.mp plain
  rw [written, threaded]
  rfl

theorem faithful_of_plain (history : History store calls) (plain : ∀ call ∈ calls, call.Plain) :
    Faithful store calls := by
  intro embedder ranking query limit threadIds vector embedded
  refine ⟨fun asked => ⟨_, by rw [search_eq_best threadIds asked, embedded]; rfl⟩,
    fun hits answered => ?_⟩
  obtain ⟨other, again, rfl⟩ := search_ok answered
  obtain rfl : vector = other := Except.ok.inj (embedded.symm.trans again)
  rw [history.points, filter_points plain, bestHits]
  have best : ranking.Best vector limit.toNat ((ofThreads threadIds calls).map Call.point)
      (ranking.top vector limit.toNat ((ofThreads threadIds calls).map Call.point)) :=
    Ranking.best_top history.distinct
  obtain ⟨found, same, own⟩ := exists_map_eq best.own
  refine ⟨⟨found, ?_, own, same ▸ best⟩, ?_⟩
  · rw [← same, List.map_map]
    refine List.map_congr_left fun call member => ?_
    exact hit_of_plain (plain call (List.mem_of_mem_filter (own call member)))
  · rintro rfl
    have none : ofThreads [] calls = [] := by simp [ofThreads]
    rw [none, List.map_nil, Ranking.top_nil, List.map_nil]

/-- A search for a thread, by a score that tells all points apart, finds every call
for the thread as the caller made it. -/
theorem plain_of_faithful (history : History store calls) (faithful : Faithful store calls)
    (member : call ∈ calls) : call.Plain := by
  have listed : call ∈ ofThreads [call.threadId] calls :=
    List.mem_filter.mpr ⟨member, by simp⟩
  have some : 1 ≤ (calls.length : Int) := by
    have positive := List.length_pos_of_mem member
    omega
  obtain ⟨answers, owes⟩ := faithful (fun _ => .ok [])
    (.ofScore (fun _ point => point.id) Point.id) "" calls.length [call.threadId] [] rfl
  obtain ⟨hits, answered⟩ := answers some
  obtain ⟨⟨found, same, own, best⟩, _⟩ := owes hits answered
  have kept : call ∈ found := by
    have few : ((ofThreads [call.threadId] calls).map Call.point).length ≤
        (calls.length : Int).toNat := by
      rw [List.length_map, Int.toNat_natCast]
      exact List.length_filter_le _ _
    obtain ⟨other, here, point⟩ :=
      List.mem_map.mp (best.complete few (List.mem_map.mpr ⟨call, listed, rfl⟩))
    have inside := List.mem_of_mem_filter (own other here)
    exact history.point_injective inside member (congrArg Point.id point) ▸ here
  rw [search_eq_best _ some, history.points] at answered
  have hit : Call.hit (.ofScore (fun _ point => point.id) Point.id) [] call ∈ hits :=
    same ▸ List.mem_map.mpr ⟨call, kept, rfl⟩
  cases answered
  obtain ⟨point, top, shown⟩ := List.mem_map.mp hit
  obtain ⟨other, inside, rfl⟩ :=
    List.mem_map.mp (List.mem_of_mem_filter (Ranking.mem_of_mem_top top))
  have score : ((other.point.id : Nat) : Rat) = (call.point.id : Nat) := congrArg Hit.score shown
  obtain rfl := history.point_injective inside member (Nat.cast_injective score)
  exact Call.plain_iff.mpr ⟨congrArg Hit.text shown, congrArg Hit.threadId shown⟩

/-- Filtered search answers with what was remembered exactly if no call's metadata puts
another value in the place of its text or its thread. -/
theorem faithful_iff_plain (history : History store calls) :
    Faithful store calls ↔ ∀ call ∈ calls, call.Plain :=
  ⟨fun faithful _ member => plain_of_faithful history faithful member,
    faithful_of_plain history⟩

end

/-! ## Two stores -/

/-- Every text has the same vector. -/
def storing (id : Nat) (threadId text : String) (metadata : Payload Json) : Call :=
  ⟨id, [1], threadId, text, metadata⟩

def storeOf (calls : List Call) : Store Json :=
  some ⟨1, calls.map Call.point⟩

def rotating : Call :=
  storing 0 "plans" "the key rotates" [("topic", .string "keys"), ("year", .int 2024)]

/-- The metadata repeats the thread. -/
def lost : Call :=
  storing 1 "notes" "the key is lost" [("thread_id", .string "notes")]

theorem first_history (call : Call) (unit : call.vector = [1]) :
    History (storeOf [call]) [call] := by
  obtain ⟨id, _, threadId, text, metadata⟩ := call
  subst unit
  have unwritten : id ∉ (Store.points (none : Store Json)).map Point.id := List.not_mem_nil
  exact @History.remembered (fun _ => .ok [1]) id none [] threadId text metadata [1] _ .nothing
    unwritten rfl rfl

theorem rotating_lost_history : History (storeOf [rotating, lost]) [rotating, lost] := by
  have fresh : 1 ∉ (storeOf [rotating]).points.map Point.id := by
    simp [Store.points, storeOf, rotating, Call.point, storing]
  exact @History.remembered (fun _ => .ok [1]) 1 _ _ "notes" "the key is lost"
    [("thread_id", .string "notes")] [1] _ (first_history rotating rfl) fresh rfl rfl

theorem rotating_lost_faithful : Faithful (storeOf [rotating, lost]) [rotating, lost] := by
  refine (faithful_iff_plain rotating_lost_history).mpr fun call member => ?_
  rcases List.mem_pair.mp member with rfl | rfl
  · exact ⟨.inl rfl, .inl rfl⟩
  · exact ⟨.inl rfl, .inr rfl⟩

/-- A call for one thread that the metadata puts into another one. -/
def moved : Call :=
  storing 0 "plans" "the key rotates" [("thread_id", .string "notes")]

theorem moved_not_faithful :
    History (storeOf [moved]) [moved] ∧ ¬ Faithful (storeOf [moved]) [moved] := by
  refine ⟨first_history moved rfl, fun faithful => ?_⟩
  have plain := plain_of_faithful (first_history moved rfl) faithful (.head _)
  rcases plain.threadId with absent | own
  · cases absent
  · simp [moved, storing, Payload.get] at own

end AgenticEnterprise.Memory.Recall
